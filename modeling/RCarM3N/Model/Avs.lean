import RCarM3N.Lib.Prog

/-! The adaptive voltage setting of BL2, `avs_driver.c`, which talks to the PMIC step by step, one call for each. Every
read of a byte register returns the next value of the device. -/

namespace RCar.Avs

inductive AvsStatus where
  | none
  | init
  | startCondition
  | setSlaveAddr
  | writeRegAddr
  | writeRegData
  | stopCondition
  | complete
  | alStart
  | alTransfer
  | nack
  | errorStop
  | errorEnd
  /-- `avs_status_end` -/
  | fin
deriving DecidableEq

inductive AvsError where
  | none
  | al
  | nack
deriving DecidableEq

inductive Reg where
  | icdr
  | iccr
  | icsr
  | icic
  | iccl
  | icch
deriving DecidableEq

/-- A write of a byte register, or a module whose clock is turned on. -/
inductive Access where
  | write (r : Reg) (v : UInt8)
  | mstpcr (bit : UInt32)
deriving DecidableEq

structure AvsDriver where
  /-- what the reads of byte registers return, and how many there were -/
  device : ℕ → UInt8
  reads : ℕ
  advadjp2 : UInt32
  modemr : UInt32
  avsStatus : AvsStatus
  avsRetry : ℕ
  efuseAvs : ℕ
  /-- the accesses so far, the last one first -/
  log : List Access

def AVS_RETRY_NUM : ℕ := 1
def ADVADJP2_VOLCOND_MASK : UInt32 := 0x000001FF
def CPG_SYS_DVFS_BIT : UInt32 := 0x04000000
def CPG_SYS_ADVFS_BIT : UInt32 := 0x02000000
def ICSR_BUSY : UInt8 := 0x10
def ICSR_AL : UInt8 := 0x08
def ICSR_TACK : UInt8 := 0x04
def ICSR_WAIT : UInt8 := 0x02
def ICSR_DTE : UInt8 := 0x01
def ICIC_TACKE : UInt8 := 0x04
def ICIC_WAITE : UInt8 := 0x02
def ICIC_DTEE : UInt8 := 0x01
def ICCR_ENABLE : UInt8 := 0x80
def ICCR_START : UInt8 := 0x94
def ICCR_STOP : UInt8 := 0x90
def PMIC_W_SLAVE_ADDRESS : UInt8 := 0x60
def PMIC_DVFS_SETVID : UInt8 := 0x54
def EFUSE_AVS0 : ℕ := 0
def CHECK_MD13_MD14 : UInt32 := 0x6000
def MD14_MD13_TYPE_0 : UInt32 := 0x0000
def MD14_MD13_TYPE_1 : UInt32 := 0x2000
def MD14_MD13_TYPE_2 : UInt32 := 0x4000

structure InitialVoltage where
  avs : UInt32
  vol : UInt8

def initVolTbl : List InitialVoltage :=
  [⟨0x00, 0x53⟩, ⟨0x01, 0x52⟩, ⟨0x02, 0x51⟩, ⟨0x04, 0x50⟩, ⟨0x08, 0x4F⟩, ⟨0x10, 0x4E⟩, ⟨0x20, 0x4D⟩, ⟨0x40, 0x4C⟩]

def EFUSE_AVS_NUM : ℕ := initVolTbl.length

def mmioRead8 (_ : Reg) : Prog AvsDriver UInt8 := fun s =>
  (some (s.device s.reads), { s with reads := s.reads + 1 })

def note (a : Access) : Prog AvsDriver Unit := Prog.modify fun s => { s with log := a :: s.log }

def mmioWrite8 (r : Reg) (v : UInt8) : Prog AvsDriver Unit := note (.write r v)

def setStatus (st : AvsStatus) : Prog AvsDriver Unit := Prog.modify fun s => { s with avsStatus := st }

/-- The loop that disables the module, with `fuel` rounds left. -/
def disableModule : ℕ → Prog AvsDriver Unit
  | 0 => Prog.stuck
  | fuel + 1 => do
    let v ← mmioRead8 .iccr
    if v &&& ICCR_ENABLE ≠ 0 then
      mmioWrite8 .iccr 0x00
      disableModule fuel
    else
      return ()

def rcarAvsInit (fuel : ℕ) : Prog AvsDriver Unit := do
  setStatus .init
  note (.mstpcr CPG_SYS_ADVFS_BIT)
  let val := (← Prog.get).advadjp2 &&& ADVADJP2_VOLCOND_MASK
  let efuseAvs := initVolTbl.findIdx fun e => val = e.avs
  Prog.modify fun s => { s with efuseAvs := if efuseAvs ≥ EFUSE_AVS_NUM then EFUSE_AVS0 else efuseAvs }
  note (.mstpcr CPG_SYS_DVFS_BIT)
  mmioWrite8 .iccr 0x00
  disableModule fuel
  setStatus .startCondition

/-- The check of the retries in either branch of `avs_check_error`. -/
def checkRetry (err : AvsError) : Prog AvsDriver AvsError := do
  if (← Prog.get).avsRetry ≥ AVS_RETRY_NUM then
    Prog.stuck
  else
    return err

def avsCheckError : Prog AvsDriver AvsError := do
  let al ← mmioRead8 .icsr
  if al &&& ICSR_AL = ICSR_AL then
    checkRetry .al
  else
    let tack ← mmioRead8 .icsr
    if tack &&& ICSR_TACK = ICSR_TACK then
      checkRetry .nack
    else
      return .none

def avsSetIicClock : Prog AvsDriver Unit := do
  let mdPin := (← Prog.get).modemr &&& CHECK_MD13_MD14
  let (iccl, icch) : UInt8 × UInt8 :=
    if mdPin = MD14_MD13_TYPE_0 then (0x07, 0x01)
    else if mdPin = MD14_MD13_TYPE_1 then (0x09, 0x02)
    else if mdPin = MD14_MD13_TYPE_2 then (0x0B, 0x03)
    else (0x0E, 0x05)
  mmioWrite8 .iccl iccl
  mmioWrite8 .icch icch

/-- A read of a register and a write of what `f` makes of it. -/
def mmioUpdate8 (r : Reg) (f : UInt8 → UInt8) : Prog AvsDriver Unit := do
  mmioWrite8 r (f (← mmioRead8 r))

/-- The four states of a transfer: an error leads to its recovery, else the next byte goes out once `bit` is set. -/
def transferState (alState : AvsStatus) (bit : UInt8) (next : Prog AvsDriver Unit) : Prog AvsDriver Unit := do
  let err ← avsCheckError
  if err = .al then
    setStatus alState
  else if err = .nack then
    setStatus .nack
  else
    let icsr ← mmioRead8 .icsr
    if icsr &&& bit = bit then
      next
    else
      return ()

/-- A state that waits until `ready` holds of the status register. -/
def waitState (ready : UInt8 → Bool) (next : Prog AvsDriver Unit) : Prog AvsDriver Unit := do
  let icsr ← mmioRead8 .icsr
  if ready icsr then
    next
  else
    return ()

def rcarAvsSetting : Prog AvsDriver Unit := do
  let s ← Prog.get
  match s.avsStatus with
  | .startCondition => do
    mmioUpdate8 .iccr (· ||| ICCR_ENABLE)
    avsSetIicClock
    mmioUpdate8 .icic (· ||| ICIC_TACKE ||| ICIC_WAITE ||| ICIC_DTEE)
    mmioWrite8 .iccr ICCR_START
    setStatus .setSlaveAddr
  | .setSlaveAddr => transferState .alStart ICSR_DTE do
    mmioUpdate8 .icic (· &&& ~~~ICIC_DTEE)
    mmioWrite8 .icdr PMIC_W_SLAVE_ADDRESS
    setStatus .writeRegAddr
  | .writeRegAddr => transferState .alTransfer ICSR_WAIT do
    mmioWrite8 .icdr PMIC_DVFS_SETVID
    mmioUpdate8 .icsr (· &&& ~~~ICSR_WAIT)
    setStatus .writeRegData
  | .writeRegData => transferState .alTransfer ICSR_WAIT do
    match initVolTbl[s.efuseAvs]? with
    | .none => Prog.stuck
    | .some e => do
      mmioWrite8 .icdr e.vol
      mmioUpdate8 .icsr (· &&& ~~~ICSR_WAIT)
      setStatus .stopCondition
  | .stopCondition => transferState .alTransfer ICSR_WAIT do
    mmioWrite8 .iccr ICCR_STOP
    mmioUpdate8 .icsr (· &&& ~~~ICSR_WAIT)
    setStatus .fin
  | .fin => waitState (fun icsr => icsr &&& ICSR_BUSY = 0) do
    mmioWrite8 .iccr 0x00
    setStatus .complete
  | .alStart => do
    mmioUpdate8 .icsr (· &&& ~~~ICSR_AL)
    mmioWrite8 .icdr (initVolTbl.get ⟨EFUSE_AVS0, by decide⟩).vol
    setStatus .errorStop
  | .alTransfer => do
    mmioUpdate8 .icsr (· &&& ~~~ICSR_AL)
    setStatus .errorStop
  | .nack => do
    mmioWrite8 .iccr ICCR_STOP
    mmioUpdate8 .icic (· &&& ~~~(ICIC_WAITE ||| ICIC_DTEE))
    mmioUpdate8 .icsr (· &&& ~~~ICSR_TACK)
    setStatus .errorEnd
  | .errorStop => waitState (fun icsr => icsr &&& ICSR_WAIT = ICSR_WAIT) do
    mmioWrite8 .iccr ICCR_STOP
    mmioUpdate8 .icsr (· &&& ~~~ICSR_WAIT)
    setStatus .errorEnd
  | .errorEnd => waitState (fun icsr => icsr &&& ICSR_BUSY = 0) do
    mmioWrite8 .iccr 0x00
    Prog.modify fun s => { s with avsRetry := s.avsRetry + 1 }
    setStatus .startCondition
  | .complete => return ()
  | .none => Prog.stuck
  | .init => Prog.stuck

end RCar.Avs
