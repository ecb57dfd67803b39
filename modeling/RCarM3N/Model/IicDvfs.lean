import RCarM3N.Lib.Prog

/-! The I2C engine that BL2 and BL31 talk to the PMIC with, `iic_dvfs.c`. The status register and
the data register return the values of a list, in order; a run that has used it up has not
returned. The clock of the module is taken to be on (`mstpcr_write`). -/

namespace RCar.Dvfs

inductive DvfsState where
  | start
  | stop
  | retransmit
  | read
  | stopRead
  | setSlaveRead
  | setSlave
  | writeAddr
  | writeData
  | changeSendToRecieve
  | done
deriving DecidableEq

/-- What happens on the bus: a write to the control register, a write to the data register, a
read from it. `detected` is a mark of the model: the error check has seen an error. -/
inductive BusEvent where
  | control (v : UInt8)
  | send (v : UInt8)
  | receive (v : UInt8)
  | detected
deriving DecidableEq

structure IicDvfs where
  /-- what the reads of ICSR and ICDR return -/
  input : List UInt8
  iccr : UInt8
  icic : UInt8
  iccl : UInt8
  icch : UInt8
  prr : UInt32
  modemr : UInt32
  /-- the events so far, the last one first -/
  log : List BusEvent
  /-- the locals of `send` and `receive` -/
  state : DvfsState
  err : ℕ
  data : UInt8

def DVFS_RETRY_MAX : ℕ := 2

def IIC_DVFS_SET_ICCL_EXTAL_TYPE_0 : UInt8 := 0x07
def IIC_DVFS_SET_ICCL_EXTAL_TYPE_1 : UInt8 := 0x09
def IIC_DVFS_SET_ICCL_EXTAL_TYPE_2 : UInt8 := 0x0B
def IIC_DVFS_SET_ICCL_EXTAL_TYPE_3 : UInt8 := 0x0E
def IIC_DVFS_SET_ICCL_EXTAL_TYPE_E : UInt8 := 0x15
def IIC_DVFS_SET_ICCH_EXTAL_TYPE_0 : UInt8 := 0x01
def IIC_DVFS_SET_ICCH_EXTAL_TYPE_1 : UInt8 := 0x02
def IIC_DVFS_SET_ICCH_EXTAL_TYPE_2 : UInt8 := 0x03
def IIC_DVFS_SET_ICCH_EXTAL_TYPE_3 : UInt8 := 0x05
def IIC_DVFS_SET_ICCH_EXTAL_TYPE_E : UInt8 := 0x07

def IIC_DVFS_BIT_ICSR_BUSY : UInt8 := 0x10
def IIC_DVFS_BIT_ICSR_AL : UInt8 := 0x08
def IIC_DVFS_BIT_ICSR_TACK : UInt8 := 0x04
def IIC_DVFS_BIT_ICSR_WAIT : UInt8 := 0x02
def IIC_DVFS_BIT_ICSR_DTE : UInt8 := 0x01

def IIC_DVFS_BIT_ICCR_ENABLE : UInt8 := 0x80
def IIC_DVFS_SET_ICCR_START : UInt8 := 0x94
def IIC_DVFS_SET_ICCR_STOP : UInt8 := 0x90
def IIC_DVFS_SET_ICCR_RETRANSMISSION : UInt8 := 0x94
def IIC_DVFS_SET_ICCR_CHANGE : UInt8 := 0x81
def IIC_DVFS_SET_ICCR_STOP_READ : UInt8 := 0xC0

def IIC_DVFS_BIT_ICIC_TACKE : UInt8 := 0x04
def IIC_DVFS_BIT_ICIC_WAITE : UInt8 := 0x02
def IIC_DVFS_BIT_ICIC_DTEE : UInt8 := 0x01

def DVFS_READ_MODE : UInt8 := 0x01
def DVFS_WRITE_MODE : UInt8 := 0x00
def IIC_DVFS_SET_DUMMY : UInt8 := 0x52
def IIC_DVFS_SET_BUSY_LOOP : ℕ := 500000000

def DVFS_PROCESS : ℤ := 1
def DVFS_COMPLETE : ℤ := 0
def DVFS_ERROR : ℤ := -1

def PRR_PRODUCT_MASK : UInt32 := 0x00007F00
def PRR_PRODUCT_E3 : UInt32 := 0x00005700
def CHECK_MD13_MD14 : UInt32 := 0x6000
def MD14_MD13_TYPE_0 : UInt32 := 0x0000
def MD14_MD13_TYPE_1 : UInt32 := 0x2000
def MD14_MD13_TYPE_2 : UInt32 := 0x4000

/-! ## Registers -/

/-- A read of ICSR or of ICDR. -/
def readInput : Prog IicDvfs UInt8 := fun s =>
  match s.input with
  | [] => (none, s)
  | v :: l => (some v, { s with input := l })

def note (e : BusEvent) : Prog IicDvfs Unit := Prog.modify fun s => { s with log := e :: s.log }

def writeIccr (v : UInt8) : Prog IicDvfs Unit := do
  Prog.modify fun s => { s with iccr := v }
  note (.control v)

def writeIcdr (v : UInt8) : Prog IicDvfs Unit := note (.send v)

def writeIcic (v : UInt8) : Prog IicDvfs Unit := Prog.modify fun s => { s with icic := v }

def setState (state : DvfsState) : Prog IicDvfs Unit := Prog.modify fun s => { s with state := state }

/-- A read of ICSR and a write of it with some bits cleared, which only has an effect in the
status that is read later. -/
def clearIcsr (_ : UInt8) : Prog IicDvfs Unit := do
  let _ ← readInput
  return ()

/-- `do { ... } while (reg == 0)` on the wait bit. -/
def awaitWait : Prog IicDvfs Unit := fun s =>
  match s.input.dropWhile fun v => v &&& IIC_DVFS_BIT_ICSR_WAIT = 0 with
  | [] => (none, { s with input := [] })
  | _ :: l => (some (), { s with input := l })

/-- The loop on the busy bit with `n` more rounds, after which it panics. -/
def awaitIdle : ℕ → Prog IicDvfs Unit
  | 0 => Prog.stuck
  | n + 1 => do
    let reg ← readInput
    if reg &&& IIC_DVFS_BIT_ICSR_BUSY = 0 then
      return ()
    awaitIdle n

/-! ## The steps -/

/-- The end of both branches of the error check. -/
def retry : Prog IicDvfs ℤ := do
  Prog.modify fun s => { s with err := s.err + 1 }
  if (← Prog.get).err > DVFS_RETRY_MAX then
    return DVFS_ERROR
  setState .start
  return DVFS_PROCESS

def dvfsCheckError (mode : UInt8) : Prog IicDvfs ℤ := do
  let stop :=
    if mode = DVFS_READ_MODE then IIC_DVFS_SET_ICCR_STOP_READ else IIC_DVFS_SET_ICCR_STOP
  let reg ← readInput
  if reg &&& IIC_DVFS_BIT_ICSR_AL = 0 ∧ reg &&& IIC_DVFS_BIT_ICSR_TACK = 0 then
    return DVFS_PROCESS
  note .detected
  if reg &&& IIC_DVFS_BIT_ICSR_AL ≠ 0 then
    clearIcsr IIC_DVFS_BIT_ICSR_AL
    if (← Prog.get).state = .setSlave then
      writeIcdr IIC_DVFS_SET_DUMMY
    awaitWait
    writeIccr stop
    clearIcsr IIC_DVFS_BIT_ICSR_WAIT
    awaitIdle (IIC_DVFS_SET_BUSY_LOOP + 2)
    writeIccr 0
    retry
  else
    writeIccr stop
    writeIcic ((← Prog.get).icic &&& ~~~(IIC_DVFS_BIT_ICIC_WAITE ||| IIC_DVFS_BIT_ICIC_DTEE))
    clearIcsr IIC_DVFS_BIT_ICSR_TACK
    awaitIdle (IIC_DVFS_SET_BUSY_LOOP + 2)
    writeIccr 0
    retry

def dvfsStart : Prog IicDvfs ℤ := do
  writeIccr ((← Prog.get).iccr ||| IIC_DVFS_BIT_ICCR_ENABLE)
  let s ← Prog.get
  let reg := s.modemr &&& CHECK_MD13_MD14
  let (iccl, icch) :=
    if s.prr &&& PRR_PRODUCT_MASK = PRR_PRODUCT_E3 then
      (IIC_DVFS_SET_ICCL_EXTAL_TYPE_E, IIC_DVFS_SET_ICCH_EXTAL_TYPE_E)
    else if reg = MD14_MD13_TYPE_0 then
      (IIC_DVFS_SET_ICCL_EXTAL_TYPE_0, IIC_DVFS_SET_ICCH_EXTAL_TYPE_0)
    else if reg = MD14_MD13_TYPE_1 then
      (IIC_DVFS_SET_ICCL_EXTAL_TYPE_1, IIC_DVFS_SET_ICCH_EXTAL_TYPE_1)
    else if reg = MD14_MD13_TYPE_2 then
      (IIC_DVFS_SET_ICCL_EXTAL_TYPE_2, IIC_DVFS_SET_ICCH_EXTAL_TYPE_2)
    else
      (IIC_DVFS_SET_ICCL_EXTAL_TYPE_3, IIC_DVFS_SET_ICCH_EXTAL_TYPE_3)
  Prog.modify fun s => { s with iccl := iccl, icch := icch }
  writeIcic ((← Prog.get).icic ||| IIC_DVFS_BIT_ICIC_TACKE ||| IIC_DVFS_BIT_ICIC_WAITE |||
    IIC_DVFS_BIT_ICIC_DTEE)
  writeIccr IIC_DVFS_SET_ICCR_START
  setState .setSlave
  return DVFS_PROCESS

/-- A step that checks for errors, waits for a bit of ICSR, and then acts. -/
def dvfsStep (mode bit : UInt8) (act : Prog IicDvfs Unit) (next : DvfsState) : Prog IicDvfs ℤ := do
  let result ← dvfsCheckError mode
  if result = DVFS_ERROR then
    return result
  let reg ← readInput
  if reg &&& bit ≠ bit then
    return result
  act
  setState next
  return result

def maskDtee : Prog IicDvfs Unit := do
  writeIcic ((← Prog.get).icic &&& ~~~IIC_DVFS_BIT_ICIC_DTEE)

def unmaskDtee : Prog IicDvfs Unit := do
  writeIcic ((← Prog.get).icic ||| IIC_DVFS_BIT_ICIC_DTEE)

def dvfsSetSlave (slave : UInt8) : Prog IicDvfs ℤ :=
  dvfsStep DVFS_WRITE_MODE IIC_DVFS_BIT_ICSR_DTE
    (do maskDtee; writeIcdr (slave <<< 1)) .writeAddr

def dvfsWriteAddr (regAddr : UInt8) : Prog IicDvfs ℤ :=
  dvfsStep DVFS_WRITE_MODE IIC_DVFS_BIT_ICSR_WAIT
    (do writeIcdr regAddr; clearIcsr IIC_DVFS_BIT_ICSR_WAIT) .writeData

def dvfsWriteData (regData : UInt8) : Prog IicDvfs ℤ :=
  dvfsStep DVFS_WRITE_MODE IIC_DVFS_BIT_ICSR_WAIT
    (do writeIcdr regData; clearIcsr IIC_DVFS_BIT_ICSR_WAIT) .stop

def dvfsStop : Prog IicDvfs ℤ :=
  dvfsStep DVFS_WRITE_MODE IIC_DVFS_BIT_ICSR_WAIT
    (do writeIccr IIC_DVFS_SET_ICCR_STOP; clearIcsr IIC_DVFS_BIT_ICSR_WAIT) .done

def dvfsDone : Prog IicDvfs ℤ := do
  awaitIdle IIC_DVFS_SET_BUSY_LOOP
  writeIccr 0
  return DVFS_COMPLETE

def dvfsWriteRegAddrRead (regAddr : UInt8) : Prog IicDvfs ℤ :=
  dvfsStep DVFS_WRITE_MODE IIC_DVFS_BIT_ICSR_WAIT
    (do writeIcdr regAddr; clearIcsr IIC_DVFS_BIT_ICSR_WAIT) .retransmit

def dvfsRetransmit : Prog IicDvfs ℤ :=
  dvfsStep DVFS_WRITE_MODE IIC_DVFS_BIT_ICSR_WAIT
    (do writeIccr IIC_DVFS_SET_ICCR_RETRANSMISSION; clearIcsr IIC_DVFS_BIT_ICSR_WAIT; unmaskDtee)
    .setSlaveRead

def dvfsSetSlaveRead (slave : UInt8) : Prog IicDvfs ℤ :=
  dvfsStep DVFS_WRITE_MODE IIC_DVFS_BIT_ICSR_DTE
    (do maskDtee; writeIcdr (slave <<< 1 + DVFS_READ_MODE)) .changeSendToRecieve

def dvfsChangeSendToRecieve : Prog IicDvfs ℤ :=
  dvfsStep DVFS_WRITE_MODE IIC_DVFS_BIT_ICSR_WAIT
    (do writeIccr IIC_DVFS_SET_ICCR_CHANGE; clearIcsr IIC_DVFS_BIT_ICSR_WAIT) .stopRead

def dvfsStopRead : Prog IicDvfs ℤ :=
  dvfsStep DVFS_READ_MODE IIC_DVFS_BIT_ICSR_WAIT
    (do writeIccr IIC_DVFS_SET_ICCR_STOP_READ; clearIcsr IIC_DVFS_BIT_ICSR_WAIT; unmaskDtee) .read

def dvfsRead : Prog IicDvfs ℤ := do
  let reg ← readInput
  if reg &&& IIC_DVFS_BIT_ICSR_DTE ≠ IIC_DVFS_BIT_ICSR_DTE then
    return DVFS_PROCESS
  maskDtee
  let data ← readInput
  note (.receive data)
  Prog.modify fun s => { s with data := data }
  setState .done
  return DVFS_PROCESS

/-! ## The transfers -/

/-- The `switch` of `send`. -/
def sendStep (slave regAddr regData : UInt8) : Prog IicDvfs ℤ := do
  match (← Prog.get).state with
  | .start => dvfsStart
  | .setSlave => dvfsSetSlave slave
  | .writeAddr => dvfsWriteAddr regAddr
  | .writeData => dvfsWriteData regData
  | .stop => dvfsStop
  | .done => dvfsDone
  | _ => Prog.stuck

/-- The `switch` of `receive`. -/
def receiveStep (slave reg : UInt8) : Prog IicDvfs ℤ := do
  match (← Prog.get).state with
  | .start => dvfsStart
  | .setSlave => dvfsSetSlave slave
  | .writeAddr => dvfsWriteRegAddrRead reg
  | .retransmit => dvfsRetransmit
  | .setSlaveRead => dvfsSetSlaveRead slave
  | .changeSendToRecieve => dvfsChangeSendToRecieve
  | .stopRead => dvfsStopRead
  | .read => dvfsRead
  | .done => dvfsDone
  | _ => Prog.stuck

/-- The loop from `again` on, for at most `n` rounds. -/
def again (step : Prog IicDvfs ℤ) : ℕ → Prog IicDvfs ℤ
  | 0 => Prog.stuck
  | n + 1 => do
    let result ← step
    if result = DVFS_PROCESS then
      again step n
    else
      return result

/-- What `send` and `receive` do before their loop. -/
def begin : Prog IicDvfs Unit := do
  Prog.modify fun s => { s with state := .start, err := 0 }
  writeIccr 1

def rcarIicDvfsSend (slave regAddr regData : UInt8) (n : ℕ) : Prog IicDvfs ℤ := do
  begin
  again (sendStep slave regAddr regData) n

def rcarIicDvfsReceive (slave reg : UInt8) (n : ℕ) : Prog IicDvfs ℤ := do
  begin
  again (receiveStep slave reg) n

end RCar.Dvfs
