import RCarM3N.Model.EmmcCmd

/-! The sector functions of the eMMC driver of BL2: `emmc_select_partition`, `emmc_read_sector`
and `emmc_write_sector`, over a card and a command layer. A command is performed or it fails, as
the next outcome says; the data of a command that is performed without DMA is moved by
`pioTransfer`. Only cards with sector addresses are mounted. -/

namespace RCar.EmmcSector

open RCar.Emmc

def BIT10 : UInt32 := 0x00000400
def EMMC_RW_SECTOR_COUNT_MAX : UInt32 := 0x0000ffff
def EMMC_SECTOR_SIZE_SHIFT : UInt32 := 9
def EMMC_BLOCK_LENGTH_DW : ℕ := 128
def EMMC_MAX_EXT_CSD_LENGTH : UInt32 := 512
def EMMC_EXT_CSD_PARTITION_CONFIG : ℕ := 179
def EMMC_SWITCH_PARTITION_CONFIG : UInt32 := 0x03B30000
def PARTITION_ID_MASK : UInt32 := 0x7
def EMMC_RCA : UInt32 := 1
def EMMC_R1_READY : UInt32 := 0x00000100
def EMMC_R1_STATE_TRAN : UInt32 := 4
def EMMC_FUNCNO_READ_SECTOR : ℕ := 14
def EMMC_FUNCNO_WRITE_SECTOR : ℕ := 15
def CC_EXT_MODE_DMASDRW_ENABLE : UInt32 := 0x00000002
def LOADIMAGE_FLAGS_DMA_ENABLE : UInt32 := 0x00000001

/-! ## The card and the driver -/

inductive Command where
  | CMD6_SWITCH
  | CMD8_SEND_EXT_CSD
  | CMD13_SEND_STATUS
  | CMD18_READ_MULTIPLE_BLOCK
  | CMD23_SET_BLOCK_COUNT
  | CMD25_WRITE_MULTIPLE_BLOCK
deriving DecidableEq

def Command.hal : Command → HalMemcardCommand
  | CMD6_SWITCH => ⟨.R1b, .AC, fun h => nomatch h⟩
  | CMD8_SEND_EXT_CSD => ⟨.R1, .ADTC_READ, fun _ => rfl⟩
  | CMD13_SEND_STATUS => ⟨.R1, .AC, fun h => nomatch h⟩
  | CMD18_READ_MULTIPLE_BLOCK => ⟨.R1, .ADTC_READ, fun _ => rfl⟩
  | CMD23_SET_BLOCK_COUNT => ⟨.R1, .AC, fun h => nomatch h⟩
  | CMD25_WRITE_MULTIPLE_BLOCK => ⟨.R1, .ADTC_WRITE, fun _ => rfl⟩

/-- `cmd_reg_hw` -/
def Command.regHw : Command → UInt32
  | CMD6_SWITCH => 0x00000406
  | CMD8_SEND_EXT_CSD => 0x00001C08
  | CMD13_SEND_STATUS => 0x0000000D
  | CMD18_READ_MULTIPLE_BLOCK => 0x00007C12
  | CMD23_SET_BLOCK_COUNT => 0x00000017
  | CMD25_WRITE_MULTIPLE_BLOCK => 0x00006C19

/-- What becomes of a command. -/
inductive Outcome where
  /-- It is performed, with its response and what the reads of SD_INFO2 return meanwhile. -/
  | done (status : UInt32) (info2 : List UInt32)
  /-- It fails. The card may have obeyed a switch, and what was to be filled is left as `left`. -/
  | failed (code : { c : EmmcErrorCode // c ≠ .EMMC_SUCCESS }) (obeyed : Bool) (left : Mem)

structure Card where
  /-- the content of each hardware partition -/
  part : ℕ → Mem
  /-- the sectors of each partition, which EXT_CSD counts in 32 bits -/
  sectors : ℕ → UInt32
  extCsd : Mem
  /-- set by CMD23 -/
  blockCount : UInt32

/-- The partition that data commands go to. -/
def Card.access (c : Card) : ℕ :=
  ((c.extCsd EMMC_EXT_CSD_PARTITION_CONFIG).toUInt32 &&& PARTITION_ID_MASK).toNat

/-- The argument of CMD6 says how a byte of EXT_CSD changes, and 3 is to write it. -/
def Card.switch (c : Card) (arg : UInt32) : Card :=
  if arg >>> 24 = 3 then
    { c with extCsd :=
        Function.update c.extCsd ((arg >>> 16) &&& 0xFF).toNat ((arg >>> 8) &&& 0xFF).toUInt8 }
  else c

structure Drv where
  mmc : Mmc
  mount : Bool
  r1CardStatus : UInt32
  /-- where `ext_csd_data` is -/
  extCsdData : ℕ
  /-- SD_SECCNT -/
  secCnt : UInt32
  command : Command
  card : Card
  /-- what becomes of the commands, from `pos` on -/
  outcomes : ℕ → Outcome
  pos : ℕ
  /-- the sectors moved so far, each with its address in memory -/
  moved : List (ℕ × ℕ)

/-- An access of the driver object. -/
def onMmc {α : Type} (x : Prog Mmc α) : Prog Drv α := fun s =>
  ((x.run s.mmc).1, { s with mmc := (x.run s.mmc).2 })

/-! ## The command layer -/

/-- The object once a command has been made. -/
def Drv.withCmd (s : Drv) (cmd : Command) (arg : UInt32) : Drv := { s with
  command := cmd
  mmc := { s.mmc with
    cmdInfo := {
      cmd := cmd.hal, arg := arg, dir := .HAL_MEMCARD_READ
      hw := if cmd.hal.responseType = .R1b then cmd.regHw ||| BIT10 else cmd.regHw }
    remainSize := 0, buffAddressVirtual := 0, responseLength := 6 } }

def emmcMakeNontransCmd (cmd : Command) (arg : UInt32) : Prog Drv Unit :=
  Prog.modify fun s => s.withCmd cmd arg

/-- The data information of a command. -/
def Drv.withData (s : Drv) (buffAddressVirtual : ℕ) (len : UInt32) (dir : HalMemcardOperation)
    (transferMode : HalMemcardDataTransferMode) : Drv := { s with
  mmc := { s.mmc with
    cmdInfo := { s.mmc.cmdInfo with dir := dir }
    buffAddressVirtual := buffAddressVirtual, remainSize := len, transferMode := transferMode } }

def emmcMakeTransCmd (cmd : Command) (arg : UInt32) (buffAddressVirtual : ℕ) (len : UInt32)
    (dir : HalMemcardOperation) (transferMode : HalMemcardDataTransferMode) : Prog Drv Unit := do
  emmcMakeNontransCmd cmd arg
  Prog.modify fun s => s.withData buffAddressVirtual len dir transferMode

/-- Where the DMA of the controller starts. -/
def dmaAddr (buffAddressVirtual : ℕ) : ℕ :=
  (UInt32.ofNat buffAddressVirtual &&& DM_DTRAN_ADDR_WRITE_MASK).toNat

/-- Where the data of a command is, or goes. -/
def target (m : Mmc) : ℕ :=
  if m.transferMode = .HAL_MEMCARD_DMA then dmaAddr m.buffAddressVirtual else m.buffAddressVirtual

/-- The `k` words at `off`. -/
def wordsOf (src : Mem) (off k : ℕ) : List UInt64 :=
  (List.range k).map fun i => UInt64.ofNat (src.le64 (off + 8 * i))

def bytesOf (words : List UInt64) : Mem := fun i =>
  (words.getD (i / 8) 0 >>> UInt64.ofNat (8 * (i % 8))).toUInt8

/-- The data phase without DMA; `false` when the transfer has been given up. -/
def pioPhase (ready : UInt32) (info2 : List UInt32) (fifo : List UInt64) : Prog Drv Bool := do
  onMmc <| Prog.modify fun m => { m with
    input := info2, fifo := fifo, sent := [], duringTransfer := true, forceTerminate := false }
  onMmc (pioTransfer ready)
  let given_up := (← Prog.get).mmc.forceTerminate
  onMmc <| Prog.modify fun m => { m with duringTransfer := false, forceTerminate := false }
  return !given_up

/-- The `n` bytes of `src` from `off` on go to the buffer of the command. -/
def readPhase (info2 : List UInt32) (src : Mem) (off n : ℕ) : Prog Drv EmmcErrorCode := do
  let m := (← Prog.get).mmc
  if m.transferMode = .HAL_MEMCARD_DMA then
    onMmc <| Prog.modify fun m => { m with mem := m.mem.copy (target m) src off n }
    return .EMMC_SUCCESS
  else if ← pioPhase SD_INFO2_BRE info2 (wordsOf src off (n / 8)) then
    return .EMMC_SUCCESS
  else
    return .EMMC_ERR_FORCE_TERMINATE

/-- The bytes of the selected partition from `off` on become the `n` first ones of `src`. -/
def storeSectors (off : ℕ) (src : Mem) (n : ℕ) : Prog Drv Unit :=
  Prog.modify fun s => { s with card := { s.card with
    part := Function.update s.card.part s.card.access
      ((s.card.part s.card.access).copy off src 0 n) } }

/-- `n` bytes of the buffer of the command go to the selected partition, from `off` on. -/
def writePhase (info2 : List UInt32) (off n : ℕ) : Prog Drv EmmcErrorCode := do
  let m := (← Prog.get).mmc
  if m.transferMode = .HAL_MEMCARD_DMA then
    storeSectors off (fun i => m.mem (target m + i)) n
    return .EMMC_SUCCESS
  else if ← pioPhase SD_INFO2_BWE info2 [] then
    let words := (← Prog.get).mmc.sent.reverse
    storeSectors off (bytesOf words) (8 * words.length)
    return .EMMC_SUCCESS
  else
    return .EMMC_ERR_FORCE_TERMINATE

/-- The `n` sectors from `sector` on, and where they go to or come from. -/
def pieces (sector n addr : ℕ) : List (ℕ × ℕ) :=
  (List.range n).map fun i => (sector + i, addr + EMMC_BLOCK_LENGTH * i)

/-- A data command: the blocks announced to the card are those that the controller counts, and
they are sectors that the partition has. -/
def dataCommand (phase : ℕ → ℕ → Prog Drv EmmcErrorCode) : Prog Drv EmmcErrorCode := do
  let s ← Prog.get
  let sector := s.mmc.cmdInfo.arg.toNat
  let n := s.secCnt.toNat
  if s.card.blockCount ≠ s.secCnt then
    return .EMMC_ERR_DATA_TIMEOUT
  else if (s.card.sectors s.card.access).toNat < sector + n then
    return .EMMC_ERR_CARD_STATUS_BIT
  else
    Prog.modify fun s => { s with moved := s.moved ++ pieces sector n (target s.mmc) }
    phase (EMMC_BLOCK_LENGTH * sector) (EMMC_BLOCK_LENGTH * n)

/-- A command that the card performs. -/
def perform (status : UInt32) (info2 : List UInt32) : Prog Drv EmmcErrorCode := do
  Prog.modify fun s => { s with
    r1CardStatus := status
    mmc := { s.mmc with currentState := (status &&& EMMC_R1_STATE_MASK) >>> EMMC_R1_STATE_SHIFT } }
  let s ← Prog.get
  let arg := s.mmc.cmdInfo.arg
  match s.command with
  | .CMD6_SWITCH =>
    Prog.modify fun s => { s with card := s.card.switch arg }
    return .EMMC_SUCCESS
  | .CMD8_SEND_EXT_CSD => readPhase info2 s.card.extCsd 0 EMMC_MAX_EXT_CSD_LENGTH.toNat
  | .CMD13_SEND_STATUS => return .EMMC_SUCCESS
  | .CMD18_READ_MULTIPLE_BLOCK => dataCommand (readPhase info2 (s.card.part s.card.access))
  | .CMD23_SET_BLOCK_COUNT =>
    Prog.modify fun s => { s with card := { s.card with blockCount := arg &&& 0xFFFF } }
    return .EMMC_SUCCESS
  | .CMD25_WRITE_MULTIPLE_BLOCK => dataCommand (writePhase info2)

/-- What a command that fails may have done before. -/
def abandon (obeyed : Bool) (left : Mem) : Prog Drv Unit := do
  let s ← Prog.get
  let n := EMMC_BLOCK_LENGTH * s.secCnt.toNat
  match s.command with
  | .CMD6_SWITCH =>
    if obeyed then
      Prog.modify fun s => { s with card := s.card.switch s.mmc.cmdInfo.arg }
  | .CMD8_SEND_EXT_CSD =>
    onMmc <| Prog.modify fun m =>
      { m with mem := m.mem.copy m.buffAddressVirtual left 0 EMMC_MAX_EXT_CSD_LENGTH.toNat }
  | .CMD18_READ_MULTIPLE_BLOCK =>
    onMmc <| Prog.modify fun m => { m with mem := m.mem.copy (target m) left 0 n }
  | .CMD25_WRITE_MULTIPLE_BLOCK =>
    storeSectors (EMMC_BLOCK_LENGTH * s.mmc.cmdInfo.arg.toNat) left n
  | .CMD13_SEND_STATUS | .CMD23_SET_BLOCK_COUNT => return ()

/-- `emmc_exec_cmd` as the functions below see it. -/
def execCmd : Prog Drv EmmcErrorCode := do
  let s ← Prog.get
  Prog.modify fun s => { s with pos := s.pos + 1 }
  match s.outcomes s.pos with
  | .done status info2 => perform status info2
  | .failed code obeyed left =>
    abandon obeyed left
    return code.val

/-! ## emmc_mount.c -/

def emmcSetExtCsd (arg : UInt32) : Prog Drv EmmcErrorCode := do
  emmcMakeNontransCmd .CMD6_SWITCH arg
  let result ← execCmd
  if result ≠ .EMMC_SUCCESS then
    return result
  else
    emmcMakeNontransCmd .CMD13_SEND_STATUS (EMMC_RCA <<< 16)
    let result ← execCmd
    if result ≠ .EMMC_SUCCESS then
      return result
    else
      emmcMakeTransCmd .CMD8_SEND_EXT_CSD 0 (← Prog.get).extCsdData EMMC_MAX_EXT_CSD_LENGTH
        .HAL_MEMCARD_READ .HAL_MEMCARD_NOT_DMA
      execCmd

/-- The byte of the copy of EXT_CSD that the driver keeps. -/
def Drv.partitionConfig (s : Drv) : UInt32 :=
  (s.mmc.mem (s.extCsdData + EMMC_EXT_CSD_PARTITION_CONFIG)).toUInt32

def emmcSelectPartition (id : UInt32) : Prog Drv EmmcErrorCode := do
  let s ← Prog.get
  if s.mount = false then
    onMmc (emmcWriteErrorInfo EMMC_FUNCNO_NONE .EMMC_ERR_STATE)
    return .EMMC_ERR_STATE
  else if id &&& ~~~PARTITION_ID_MASK ≠ 0 then
    onMmc (emmcWriteErrorInfo EMMC_FUNCNO_NONE .EMMC_ERR_PARAM)
    return .EMMC_ERR_PARAM
  else if s.partitionConfig &&& PARTITION_ID_MASK = id then
    return .EMMC_SUCCESS
  else
    emmcSetExtCsd (EMMC_SWITCH_PARTITION_CONFIG |||
      (((s.partitionConfig &&& ~~~PARTITION_ID_MASK) ||| id) <<< 8))

/-! ## emmc_read.c and emmc_write.c -/

/-- The checks of the status at the end of a chunk. -/
def checkCard (funcNo : ℕ) : Prog Drv EmmcErrorCode := do
  let s ← Prog.get
  if s.r1CardStatus &&& EMMC_R1_READY = 0 then
    onMmc (emmcWriteErrorInfo funcNo .EMMC_ERR_CARD_BUSY)
    return .EMMC_ERR_CARD_BUSY
  else if s.mmc.currentState ≠ EMMC_R1_STATE_TRAN then
    onMmc (emmcWriteErrorInfo funcNo .EMMC_ERR_CARD_STATE)
    return .EMMC_ERR_CARD_STATE
  else
    return .EMMC_SUCCESS

/-- The three commands that move at most EMMC_RW_SECTOR_COUNT_MAX sectors. -/
def multipleBlock (funcNo : ℕ) (countArg : UInt32 → UInt32) (cmd : Command)
    (dir : HalMemcardOperation) (transferMode : HalMemcardDataTransferMode)
    (buffAddressVirtual : ℕ) (sectorNumber count : UInt32) : Prog Drv EmmcErrorCode := do
  if count > EMMC_RW_SECTOR_COUNT_MAX ∨ count = 0 then
    onMmc (emmcWriteErrorInfo funcNo .EMMC_ERR_PARAM)
    return .EMMC_ERR_PARAM
  else
    emmcMakeNontransCmd .CMD23_SET_BLOCK_COUNT (countArg count)
    let result ← execCmd
    if result ≠ .EMMC_SUCCESS then
      return result
    else
      Prog.modify fun s => { s with secCnt := count }
      onMmc (setr32 .SD_STOP 0x00000100)
      onMmc (setr32 .CC_EXT_MODE (CC_EXT_MODE_CLEAR ||| CC_EXT_MODE_DMASDRW_ENABLE))
      emmcMakeTransCmd cmd sectorNumber buffAddressVirtual (count <<< EMMC_SECTOR_SIZE_SHIFT) dir
        transferMode
      let result ← execCmd
      if result ≠ .EMMC_SUCCESS then
        return result
      else
        emmcMakeNontransCmd .CMD13_SEND_STATUS (EMMC_RCA <<< 16)
        let result ← execCmd
        if result ≠ .EMMC_SUCCESS then
          return result
        else
          checkCard funcNo

def emmcMultipleBlockRead :=
  multipleBlock EMMC_FUNCNO_READ_SECTOR (fun count => count) .CMD18_READ_MULTIPLE_BLOCK
    .HAL_MEMCARD_READ

def emmcMultipleBlockWrite :=
  multipleBlock EMMC_FUNCNO_WRITE_SECTOR (fun count => 0x80000000 ||| count)
    .CMD25_WRITE_MULTIPLE_BLOCK .HAL_MEMCARD_WRITE

/-- `MIN_EMMC` -/
def minEmmc (a b : UInt32) : UInt32 := if a < b then a else b

theorem toNat_minEmmc (a b : UInt32) : (minEmmc a b).toNat = min a.toNat b.toNat := by
  unfold minEmmc
  split_ifs with h
  · have := UInt32.lt_iff_toNat_lt.mp h
    omega
  · have := UInt32.le_iff_toNat_le.mp (UInt32.not_lt.mp h)
    omega

theorem toNat_sub_minEmmc (a b : UInt32) : (a - minEmmc a b).toNat = a.toNat - b.toNat := by
  have h : minEmmc a b ≤ a := by
    rw [UInt32.le_iff_toNat_le, toNat_minEmmc]
    omega
  rw [UInt32.toNat_sub_of_le _ _ h, toNat_minEmmc]
  omega

/-- The loop over the chunks. -/
def chunks (block : ℕ → UInt32 → UInt32 → Prog Drv EmmcErrorCode) (buffAddressVirtual : ℕ)
    (sectorNumber remain : UInt32) : Prog Drv EmmcErrorCode :=
  if remain = 0 then
    return .EMMC_SUCCESS
  else do
    let transCount := minEmmc remain EMMC_RW_SECTOR_COUNT_MAX
    let result ← block buffAddressVirtual sectorNumber transCount
    if result ≠ .EMMC_SUCCESS then
      return result
    else
      chunks block (buffAddressVirtual + 4 * (EMMC_BLOCK_LENGTH_DW * transCount.toNat))
        (sectorNumber + transCount) (remain - transCount)
termination_by remain.toNat
decreasing_by
  have hpos : remain.toNat ≠ 0 := fun h => ‹¬ remain = 0› (UInt32.toNat_inj.mp h)
  rw [toNat_sub_minEmmc]
  exact Nat.sub_lt (by omega) (by decide)

def rwSector (funcNo : ℕ)
    (block : HalMemcardDataTransferMode → ℕ → UInt32 → UInt32 → Prog Drv EmmcErrorCode)
    (buffAddressVirtual : ℕ) (sectorNumber count featureFlags : UInt32) :
    Prog Drv EmmcErrorCode := do
  if count = 0 then
    onMmc (emmcWriteErrorInfo funcNo .EMMC_ERR_PARAM)
    return .EMMC_ERR_PARAM
  else if (← Prog.get).mount = false then
    onMmc (emmcWriteErrorInfo funcNo .EMMC_ERR_STATE)
    return .EMMC_ERR_STATE
  else
    let transferMode := if featureFlags &&& LOADIMAGE_FLAGS_DMA_ENABLE ≠ 0 then
      HalMemcardDataTransferMode.HAL_MEMCARD_DMA else .HAL_MEMCARD_NOT_DMA
    chunks (block transferMode) buffAddressVirtual sectorNumber count

def emmcReadSector := rwSector EMMC_FUNCNO_READ_SECTOR emmcMultipleBlockRead

def emmcWriteSector := rwSector EMMC_FUNCNO_WRITE_SECTOR emmcMultipleBlockWrite

end RCar.EmmcSector
