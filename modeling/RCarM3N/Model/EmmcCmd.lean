import RCarM3N.Lib.Prog
import RCarM3N.Lib.Bytes

/-! The execution of a command by the eMMC driver of BL2: `emmc_cmd.c` and `emmc_interrupt.c`.
The status and response registers return the values of a list, in the order of the reads, and a
run that has used it up has not returned; a register that only the driver writes reads as it was
written. Delays and messages are left out. -/

namespace RCar.Emmc

/-! ## Registers and constants -/

inductive Reg where
  | SD_CMD
  | SD_ARG
  | SD_STOP
  | SD_RSP10
  | SD_RSP32
  | SD_RSP54
  | SD_RSP76
  | SD_INFO1
  | SD_INFO2
  | SD_INFO1_MASK
  | SD_INFO2_MASK
  | SD_ERR_STS1
  | SD_ERR_STS2
  | CC_EXT_MODE
  | SOFT_RST
  | DM_CM_DTRAN_MODE
  | DM_CM_DTRAN_CTRL
  | DM_CM_INFO1
  | DM_CM_INFO1_MASK
  | DM_CM_INFO2
  | DM_CM_INFO2_MASK
  | DM_DTRAN_ADDR
  | RCAR_PRR
deriving DecidableEq

/-- The registers that the hardware changes. -/
def Reg.isStatus : Reg → Bool
  | SD_RSP10 | SD_RSP32 | SD_RSP54 | SD_RSP76 | SD_INFO1 | SD_INFO2 | SD_ERR_STS1 | SD_ERR_STS2
  | DM_CM_INFO1 | DM_CM_INFO2 => true
  | _ => false

def BIT16 : UInt32 := 0x00010000
def BIT17 : UInt32 := 0x00020000
def BIT20 : UInt32 := 0x00100000
def SD_INFO1_INFO0 : UInt32 := 0x00000001
def SD_INFO1_INFO2 : UInt32 := 0x00000004
def SD_INFO2_CBSY : UInt32 := 0x00004000
def SD_INFO2_BWE : UInt32 := 0x00000200
def SD_INFO2_BRE : UInt32 := 0x00000100
def SD_INFO2_DAT0 : UInt32 := 0x00000080
def SD_INFO2_ERR6 : UInt32 := 0x00000040
def SD_INFO2_ALL_ERR : UInt32 := 0x0000807F
def SD_INFO2_CLEAR : UInt32 := 0x00000800
def SOFT_RST_SDRST : UInt32 := 0x00000001
def CC_EXT_MODE_CLEAR : UInt32 := 0x00001010
def DM_CM_INFO_MASK_CLEAR : UInt32 := 0xFFFCFFFE
def DM_CM_INFO_CH0_ENABLE : UInt32 := 0x00010001
def DM_CM_INFO_CH1_ENABLE : UInt32 := 0x00020001
def DM_CM_DTRAN_MODE_CH0 : UInt32 := 0x00000000
def DM_CM_DTRAN_MODE_CH1 : UInt32 := 0x00010000
def DM_CM_DTRAN_MODE_BIT_WIDTH : UInt32 := 0x00000030
def DM_CM_DTRAN_CTRL_START : UInt32 := 0x00000001
def DM_DTRAN_ADDR_WRITE_MASK : UInt32 := 0xFFFFFFF8

def PRR_PRODUCT_MASK : UInt32 := 0x00007F00
def PRR_CUT_MASK : UInt32 := 0x000000FF
def PRR_PRODUCT_H3 : UInt32 := 0x00004F00
def PRR_PRODUCT_M3 : UInt32 := 0x00005200
def PRR_PRODUCT_10 : UInt32 := 0x00
def PRR_PRODUCT_11 : UInt32 := 0x01

def EMMC_BLOCK_LENGTH : ℕ := 512
def EMMC_BUF_SIZE_SHIFT : ℕ := 3
def EMMC_MAX_RESPONSE_LENGTH : UInt32 := 17
def EMMC_R1_STATE_MASK : UInt32 := 0x00001E00
def EMMC_R1_STATE_SHIFT : UInt32 := 9
def EMMC_R4_STATUS : UInt32 := 0x00008000
def EMMC_FUNCNO_NONE : ℕ := 0
def EMMC_FUNCNO_EXEC_CMD : ℕ := 13

/-! ## The driver object -/

inductive EmmcErrorCode where
  | EMMC_ERR
  | EMMC_SUCCESS
  | EMMC_ERR_FROM_DMAC
  | EMMC_ERR_FROM_DMAC_TRANSFER
  | EMMC_ERR_CARD_STATUS_BIT
  | EMMC_ERR_CMD_TIMEOUT
  | EMMC_ERR_DATA_TIMEOUT
  | EMMC_ERR_CMD_CRC
  | EMMC_ERR_DATA_CRC
  | EMMC_ERR_PARAM
  | EMMC_ERR_RESPONSE
  | EMMC_ERR_RESPONSE_BUSY
  | EMMC_ERR_TRANSFER
  | EMMC_ERR_READ_SECTOR
  | EMMC_ERR_WRITE_SECTOR
  | EMMC_ERR_STATE
  | EMMC_ERR_TIMEOUT
  | EMMC_ERR_ILLEGAL_CARD
  | EMMC_ERR_CARD_BUSY
  | EMMC_ERR_CARD_STATE
  | EMMC_ERR_SET_TRACE
  | EMMC_ERR_FROM_TIMER
  | EMMC_ERR_FORCE_TERMINATE
  | EMMC_ERR_CARD_POWER
  | EMMC_ERR_ERASE_SECTOR
  | EMMC_ERR_INFO2
deriving DecidableEq

inductive EmmcIntState where
  | ESTATE_BEGIN
  | ESTATE_ISSUE_CMD
  | ESTATE_NON_RESP_CMD
  | ESTATE_RCV_RESP
  | ESTATE_RCV_RESPONSE_BUSY
  | ESTATE_CHECK_RESPONSE_COMPLETE
  | ESTATE_DATA_TRANSFER
  | ESTATE_DATA_TRANSFER_COMPLETE
  | ESTATE_ACCESS_END
  | ESTATE_TRANSFER_ERROR
  | ESTATE_ERROR
  | ESTATE_END
deriving DecidableEq

inductive HalMemcardOperation where
  | HAL_MEMCARD_READ
  | HAL_MEMCARD_WRITE
deriving DecidableEq

inductive HalMemcardDataTransferMode where
  | HAL_MEMCARD_DMA
  | HAL_MEMCARD_NOT_DMA
deriving DecidableEq

inductive HalMemcardResponseType where
  | NONE
  | R1
  | R1b
  | R2
  | R3
  | R4
  | R5
  | R6
  | R7
deriving DecidableEq

inductive HalMemcardCommandType where
  | BC
  | BCR
  | AC
  | ADTC_WRITE
  | ADTC_READ
deriving DecidableEq

/-- `cmd_type >= HAL_MEMCARD_COMMAND_TYPE_ADTC_WRITE` -/
def HalMemcardCommandType.isData : HalMemcardCommandType → Bool
  | ADTC_WRITE | ADTC_READ => true
  | _ => false

/-- A value of `HAL_MEMCARD_COMMAND` by its two fields that matter here. Every data command of the
enumeration has the response R1. -/
structure HalMemcardCommand where
  responseType : HalMemcardResponseType
  commandType : HalMemcardCommandType
  data_r1 : commandType.isData = true → responseType = .R1

structure StCommandInfo where
  cmd : HalMemcardCommand
  arg : UInt32
  dir : HalMemcardOperation
  hw : UInt32

structure StErrorInfo where
  num : ℕ
  code : EmmcErrorCode
  info1 : UInt32
  info2 : UInt32
  status1 : UInt32
  status2 : UInt32
  dmInfo1 : UInt32
  dmInfo2 : UInt32

/-- What one call of `emmc_interrupt` samples: the events, and the whole of SD_INFO2. -/
structure Sample where
  info2 : UInt32
  endBit : UInt32
  intEvent1 : UInt32
  intEvent2 : UInt32
  dmEvent1 : UInt32
  dmEvent2 : UInt32
deriving DecidableEq

/-- A mark of the model: a sample and the state it was taken in, or a response word. -/
inductive Event where
  | sample (state : EmmcIntState) (x : Sample)
  | response (word : UInt32)
deriving DecidableEq

structure Mmc where
  /-- what the reads of the status and response registers return -/
  input : List UInt32
  /-- what the reads of SD_BUF0 return -/
  fifo : List UInt64
  /-- what has been written to SD_BUF0, the last word first -/
  sent : List UInt64
  mem : Mem
  reg : Reg → UInt32
  errorInfo : StErrorInfo
  cmdInfo : StCommandInfo
  buffAddressVirtual : ℕ
  remainSize : UInt32
  responseLength : UInt32
  clockEnable : Bool
  transferMode : HalMemcardDataTransferMode
  currentState : UInt32
  duringCmdProcessing : Bool
  duringTransfer : Bool
  duringDmaTransfer : Bool
  dmaErrorFlag : Bool
  forceTerminate : Bool
  stateMachineBlocking : Bool
  getPartitionAccessFlag : Bool
  intEvent1 : UInt32
  intEvent2 : UInt32
  dmEvent1 : UInt32
  dmEvent2 : UInt32
  /-- the locals of `emmc_exec_cmd` -/
  state : EmmcIntState
  rtnCode : EmmcErrorCode
  errNotCareFlag : Bool
  /-- the marks of the call so far, the last one first -/
  events : List Event

/-! ## Accesses -/

/-- `GETR_32` -/
def getr32 (r : Reg) : Prog Mmc UInt32 := fun s =>
  if r.isStatus then
    match s.input with
    | [] => (none, s)
    | v :: l => (some v, { s with input := l })
  else (some (s.reg r), s)

/-- `SETR_32` -/
def setr32 (r : Reg) (v : UInt32) : Prog Mmc Unit :=
  Prog.modify fun s => { s with reg := Function.update s.reg r v }

/-- `GETR_64(SD_BUF0)` -/
def getr64 : Prog Mmc UInt64 := fun s =>
  match s.fifo with
  | [] => (none, s)
  | v :: l => (some v, { s with fifo := l })

/-- `SETR_64(SD_BUF0, v)` -/
def setr64 (v : UInt64) : Prog Mmc Unit := Prog.modify fun s => { s with sent := v :: s.sent }

def storeBytes (p : ℕ) (bytes : List UInt8) : Prog Mmc Unit :=
  Prog.modify fun s => { s with mem := s.mem.copy p (Mem.ofList bytes) 0 bytes.length }

def emmcWriteErrorInfo (funcNo : ℕ) (errorCode : EmmcErrorCode) : Prog Mmc Unit :=
  Prog.modify fun s => { s with errorInfo := { s.errorInfo with num := funcNo, code := errorCode } }

def mark (e : Event) : Prog Mmc Unit := Prog.modify fun s => { s with events := e :: s.events }

/-! ## The event handler -/

/-- The polling of SD_INFO2 for the next block: whether it came, and the values that are left. -/
def breCheck : List UInt32 → Option (Bool × List UInt32)
  | [] => none
  | [v] => if v &&& SD_INFO2_BRE ≠ 0 then some (true, []) else none
  | v :: w :: l =>
    if v &&& SD_INFO2_BRE ≠ 0 then some (true, w :: l)
    else if w &&& SD_INFO2_ALL_ERR ≠ 0 then some (false, l)
    else breCheck l

def awaitBre : Prog Mmc Bool := fun s =>
  match breCheck s.input with
  | none => (none, { s with input := [] })
  | some (came, l) => (some came, { s with input := l })

/-- The loop of `emmc_trans_sector` with `k` more words to move, `i` moved, and the buffer at `p`. -/
def transWords : ℕ → ℕ → ℕ → Prog Mmc EmmcErrorCode
  | 0, _, _ => return .EMMC_SUCCESS
  | k + 1, i, p => do
    if (← Prog.get).cmdInfo.dir = .HAL_MEMCARD_WRITE then
      setr64 (UInt64.ofNat ((← Prog.get).mem.le64 p))
      transWords k (i + 1) (p + 8)
    else if i % (EMMC_BLOCK_LENGTH >>> EMMC_BUF_SIZE_SHIFT) = 0 ∧ i ≠ 0 then
      if ← awaitBre then
        setr32 .SD_INFO2 ((← getr32 .SD_INFO2) &&& ~~~SD_INFO2_BRE)
        let v ← getr64
        storeBytes p ((List.range 8).map fun j => (v >>> UInt64.ofNat (8 * j)).toUInt8)
        transWords k (i + 1) (p + 8)
      else
        return .EMMC_ERR_TRANSFER
    else
      let v ← getr64
      storeBytes p ((List.range 8).map fun j => (v >>> UInt64.ofNat (8 * j)).toUInt8)
      transWords k (i + 1) (p + 8)

def emmcTransSector (buffAddressVirtual : ℕ) : Prog Mmc EmmcErrorCode := do
  if buffAddressVirtual = 0 then
    return .EMMC_ERR_PARAM
  let s ← Prog.get
  if s.duringTransfer = false ∨ s.remainSize = 0 then
    return .EMMC_ERR_STATE
  transWords (s.remainSize >>> 3).toNat 0 buffAddressVirtual

/-- The bit of DM_CM_INFO1 that ends a transfer of DMA channel 1. -/
def dmaEndBit (prrData : UInt32) : UInt32 :=
  let cutVer := prrData &&& PRR_CUT_MASK
  if prrData &&& PRR_PRODUCT_MASK = PRR_PRODUCT_H3 then
    if cutVer = PRR_PRODUCT_10 then BIT17 else if cutVer = PRR_PRODUCT_11 then BIT17 else BIT20
  else if prrData &&& PRR_PRODUCT_MASK = PRR_PRODUCT_M3 then
    if cutVer = PRR_PRODUCT_10 then BIT17 else BIT20
  else BIT20

/-- The first part of `emmc_interrupt`. -/
def takeSample : Prog Mmc Sample := do
  let endBit := dmaEndBit (← getr32 .RCAR_PRR)
  let info1 ← getr32 .SD_INFO1
  let info2 ← getr32 .SD_INFO2
  let intEvent1 := info1 &&& (← getr32 .SD_INFO1_MASK)
  let intEvent2 := info2 &&& (← getr32 .SD_INFO2_MASK)
  let status1 ← getr32 .SD_ERR_STS1
  let status2 ← getr32 .SD_ERR_STS2
  let dmInfo1 ← getr32 .DM_CM_INFO1
  let dmInfo2 ← getr32 .DM_CM_INFO2
  let dmEvent1 := dmInfo1 &&& (← getr32 .DM_CM_INFO1_MASK)
  let dmEvent2 := dmInfo2 &&& (← getr32 .DM_CM_INFO2_MASK)
  Prog.modify fun s => { s with
    errorInfo := { s.errorInfo with
      info1 := info1, info2 := info2, status1 := status1, status2 := status2,
      dmInfo1 := dmInfo1, dmInfo2 := dmInfo2 }
    intEvent1 := intEvent1, intEvent2 := intEvent2, dmEvent1 := dmEvent1, dmEvent2 := dmEvent2 }
  let x : Sample := { info2, endBit, intEvent1, intEvent2, dmEvent1, dmEvent2 }
  mark (.sample (← Prog.get).state x)
  return x

def unblock : Prog Mmc Unit := Prog.modify fun s => { s with stateMachineBlocking := false }

/-- The end of a transfer of DMA channel 0 or 1: the event that it clears in SD_INFO2, and its
error bit. -/
def dmaTransferEnd (ready errorBit : UInt32) : Prog Mmc Unit := do
  setr32 .DM_CM_INFO1 0
  setr32 .DM_CM_INFO2 0
  setr32 .SD_INFO2 ((← getr32 .SD_INFO2) &&& ~~~ready)
  if errorBit &&& (← Prog.get).dmEvent2 ≠ 0 then
    Prog.modify fun s => { s with dmaErrorFlag := true }
  else
    Prog.modify fun s => { s with duringDmaTransfer := false, duringTransfer := false }
  unblock

def pioTransfer (ready : UInt32) : Prog Mmc Unit := do
  setr32 .SD_INFO2 ((← getr32 .SD_INFO2) &&& ~~~ready)
  let result ← emmcTransSector (← Prog.get).buffAddressVirtual
  Prog.modify fun s => { s with
    buffAddressVirtual := s.buffAddressVirtual + 4 * EMMC_BLOCK_LENGTH
    remainSize := s.remainSize - UInt32.ofNat EMMC_BLOCK_LENGTH }
  if result ≠ .EMMC_SUCCESS then
    emmcWriteErrorInfo EMMC_FUNCNO_NONE result
    setr32 .SD_INFO1_MASK 0
    setr32 .SD_INFO2_MASK SD_INFO2_CLEAR
    setr32 .SD_INFO1 0
    setr32 .SD_INFO2 SD_INFO2_CLEAR
    Prog.modify fun s => { s with forceTerminate := true }
  else
    Prog.modify fun s => { s with duringTransfer := false }
  unblock

def emmcInterrupt : Prog Mmc Unit := do
  let x ← takeSample
  if SD_INFO2_ALL_ERR &&& x.intEvent2 ≠ 0 then
    setr32 .SD_INFO1_MASK 0
    setr32 .SD_INFO2_MASK SD_INFO2_CLEAR
    setr32 .SD_INFO1 0
    setr32 .SD_INFO2 SD_INFO2_CLEAR
    unblock
  else if (SD_INFO2_BWE ||| SD_INFO2_BRE) &&& x.intEvent2 ≠ 0 then
    pioTransfer (if SD_INFO2_BWE &&& x.intEvent2 ≠ 0 then SD_INFO2_BWE else SD_INFO2_BRE)
  else if BIT16 &&& x.dmEvent1 ≠ 0 then
    dmaTransferEnd SD_INFO2_BWE BIT16
  else if x.endBit &&& x.dmEvent1 ≠ 0 then
    dmaTransferEnd SD_INFO2_BRE BIT17
  else if SD_INFO1_INFO0 &&& x.intEvent1 ≠ 0 then
    setr32 .SD_INFO1 ((← getr32 .SD_INFO1) &&& ~~~SD_INFO1_INFO0)
    unblock
  else if SD_INFO1_INFO2 &&& x.intEvent1 ≠ 0 then
    setr32 .SD_INFO1 ((← getr32 .SD_INFO1) &&& ~~~SD_INFO1_INFO2)
    unblock
  else
    return ()

/-! ## The execution of a command -/

/-- The wait for CMDSEQ = 0: `loop` rounds, and as many again for each `retry`. -/
def awaitCmdseq : ℕ → Prog Mmc Unit
  | 0 => return ()
  | n + 1 => do
    if (← getr32 .SD_INFO2) &&& SD_INFO2_CBSY = 0 then
      return ()
    awaitCmdseq n

def emmcSoftreset : Prog Mmc Unit := do
  Prog.modify fun s => { s with
    duringCmdProcessing := false, duringTransfer := false, duringDmaTransfer := false
    stateMachineBlocking := false, forceTerminate := false, dmaErrorFlag := false }
  if (← getr32 .SD_INFO2) &&& SD_INFO2_CBSY ≠ 0 then
    awaitCmdseq (10000 + 1000 * 10000)
  setr32 .SOFT_RST ((← getr32 .SOFT_RST) &&& ~~~SOFT_RST_SDRST)
  setr32 .SOFT_RST ((← getr32 .SOFT_RST) ||| SOFT_RST_SDRST)
  setr32 .SD_INFO1 0
  setr32 .SD_INFO2 SD_INFO2_CLEAR
  setr32 .SD_INFO1_MASK 0
  setr32 .SD_INFO2_MASK SD_INFO2_CLEAR

def emmcLittleToBig (p : ℕ) (value : UInt32) : Prog Mmc Unit :=
  storeBytes p [byte32 value 3, byte32 value 2, byte32 value 1, byte32 value 0]

def emmcReadResponse (response : ℕ) : Prog Mmc Unit := do
  if (← Prog.get).responseLength ≠ EMMC_MAX_RESPONSE_LENGTH then
    let v ← getr32 .SD_RSP10
    storeBytes response [byte32 v 0, byte32 v 1, byte32 v 2, byte32 v 3]
  else
    emmcLittleToBig response (((← getr32 .SD_RSP76) <<< 8) ||| ((← getr32 .SD_RSP54) >>> 24))
    emmcLittleToBig (response + 4) (((← getr32 .SD_RSP54) <<< 8) ||| ((← getr32 .SD_RSP32) >>> 24))
    emmcLittleToBig (response + 8) (((← getr32 .SD_RSP32) <<< 8) ||| ((← getr32 .SD_RSP10) >>> 24))
    emmcLittleToBig (response + 12) ((← getr32 .SD_RSP10) <<< 8)

def emmcResponseCheck (response : ℕ) (errorMask : UInt32) : Prog Mmc EmmcErrorCode := do
  let word := (← Prog.get).mem.le32 response
  match (← Prog.get).cmdInfo.cmd.responseType with
  | .NONE => return .EMMC_SUCCESS
  | .R1 | .R1b =>
    mark (.response word)
    Prog.modify fun s => { s with
      currentState := (word &&& EMMC_R1_STATE_MASK) >>> EMMC_R1_STATE_SHIFT }
    if word &&& errorMask ≠ 0 then
      return .EMMC_ERR_CARD_STATUS_BIT
    return .EMMC_SUCCESS
  | .R4 =>
    if word &&& EMMC_R4_STATUS ≠ 0 then
      return .EMMC_ERR_CARD_STATUS_BIT
    return .EMMC_SUCCESS
  | _ => return .EMMC_SUCCESS

def emmcDataTransferDma : Prog Mmc Unit := do
  Prog.modify fun s => { s with duringDmaTransfer := true, dmaErrorFlag := false }
  setr32 .SD_INFO1_MASK 0
  setr32 .SD_INFO2_MASK (SD_INFO2_ALL_ERR ||| SD_INFO2_CLEAR)
  let s ← Prog.get
  let (enable, channel) :=
    if s.cmdInfo.dir = .HAL_MEMCARD_WRITE then (DM_CM_INFO_CH0_ENABLE, DM_CM_DTRAN_MODE_CH0)
    else (DM_CM_INFO_CH1_ENABLE, DM_CM_DTRAN_MODE_CH1)
  setr32 .DM_CM_INFO1_MASK (DM_CM_INFO_MASK_CLEAR ||| enable)
  setr32 .DM_CM_INFO2_MASK (DM_CM_INFO_MASK_CLEAR ||| enable)
  setr32 .DM_CM_DTRAN_MODE (channel ||| DM_CM_DTRAN_MODE_BIT_WIDTH)
  setr32 .DM_DTRAN_ADDR (UInt32.ofNat s.buffAddressVirtual &&& DM_DTRAN_ADDR_WRITE_MASK)
  setr32 .DM_CM_DTRAN_CTRL DM_CM_DTRAN_CTRL_START

def setState (state : EmmcIntState) : Prog Mmc Unit := Prog.modify fun s => { s with state := state }

/-- `rtn_code = code; state = state;` -/
def fail (code : EmmcErrorCode) (state : EmmcIntState) : Prog Mmc Unit :=
  Prog.modify fun s => { s with rtnCode := code, state := state }

/-! The cases of the `switch`; a result is what the case returns from `emmc_exec_cmd`. -/

def estateIssueCmd : Prog Mmc (Option EmmcErrorCode) := do
  let s ← Prog.get
  setr32 .SD_ARG s.cmdInfo.arg
  setr32 .SD_CMD s.cmdInfo.hw
  Prog.modify fun s => { s with duringCmdProcessing := true, stateMachineBlocking := true }
  setState (if s.cmdInfo.cmd.responseType = .NONE then .ESTATE_NON_RESP_CMD else .ESTATE_RCV_RESP)
  return none

def estateBegin : Prog Mmc (Option EmmcErrorCode) := do
  if (← Prog.get).errorInfo.info2 &&& SD_INFO2_CBSY ≠ 0 then
    emmcWriteErrorInfo EMMC_FUNCNO_EXEC_CMD .EMMC_ERR_CARD_BUSY
    return some .EMMC_ERR_CARD_BUSY
  else
    setr32 .SD_INFO1 0
    setr32 .SD_INFO2 SD_INFO2_CLEAR
    setr32 .SD_INFO1_MASK SD_INFO1_INFO0
    setr32 .SD_INFO2_MASK (SD_INFO2_ALL_ERR ||| SD_INFO2_CLEAR)
    setState .ESTATE_ISSUE_CMD
    estateIssueCmd

def estateNonRespCmd : Prog Mmc (Option EmmcErrorCode) := do
  setr32 .SD_INFO1_MASK 0
  setr32 .SD_INFO2_MASK SD_INFO2_CLEAR
  let s ← Prog.get
  if s.intEvent2 &&& SD_INFO2_ALL_ERR ≠ 0 then
    fail .EMMC_ERR_INFO2 .ESTATE_ERROR
  else if s.intEvent1 &&& SD_INFO1_INFO0 = 0 then
    fail .EMMC_ERR_RESPONSE .ESTATE_ERROR
  else
    setState .ESTATE_END
  return none

def estateRcvResp (errorMask : UInt32) (response : ℕ) : Prog Mmc (Option EmmcErrorCode) := do
  setr32 .SD_INFO1_MASK 0
  setr32 .SD_INFO2_MASK SD_INFO2_CLEAR
  let s ← Prog.get
  if s.intEvent2 &&& SD_INFO2_ALL_ERR ≠ 0 then
    if s.getPartitionAccessFlag = true ∧ s.intEvent2 &&& SD_INFO2_ERR6 ≠ 0 then
      Prog.modify fun s => { s with errNotCareFlag := true }
      fail .EMMC_ERR_CMD_TIMEOUT .ESTATE_ERROR
      return none
    else
      fail .EMMC_ERR_INFO2 .ESTATE_ERROR
      return none
  else if s.intEvent1 &&& SD_INFO1_INFO0 = 0 then
    fail .EMMC_ERR_RESPONSE .ESTATE_ERROR
    return none
  else
    emmcReadResponse response
    let code ← emmcResponseCheck response errorMask
    Prog.modify fun s => { s with rtnCode := code }
    if code ≠ .EMMC_SUCCESS then
      setState .ESTATE_ERROR
      return none
    else if s.cmdInfo.cmd.responseType = .R1b then
      setr32 .SD_INFO2_MASK (SD_INFO2_ALL_ERR ||| SD_INFO2_CLEAR)
      setState .ESTATE_RCV_RESPONSE_BUSY
      return none
    else
      setState .ESTATE_CHECK_RESPONSE_COMPLETE
      return none

def estateRcvResponseBusy : Prog Mmc (Option EmmcErrorCode) := do
  let s ← Prog.get
  if s.intEvent2 &&& SD_INFO2_ALL_ERR ≠ 0 then
    fail .EMMC_ERR_INFO2 .ESTATE_ERROR
    return none
  else if SD_INFO2_DAT0 &&& s.errorInfo.info2 ≠ 0 then
    setState .ESTATE_CHECK_RESPONSE_COMPLETE
    return none
  else
    return none

def estateCheckResponseComplete : Prog Mmc (Option EmmcErrorCode) := do
  if (← Prog.get).cmdInfo.cmd.commandType.isData = true then
    setState .ESTATE_DATA_TRANSFER
    return none
  else
    setState .ESTATE_END
    return none

def estateDataTransfer : Prog Mmc (Option EmmcErrorCode) := do
  Prog.modify fun s => { s with duringTransfer := true, stateMachineBlocking := true }
  let s ← Prog.get
  if s.transferMode = .HAL_MEMCARD_DMA then
    emmcDataTransferDma
    setState .ESTATE_DATA_TRANSFER_COMPLETE
    return none
  else
    let ready := if s.cmdInfo.dir = .HAL_MEMCARD_WRITE then SD_INFO2_BWE else SD_INFO2_BRE
    setr32 .SD_INFO2_MASK (ready ||| SD_INFO2_ALL_ERR ||| SD_INFO2_CLEAR)
    setState .ESTATE_DATA_TRANSFER_COMPLETE
    return none

def estateDataTransferComplete : Prog Mmc (Option EmmcErrorCode) := do
  let s ← Prog.get
  if s.intEvent2 &&& SD_INFO2_ALL_ERR ≠ 0 then
    fail .EMMC_ERR_INFO2 .ESTATE_TRANSFER_ERROR
    return none
  else if s.dmaErrorFlag = true then
    fail .EMMC_ERR_FROM_DMAC_TRANSFER .ESTATE_TRANSFER_ERROR
    return none
  else if s.duringDmaTransfer = true then
    fail .EMMC_ERR .ESTATE_TRANSFER_ERROR
    return none
  else
    setr32 .SD_INFO1_MASK SD_INFO1_INFO2
    setr32 .SD_INFO2_MASK (SD_INFO2_ALL_ERR ||| SD_INFO2_CLEAR)
    Prog.modify fun s => { s with stateMachineBlocking := true }
    setState .ESTATE_ACCESS_END
    return none

/-- The part that ends the use of the DMA. -/
def endDma : Prog Mmc Unit := do
  if (← Prog.get).transferMode = .HAL_MEMCARD_DMA then
    setr32 .CC_EXT_MODE CC_EXT_MODE_CLEAR
    setr32 .SD_STOP 0
    Prog.modify fun s => { s with duringDmaTransfer := false }

def estateAccessEnd : Prog Mmc (Option EmmcErrorCode) := do
  endDma
  setr32 .SD_INFO1_MASK 0
  setr32 .SD_INFO2_MASK SD_INFO2_CLEAR
  setr32 .SD_INFO1 0
  setr32 .SD_INFO2 SD_INFO2_CLEAR
  if (← Prog.get).intEvent1 &&& SD_INFO1_INFO2 ≠ 0 then
    setState .ESTATE_END
    return none
  else
    setState .ESTATE_ERROR
    return none

def estateError : Prog Mmc (Option EmmcErrorCode) := do
  let s ← Prog.get
  if s.errNotCareFlag = true then
    Prog.modify fun s => { s with duringCmdProcessing := false }
    return some s.rtnCode
  else
    emmcSoftreset
    emmcWriteErrorInfo EMMC_FUNCNO_EXEC_CMD s.rtnCode
    return some s.rtnCode

def estateTransferError : Prog Mmc (Option EmmcErrorCode) := do
  endDma
  estateError

def stateMachine (errorMask : UInt32) (response : ℕ) : Prog Mmc (Option EmmcErrorCode) := do
  match (← Prog.get).state with
  | .ESTATE_BEGIN => estateBegin
  | .ESTATE_ISSUE_CMD => estateIssueCmd
  | .ESTATE_NON_RESP_CMD => estateNonRespCmd
  | .ESTATE_RCV_RESP => estateRcvResp errorMask response
  | .ESTATE_RCV_RESPONSE_BUSY => estateRcvResponseBusy
  | .ESTATE_CHECK_RESPONSE_COMPLETE => estateCheckResponseComplete
  | .ESTATE_DATA_TRANSFER => estateDataTransfer
  | .ESTATE_DATA_TRANSFER_COMPLETE => estateDataTransferComplete
  | .ESTATE_ACCESS_END => estateAccessEnd
  | .ESTATE_TRANSFER_ERROR => estateTransferError
  | .ESTATE_ERROR => estateError
  | .ESTATE_END =>
    setState .ESTATE_END
    return none

/-- One round of the loop. -/
def round (errorMask : UInt32) (response : ℕ) : Prog Mmc (Option EmmcErrorCode) := do
  emmcInterrupt
  if (← Prog.get).stateMachineBlocking = true then
    return none
  else
    stateMachine errorMask response

/-- What follows the loop. -/
def finish : Prog Mmc EmmcErrorCode := do
  if (← Prog.get).forceTerminate = true then
    Prog.modify fun s => { s with duringDmaTransfer := false }
    emmcSoftreset
    return .EMMC_ERR_FORCE_TERMINATE
  else
    Prog.modify fun s => { s with duringCmdProcessing := false, duringTransfer := false }
    return .EMMC_SUCCESS

/-- The condition of the loop. -/
def Mmc.running (s : Mmc) : Bool := !s.forceTerminate && decide (s.state ≠ .ESTATE_END)

/-- The loop, for at most `n` rounds. -/
def execLoop (errorMask : UInt32) (response : ℕ) : ℕ → Prog Mmc EmmcErrorCode
  | 0 => Prog.stuck
  | n + 1 => do
    if (← Prog.get).running = true then
      match ← round errorMask response with
      | some code => return code
      | none => execLoop errorMask response n
    else
      finish

/-- The locals before the loop. -/
def begin : Prog Mmc Unit :=
  Prog.modify fun s => { s with
    rtnCode := .EMMC_SUCCESS, errNotCareFlag := false, state := .ESTATE_BEGIN, events := [] }

def emmcExecCmd (errorMask : UInt32) (response : ℕ) (n : ℕ) : Prog Mmc EmmcErrorCode := do
  if response = 0 then
    emmcWriteErrorInfo EMMC_FUNCNO_EXEC_CMD .EMMC_ERR_PARAM
    return .EMMC_ERR_PARAM
  else if (← Prog.get).clockEnable = false then
    emmcWriteErrorInfo EMMC_FUNCNO_EXEC_CMD .EMMC_ERR_STATE
    return .EMMC_ERR_STATE
  else if (← Prog.get).stateMachineBlocking = true then
    emmcWriteErrorInfo EMMC_FUNCNO_EXEC_CMD .EMMC_ERR
    return .EMMC_ERR
  else
    begin
    execLoop errorMask response n

end RCar.Emmc
