import RCarM3N.Lib.Prog
import RCarM3N.Model.AbData

/-! A/B flow of U-Boot: the metadata in `misc`, its normalisation with the virtual A/B
message, the flow and the operations that mark slots. `loadMetadata` calls itself through the
message; the recursion is cut at a depth, and a cut run does not return. -/

namespace RCar.UBoot

/-- `AvbIOResult`. -/
inductive IoResult where
  | ok
  | errorOom
  | errorIo
  | errorNoSuchPartition
  | errorRangeOutsidePartition
  | errorNoSuchValue
  | errorInvalidValueSize
  | errorInsufficientSpace
deriving DecidableEq

/-- `AvbABFlowResult`. -/
inductive FlowResult where
  | ok
  | okWithVerificationError
  | errorOom
  | errorIo
  | errorNoBootableSlots
  | errorInvalidArgument
deriving DecidableEq

/-- `AvbSlotVerifyResult`. -/
inductive VerifyResult where
  | ok
  | errorOom
  | errorIo
  | errorVerification
  | errorRollbackIndex
  | errorPublicKeyRejected
  | errorInvalidMetadata
  | errorUnsupportedVersion
  | errorInvalidArgument
deriving DecidableEq

def AB_METADATA_MISC_PARTITION_OFFSET : ℕ := 2048
def SYSTEM_SPACE_OFFSET_IN_MISC : ℕ := 32 * 1024
def AVB_MAX_NUMBER_OF_ROLLBACK_INDEX_LOCATIONS : ℕ := 32

/-! ## Storage -/

/-- What becomes of an access: its result, and how many bytes it moved. A write that
succeeds is whole, a read may be short. -/
structure Access where
  ret : IoResult
  moved : ℕ

/-- What happened to the A/B area: a block read, or one of which bytes reached the storage. -/
inductive Event where
  | read (serialized : AvbABData)
  | write (serialized : AvbABData)

structure State where
  misc : Mem
  /-- the outcome of the `n`-th access -/
  io : ℕ → Access
  pos : ℕ
  rollback : ℕ → UInt64
  /-- the events so far, for the proofs to look at -/
  log : List Event

def access : Prog State Access := fun s => (some (s.io s.pos), { s with pos := s.pos + 1 })

def record (e : Event) : Prog State Unit := Prog.modify fun s => { s with log := s.log ++ [e] }

/-- Result, number of bytes read and buffer. -/
def readFromPartition (offset numBytes : ℕ) : Prog State (IoResult × ℕ × Mem) := do
  let a ← access
  let s ← Prog.get
  let n := min a.moved numBytes
  return (a.ret, n, Mem.copy (fun _ => 0) 0 s.misc offset n)

/-- Result and number of bytes that were stored. -/
def writeToPartition (offset numBytes : ℕ) (buffer : Mem) : Prog State (IoResult × ℕ) := do
  let a ← access
  let n := if a.ret = .ok then numBytes else min a.moved numBytes
  Prog.modify fun s => { s with misc := s.misc.copy offset buffer 0 n }
  return (a.ret, n)

/-- The allocation of the operations may fail. -/
def avbOpsAlloc : Prog State Bool := do
  return (← access).ret = .ok

/-! ## CRC -/

/-- Converts from host to big-endian byte order. -/
def avbHtobe32 (x : UInt32) : UInt32 := word32 (byte32 x 3) (byte32 x 2) (byte32 x 1) (byte32 x 0)

/-- Converts from big-endian to host byte order. -/
def avbBe32toh (x : UInt32) : UInt32 := word32 (byte32 x 3) (byte32 x 2) (byte32 x 1) (byte32 x 0)

def iavbCrc32Tab : List UInt32 := [
  0x00000000, 0x77073096, 0xee0e612c, 0x990951ba, 0x076dc419, 0x706af48f, 0xe963a535, 0x9e6495a3,
  0x0edb8832, 0x79dcb8a4, 0xe0d5e91e, 0x97d2d988, 0x09b64c2b, 0x7eb17cbd, 0xe7b82d07, 0x90bf1d91,
  0x1db71064, 0x6ab020f2, 0xf3b97148, 0x84be41de, 0x1adad47d, 0x6ddde4eb, 0xf4d4b551, 0x83d385c7,
  0x136c9856, 0x646ba8c0, 0xfd62f97a, 0x8a65c9ec, 0x14015c4f, 0x63066cd9, 0xfa0f3d63, 0x8d080df5,
  0x3b6e20c8, 0x4c69105e, 0xd56041e4, 0xa2677172, 0x3c03e4d1, 0x4b04d447, 0xd20d85fd, 0xa50ab56b,
  0x35b5a8fa, 0x42b2986c, 0xdbbbc9d6, 0xacbcf940, 0x32d86ce3, 0x45df5c75, 0xdcd60dcf, 0xabd13d59,
  0x26d930ac, 0x51de003a, 0xc8d75180, 0xbfd06116, 0x21b4f4b5, 0x56b3c423, 0xcfba9599, 0xb8bda50f,
  0x2802b89e, 0x5f058808, 0xc60cd9b2, 0xb10be924, 0x2f6f7c87, 0x58684c11, 0xc1611dab, 0xb6662d3d,
  0x76dc4190, 0x01db7106, 0x98d220bc, 0xefd5102a, 0x71b18589, 0x06b6b51f, 0x9fbfe4a5, 0xe8b8d433,
  0x7807c9a2, 0x0f00f934, 0x9609a88e, 0xe10e9818, 0x7f6a0dbb, 0x086d3d2d, 0x91646c97, 0xe6635c01,
  0x6b6b51f4, 0x1c6c6162, 0x856530d8, 0xf262004e, 0x6c0695ed, 0x1b01a57b, 0x8208f4c1, 0xf50fc457,
  0x65b0d9c6, 0x12b7e950, 0x8bbeb8ea, 0xfcb9887c, 0x62dd1ddf, 0x15da2d49, 0x8cd37cf3, 0xfbd44c65,
  0x4db26158, 0x3ab551ce, 0xa3bc0074, 0xd4bb30e2, 0x4adfa541, 0x3dd895d7, 0xa4d1c46d, 0xd3d6f4fb,
  0x4369e96a, 0x346ed9fc, 0xad678846, 0xda60b8d0, 0x44042d73, 0x33031de5, 0xaa0a4c5f, 0xdd0d7cc9,
  0x5005713c, 0x270241aa, 0xbe0b1010, 0xc90c2086, 0x5768b525, 0x206f85b3, 0xb966d409, 0xce61e49f,
  0x5edef90e, 0x29d9c998, 0xb0d09822, 0xc7d7a8b4, 0x59b33d17, 0x2eb40d81, 0xb7bd5c3b, 0xc0ba6cad,
  0xedb88320, 0x9abfb3b6, 0x03b6e20c, 0x74b1d29a, 0xead54739, 0x9dd277af, 0x04db2615, 0x73dc1683,
  0xe3630b12, 0x94643b84, 0x0d6d6a3e, 0x7a6a5aa8, 0xe40ecf0b, 0x9309ff9d, 0x0a00ae27, 0x7d079eb1,
  0xf00f9344, 0x8708a3d2, 0x1e01f268, 0x6906c2fe, 0xf762575d, 0x806567cb, 0x196c3671, 0x6e6b06e7,
  0xfed41b76, 0x89d32be0, 0x10da7a5a, 0x67dd4acc, 0xf9b9df6f, 0x8ebeeff9, 0x17b7be43, 0x60b08ed5,
  0xd6d6a3e8, 0xa1d1937e, 0x38d8c2c4, 0x4fdff252, 0xd1bb67f1, 0xa6bc5767, 0x3fb506dd, 0x48b2364b,
  0xd80d2bda, 0xaf0a1b4c, 0x36034af6, 0x41047a60, 0xdf60efc3, 0xa867df55, 0x316e8eef, 0x4669be79,
  0xcb61b38c, 0xbc66831a, 0x256fd2a0, 0x5268e236, 0xcc0c7795, 0xbb0b4703, 0x220216b9, 0x5505262f,
  0xc5ba3bbe, 0xb2bd0b28, 0x2bb45a92, 0x5cb36a04, 0xc2d7ffa7, 0xb5d0cf31, 0x2cd99e8b, 0x5bdeae1d,
  0x9b64c2b0, 0xec63f226, 0x756aa39c, 0x026d930a, 0x9c0906a9, 0xeb0e363f, 0x72076785, 0x05005713,
  0x95bf4a82, 0xe2b87a14, 0x7bb12bae, 0x0cb61b38, 0x92d28e9b, 0xe5d5be0d, 0x7cdcefb7, 0x0bdbdf21,
  0x86d3d2d4, 0xf1d4e242, 0x68ddb3f8, 0x1fda836e, 0x81be16cd, 0xf6b9265b, 0x6fb077e1, 0x18b74777,
  0x88085ae6, 0xff0f6a70, 0x66063bca, 0x11010b5c, 0x8f659eff, 0xf862ae69, 0x616bffd3, 0x166ccf45,
  0xa00ae278, 0xd70dd2ee, 0x4e048354, 0x3903b3c2, 0xa7672661, 0xd06016f7, 0x4969474d, 0x3e6e77db,
  0xaed16a4a, 0xd9d65adc, 0x40df0b66, 0x37d83bf0, 0xa9bcae53, 0xdebb9ec5, 0x47b2cf7f, 0x30b5ffe9,
  0xbdbdf21c, 0xcabac28a, 0x53b39330, 0x24b4a3a6, 0xbad03605, 0xcdd70693, 0x54de5729, 0x23d967bf,
  0xb3667a2e, 0xc4614ab8, 0x5d681b02, 0x2a6f2b94, 0xb40bbe37, 0xc30c8ea1, 0x5a05df1b, 0x2d02ef8d]

def iavbCrc32 (crcIn : UInt32) (buf : Mem) (size : ℕ) : UInt32 :=
  (buf.read 0 size).foldl (Crc.tableStep fun i => iavbCrc32Tab.getD i 0) (crcIn ^^^ ~~~0) ^^^ ~~~0

def avbCrc32 (buf : Mem) (size : ℕ) : UInt32 := iavbCrc32 0 buf size

/-! ## Metadata on disk -/

/-- The decoded block, if it is valid. -/
def avbAbDataVerifyAndByteswap (src : AvbABData) : Option AvbABData :=
  if src.magic ≠ AVB_AB_MAGIC then
    none
  else
    let dest := { src with crc32 := avbBe32toh src.crc32 }
    if AVB_AB_MAJOR_VERSION < dest.versionMajor then
      none
    else if dest.crc32 ≠ avbCrc32 dest.mem (AVB_AB_DATA_SIZE - 4) then
      none
    else
      some dest

def avbAbDataUpdateCrcAndByteswap (src : AvbABData) : AvbABData :=
  { src with crc32 := avbHtobe32 (avbCrc32 src.mem (AVB_AB_DATA_SIZE - 4)) }

def avbAbDataInit : AvbABData where
  magic := AVB_AB_MAGIC
  versionMajor := AVB_AB_MAJOR_VERSION
  versionMinor := AVB_AB_MINOR_VERSION
  reserved1 _ := 0
  slots := ![⟨AVB_AB_MAX_PRIORITY, AVB_AB_MAX_TRIES_REMAINING, 0, 0⟩,
    ⟨AVB_AB_MAX_PRIORITY - 1, AVB_AB_MAX_TRIES_REMAINING, 0, 0⟩]
  reserved2 _ := 0
  crc32 := 0

/-- What a local structure holds that is not looked at before it is filled. -/
def unused : AvbABData := avbAbDataInit

def avbAbDataWrite (data : AvbABData) : Prog State IoResult := do
  let serialized := avbAbDataUpdateCrcAndByteswap data
  let (ioRet, stored) ←
    writeToPartition AB_METADATA_MISC_PARTITION_OFFSET AVB_AB_DATA_SIZE serialized.mem
  if 0 < stored then
    record (.write serialized)
  if ioRet = .errorOom then
    return .errorOom
  else if ioRet ≠ .ok then
    return .errorIo
  else
    return .ok

/-- Result and block; the caller's structure `data` stays as it is when the read fails. -/
def avbAbDataRead (data : AvbABData) : Prog State (IoResult × AvbABData) := do
  let (ioRet, numBytesRead, buffer) ←
    readFromPartition AB_METADATA_MISC_PARTITION_OFFSET AVB_AB_DATA_SIZE
  if ioRet = .errorOom then
    return (.errorOom, data)
  else if ioRet ≠ .ok ∨ numBytesRead ≠ AVB_AB_DATA_SIZE then
    return (.errorIo, data)
  else
    let serialized := AvbABData.ofMem buffer 0
    record (.read serialized)
    match avbAbDataVerifyAndByteswap serialized with
    | some data => return (.ok, data)
    | none => return (← avbAbDataWrite avbAbDataInit, avbAbDataInit)

/-- Writes the metadata to disk only if it has changed. -/
def saveMetadataIfChanged (abData abDataOrig : AvbABData) : Prog State IoResult := do
  if abData ≠ abDataOrig then
    avbAbDataWrite abData
  else
    return .ok

/-- The slot to boot; `none` where the source reports that there is none. -/
def avbGetBootableSlot (abData : AvbABData) : Option Slot :=
  let a := abData.slots 0
  let b := abData.slots 1
  if a.isBootable && b.isBootable then
    if a.priority < b.priority then some 1 else some 0
  else if a.isBootable then
    some 0
  else if b.isBootable then
    some 1
  else
    none

/-! ## Virtual A/B message -/

/-- Whether it succeeded, number of bytes read and buffer. -/
def readFromPart (numBytes offset : ℕ) : Prog State (Bool × ℕ × Mem) := do
  if !(← avbOpsAlloc) then
    return (false, 0, fun _ => 0)
  let (ioRet, numBytesRead, buffer) ← readFromPartition offset numBytes
  return (ioRet = .ok, numBytesRead, buffer)

def writeToPart (numBytes offset : ℕ) (buffer : Mem) : Prog State Bool := do
  if !(← avbOpsAlloc) then
    return false
  let (ioRet, _) ← writeToPartition offset numBytes buffer
  return ioRet = .ok

def saveVirtualAbMsg (abMsg : MiscVirtABMsg) : Prog State Bool := do
  if !abMsg.isValid then
    return false
  writeToPart MiscVirtABMsg.SIZE SYSTEM_SPACE_OFFSET_IN_MISC abMsg.mem

section Recursion

/-! The functions from the message to `avb_ab_mark_slot_active`, over the `load_metadata` they
end in: result, metadata and the metadata as it was loaded. -/

variable (load : Prog State (IoResult × AvbABData × AvbABData))

def markActive (abData : AvbABData) (slot : Slot) : AvbABData :=
  let d := abData.setSlot slot
    { abData.slots slot with
      priority := AVB_AB_MAX_PRIORITY
      triesRemaining := AVB_AB_MAX_TRIES_REMAINING
      successfulBoot := 0 }
  let other := slot.other
  if (d.slots other).priority = AVB_AB_MAX_PRIORITY then
    d.setSlot other { d.slots other with priority := AVB_AB_MAX_PRIORITY - 1 }
  else
    d

def avbAbMarkSlotActiveWith (slotNumber : Slot) : Prog State IoResult := do
  let (ret, abData, abDataOrig) ← load
  if ret ≠ .ok then
    return ret
  saveMetadataIfChanged (markActive abData slotNumber) abDataOrig

def avbGetSlotIndexWith : Prog State UInt8 := do
  if !(← avbOpsAlloc) then
    -- the index -1 in a byte
    return 255
  let (ret, abData) ← avbAbDataRead unused
  if ret = .ok then
    if let some bootableSlot := avbGetBootableSlot abData then
      return UInt8.ofNat bootableSlot
  let _ ← avbAbMarkSlotActiveWith load 0
  return 0

def initVirtualAbMsgWith (abMsg : MiscVirtABMsg) : Prog State MiscVirtABMsg := do
  let sourceSlot ← avbGetSlotIndexWith load
  return { abMsg with
    magic := MISC_VIRTUAL_AB_MAGIC_HEADER
    version := MAX_VIRTUAL_AB_MESSAGE_VERSION
    mergeStatus := VIRTUAL_AB_NONE
    sourceSlot := sourceSlot }

/-- The message, if it could be loaded. -/
def loadVirtualAbMsgWith : Prog State (Option MiscVirtABMsg) := do
  let (ok, bytesRead, buffer) ← readFromPart MiscVirtABMsg.SIZE SYSTEM_SPACE_OFFSET_IN_MISC
  if !ok ∨ bytesRead ≠ MiscVirtABMsg.SIZE then
    return none
  let abMsg := MiscVirtABMsg.ofMem buffer 0
  if !abMsg.isValid then
    let abMsg ← initVirtualAbMsgWith load abMsg
    return if ← saveVirtualAbMsg abMsg then some abMsg else none
  return some abMsg

/-- What `slot_normalize` does to the slot itself. -/
def normalizeSlot (slot : AvbABSlotData) : AvbABSlotData :=
  if 0 < slot.priority then
    if slot.triesRemaining = 0 ∧ slot.successfulBoot = 0 then
      slot.setUnbootable
    else if 0 < slot.triesRemaining ∧ slot.successfulBoot ≠ 0 then
      slot.setUnbootable
    else
      slot
  else
    slot.setUnbootable

/-- Ensure all unbootable and illegal states are marked as the canonical unbootable state, and
cancel a virtual A/B update of a slot whose tries are used up. -/
def slotNormalizeWith (slot : AvbABSlotData) (slotIdx : Slot) : Prog State AvbABSlotData := do
  if slot.exhausted then
    match ← loadVirtualAbMsgWith load with
    | none => return slot.setUnbootable
    | some virtualAbMsg =>
      if virtualAbMsg.mergeStatus = VIRTUAL_AB_SNAPSHOTED ∧
          virtualAbMsg.sourceSlot.toNat ≠ slotIdx then
        let _ ← saveVirtualAbMsg { virtualAbMsg with mergeStatus := VIRTUAL_AB_CANCELLED }
      return slot.setUnbootable
  else
    return normalizeSlot slot

/-- The body of `load_metadata`; `abData` and `abDataOrig` are what the caller's structures
hold before the call. -/
def loadMetadataWith (abData abDataOrig : AvbABData) :
    Prog State (IoResult × AvbABData × AvbABData) := do
  let (ioRet, abData) ← avbAbDataRead abData
  if ioRet ≠ .ok then
    return (ioRet, abData, abDataOrig)
  let a ← slotNormalizeWith load (abData.slots 0) 0
  let b ← slotNormalizeWith load (abData.slots 1) 1
  return (.ok, (abData.setSlot 0 a).setSlot 1 b, abData)

end Recursion

/-- `load_metadata`, at most `depth` calls deep. -/
def loadMetadata : ℕ → AvbABData → AvbABData → Prog State (IoResult × AvbABData × AvbABData)
  | 0, _, _ => Prog.stuck
  | depth + 1, abData, abDataOrig =>
    loadMetadataWith (loadMetadata depth unused unused) abData abDataOrig

/-! ## Operations -/

section Operations

variable (depth : ℕ)

def avbAbMarkSlotActive (slotNumber : Slot) : Prog State IoResult :=
  avbAbMarkSlotActiveWith (loadMetadata depth unused unused) slotNumber

def avbAbMarkSlotUnbootable (slotNumber : Slot) : Prog State IoResult := do
  let (ret, abData, abDataOrig) ← loadMetadata depth unused unused
  if ret ≠ .ok then
    return ret
  saveMetadataIfChanged (abData.setSlot slotNumber (abData.slots slotNumber).setUnbootable) abDataOrig

def markSuccessful (abData : AvbABData) (slot : Slot) : AvbABData :=
  if (abData.slots slot).isBootable then
    abData.setSlot slot { abData.slots slot with triesRemaining := 0, successfulBoot := 1 }
  else
    abData

def avbAbMarkSlotSuccessful (slotNumber : Slot) : Prog State IoResult := do
  let (ret, abData, abDataOrig) ← loadMetadata depth unused unused
  if ret ≠ .ok then
    return ret
  saveMetadataIfChanged (markSuccessful abData slotNumber) abDataOrig

/-- Result and metadata, normalised in memory only. -/
def avbAbGetMetadata (abData : AvbABData) : Prog State (IoResult × AvbABData) := do
  let (ioRet, abData, _) ← loadMetadata depth abData unused
  return (ioRet, abData)

/-- `AvbSlotVerifyData`. -/
structure SlotVerifyData where
  abSuffix : String
  rollbackIndexes : ℕ → UInt64

/-- What `avb_slot_verify` answers for each slot, and the flag that allows errors. -/
structure Verifier where
  verify : Slot → VerifyResult × Option SlotVerifyData
  allowVerificationError : Bool

/-- How a verification ends for its slot: an error that ends the flow, or whether the slot is
set unbootable and whether an error was allowed. -/
def verifySlot (v : Verifier) (n : Slot) : Except FlowResult (Bool × Bool) :=
  match (v.verify n).1 with
  | .errorOom => .error .errorOom
  | .errorIo => .error .errorIo
  | .ok => .ok (false, false)
  | .errorInvalidMetadata | .errorUnsupportedVersion => .ok (true, false)
  | .errorVerification | .errorRollbackIndex | .errorPublicKeyRejected =>
    if v.allowVerificationError then .ok (false, true) else .ok (true, false)
  | .errorInvalidArgument => .error .errorInvalidArgument

/-- The local variables of the flow. -/
structure Locals where
  abData : AvbABData
  slotData : Slot → Option SlotVerifyData
  sawAndAllowedVerificationError : Bool

/-- Validates one slot if it is bootable; `some ret` is a jump to `out`. -/
def validateSlot (v : Verifier) (n : Slot) (l : Locals) : Option FlowResult × Locals :=
  if (l.abData.slots n).isBootable then
    let l := { l with slotData := Function.update l.slotData n (v.verify n).2 }
    match verifySlot v n with
    | .error ret => (some ret, l)
    | .ok (setSlotUnbootable, allowed) =>
      let l := { l with
        sawAndAllowedVerificationError := l.sawAndAllowedVerificationError || allowed }
      if setSlotUnbootable then
        (none, { l with abData := l.abData.setSlot n (l.abData.slots n).setUnbootable })
      else
        (none, l)
  else
    (none, l)

/-- The largest rollback index that all verified slots support. -/
def rollbackIndexValue (slotData : Slot → Option SlotVerifyData) (n : ℕ) : UInt64 :=
  match slotData 0, slotData 1 with
  | some a, some b =>
    if a.rollbackIndexes n < b.rollbackIndexes n then a.rollbackIndexes n else b.rollbackIndexes n
  | some a, none => a.rollbackIndexes n
  | none, some b => b.rollbackIndexes n
  | none, none => 0

def readRollbackIndex (n : ℕ) : Prog State (IoResult × UInt64) := do
  let a ← access
  let s ← Prog.get
  return (a.ret, s.rollback n)

def writeRollbackIndex (n : ℕ) (value : UInt64) : Prog State IoResult := do
  let a ← access
  if a.ret = .ok then
    Prog.modify fun s => { s with rollback := Function.update s.rollback n value }
  return a.ret

/-- `some ret` is a jump to `out`. -/
def ioError (ioRet : IoResult) : Option FlowResult :=
  if ioRet = .errorOom then some .errorOom else if ioRet ≠ .ok then some .errorIo else none

/-- The rollback loop over the locations of the list. -/
def updateRollback (slotData : Slot → Option SlotVerifyData) : List ℕ → Prog State (Option FlowResult)
  | [] => return none
  | n :: l => do
    let value := rollbackIndexValue slotData n
    if value ≠ 0 then
      let (ioRet, current) ← readRollbackIndex n
      if let some ret := ioError ioRet then
        return some ret
      if current ≠ value then
        let ioRet ← writeRollbackIndex n value
        if let some ret := ioError ioRet then
          return some ret
    updateRollback slotData l

/-- The label `out`. -/
def out (ret : FlowResult) (abData abDataOrig : AvbABData) (data : Option SlotVerifyData) :
    Prog State (FlowResult × Option SlotVerifyData) := do
  match ioError (← saveMetadataIfChanged abData abDataOrig) with
  | some ret => return (ret, none)
  | none => return (ret, data)

/-- The decrement of the tries, if it applies. -/
def decrementTries (abData : AvbABData) (slot : Slot) : AvbABData :=
  let s := abData.slots slot
  if s.successfulBoot = 0 ∧ 0 < s.triesRemaining then
    abData.setSlot slot { s with triesRemaining := s.triesRemaining - 1 }
  else
    abData

/-- What follows the validation of the slots. -/
def selectSlot (l : Locals) (abDataOrig : AvbABData) :
    Prog State (FlowResult × Option SlotVerifyData) := do
  match avbGetBootableSlot l.abData with
  | none => out .errorNoBootableSlots l.abData abDataOrig none
  | some slotIndexToBoot =>
    match ← updateRollback l.slotData (List.range AVB_MAX_NUMBER_OF_ROLLBACK_INDEX_LOCATIONS) with
    | some ret => out ret l.abData abDataOrig none
    | none =>
      let ret : FlowResult :=
        if l.sawAndAllowedVerificationError then .okWithVerificationError else .ok
      out ret (decrementTries l.abData slotIndexToBoot) abDataOrig (l.slotData slotIndexToBoot)

/-- `abData` and `abDataOrig` are what the two local structures hold on entry. -/
def avbAbFlow (v : Verifier) (abData abDataOrig : AvbABData) :
    Prog State (FlowResult × Option SlotVerifyData) := do
  let (ioRet, abData, abDataOrig) ← loadMetadata depth abData abDataOrig
  if let some ret := ioError ioRet then
    return ← out ret abData abDataOrig none
  let (exit, l) := validateSlot v 0 ⟨abData, fun _ => none, false⟩
  if let some ret := exit then
    return ← out ret l.abData abDataOrig none
  let (exit, l) := validateSlot v 1 l
  if let some ret := exit then
    return ← out ret l.abData abDataOrig none
  selectSlot l abDataOrig

end Operations

/-- `inc_metadata_tries_remaining` of the boot command, run before the flow. -/
def incMetadataTriesRemaining : Prog State IoResult := do
  let (ioRet, abData) ← avbAbDataRead unused
  if ioRet ≠ .ok then
    return ioRet
  let activeSlot : Slot := if (abData.slots 1).priority < (abData.slots 0).priority then 0 else 1
  let slot := abData.slots activeSlot
  if slot.successfulBoot = 0 ∧ slot.triesRemaining ≠ 0 ∧
      slot.triesRemaining < AVB_AB_MAX_TRIES_REMAINING then
    avbAbDataWrite (abData.setSlot activeSlot { slot with triesRemaining := slot.triesRemaining + 1 })
  else
    return .ok

end RCar.UBoot
