import RCarM3N.Model.Emmc

/-! Partition lookup in BL2: the GPT header, the entry scan block by block, and the entry
parser. An access outside the 512-byte block buffer or the 128-byte entry buffer does not
return, and neither does a scan that never advances. -/

namespace RCar

/-- `!strncmp(a, b, n)`. -/
def strncmpEq : ℕ → Mem → Mem → Bool
  | 0, _, _ => true
  | n + 1, a, b => a 0 = b 0 && (a 0 = 0 || strncmpEq n (fun i => a (i + 1)) fun i => b (i + 1))

/-- The bytes of a NUL-terminated string. -/
def cstring (s : String) : Mem := fun i => ((s.toList.map fun c => c.toNat.toUInt8).getD i 0)

namespace Bl2

def PLAT_PARTITION_MAX_ENTRIES : ℕ := 128
def PLAT_PARTITION_BLOCK_SIZE : ℕ := 512
def EFI_NAMELEN : ℕ := 36
def GPT_ENTRY_SIZE : ℕ := 128

/-- `addr_to_blk`. -/
def addrToBlk (addr : ℕ) : ℕ := addr / 512

def GPT_HEADER_BLK_OFFSET : ℕ := addrToBlk 512
def GPT_BLOCK_ENTRY_OFFSET : ℕ := addrToBlk 1024

/-- The fields of `gpt_header_t` that are used. -/
structure GptHeader where
  listNum : ℕ
  partSize : ℕ
deriving DecidableEq

structure PartitionEntry where
  start : ℕ
  length : ℕ
  name : List UInt8
deriving DecidableEq

/-- A byte of an object of `size` bytes at `m`. -/
def byteOf {σ : Type} (m : Mem) (size a : ℕ) : Prog σ UInt8 :=
  if a < size then pure (m a) else Prog.stuck

def loadGptHeader (partition : ℕ) : Prog State (Option GptHeader) := do
  if !(← emmcSelectPartition partition) then
    return none
  let (ok, buf) ← emmcReadSector (fun _ => 0) GPT_HEADER_BLK_OFFSET (addrToBlk PLAT_PARTITION_BLOCK_SIZE)
  if !ok then
    return none
  -- `sizeof(GPT_SIGNATURE)` counts the terminating NUL: nine bytes are compared
  if buf.read 0 9 ≠ (cstring "EFI PART").read 0 9 then
    return none
  return some ⟨(buf.le32 80).toNat, (buf.le32 84).toNat⟩

section Entry

variable {σ : Type} (byte : ℕ → Prog σ UInt8)

/-- The high bytes of the UTF-16 name are all zero. -/
def highBytesZero : List ℕ → Prog σ Bool
  | [] => return true
  | i :: l => do
    if (← byte i) ≠ 0 then
      return false
    highBytesZero l

/-- The low bytes of the UTF-16 name up to its NUL. -/
def lowBytes : List ℕ → Prog σ (List UInt8)
  | [] => return []
  | i :: l => do
    let c ← byte i
    if c = 0 then
      return []
    return c :: (← lowBytes l)

def unicodeToAscii : Prog σ (Option (List UInt8)) := do
  if !(← highBytesZero byte ((List.range EFI_NAMELEN).map fun i => 2 * i + 1)) then
    return none
  return some (← lowBytes byte ((List.range EFI_NAMELEN).map fun i => 2 * i))

def bytesOf : List ℕ → Prog σ (List UInt8)
  | [] => return []
  | i :: l => do
    let c ← byte i
    return c :: (← bytesOf l)

def le64Of (off : ℕ) : Prog σ ℕ := do
  return (Mem.ofList (← bytesOf byte ((List.range 8).map fun i => off + i))).le64 0

/-- `byte i` is byte `i` of the entry. The asserts of the source are off in release builds. -/
def parseGptEntry : Prog σ (Option PartitionEntry) := do
  let firstLba ← le64Of byte 32
  let lastLba ← le64Of byte 40
  if firstLba = 0 ∧ lastLba = 0 then
    return none
  match ← unicodeToAscii fun i => byte (56 + i) with
  | none => return none
  | some name =>
    return some
      { start := firstLba * PLAT_PARTITION_BLOCK_SIZE % 2 ^ 64
        length := (lastLba + 2 ^ 64 - firstLba + 1) * PLAT_PARTITION_BLOCK_SIZE % 2 ^ 64
        name := name }

def isFind (name : String) : Prog σ (Option PartitionEntry) := do
  match ← parseGptEntry byte with
  | none => return none
  | some e => return if strncmpEq name.length (cstring name) (Mem.ofList e.name) then some e else none

end Entry

/-- The entries that lie whole in the block, from byte `ptr` on: the entry found, or where
the scan of the block stopped. With entry size 0 the scan does not advance. -/
def scanBlock {σ : Type} (buf : Mem) (entrySize : ℕ) (name : String) (ptr : ℕ) :
    Prog σ (Sum PartitionEntry ℕ) :=
  if ptr + entrySize ≤ 512 then do
    match ← isFind (fun i => byteOf buf 512 (ptr + i)) name with
    | some e => return .inl e
    | none =>
      if entrySize = 0 then
        Prog.stuck
      else
        scanBlock buf entrySize name (ptr + entrySize)
  else
    return .inr ptr
termination_by 513 - ptr

/-- `memcpy` between two objects of known sizes. -/
def memcpyIn {σ : Type} (dst : Mem) (dsize d : ℕ) (src : Mem) (ssize s n : ℕ) : Prog σ Mem :=
  if d + n ≤ dsize ∧ s + n ≤ ssize then pure (dst.copy d src s n) else Prog.stuck

/-- The entry that began in the block before: its last `offset` bytes are copied to `elem`. -/
def scanSplit (buf : Mem) (entrySize : ℕ) (name : String) (offset : ℕ) (elem : Mem) :
    Prog State (Sum PartitionEntry Mem) :=
  if offset = 0 then
    return .inr elem
  else do
    let elem ← memcpyIn elem GPT_ENTRY_SIZE (entrySize - offset) buf 512 0 offset
    match ← isFind (byteOf elem GPT_ENTRY_SIZE) name with
    | some e => return .inl e
    | none => return .inr elem

/-- The block loop of `get_part_info`: `offset` bytes of the block belong to the entry whose
first bytes are in `elem`. -/
def scanBlocks (entrySize : ℕ) (name : String) :
    ℕ → ℕ → ℕ → Mem → Prog State (Option PartitionEntry)
  | 0, _, _, _ => return none
  | k + 1, i, offset, elem => do
    let (ok, buf) ← emmcReadSector (fun _ => 0) (GPT_BLOCK_ENTRY_OFFSET + i) 1
    if !ok then
      return none
    match ← scanSplit buf entrySize name offset elem with
    | .inl e => return some e
    | .inr elem =>
      match ← scanBlock buf entrySize name offset with
      | .inl e => return some e
      | .inr ptr =>
        if ptr = 512 then
          scanBlocks entrySize name k (i + 1) 0 elem
        else if ptr < 512 then
          let elem ← memcpyIn elem GPT_ENTRY_SIZE 0 buf 512 ptr (512 - ptr)
          scanBlocks entrySize name k (i + 1) (ptr + entrySize - 512) elem
        else
          -- a pointer past the block makes the length `512 - ptr` wrap around
          Prog.stuck

def getPartInfo (partition : ℕ) (header : GptHeader) (name : String) :
    Prog State (Option PartitionEntry) := do
  let entrySize := header.partSize
  let numOfEntries := min header.listNum PLAT_PARTITION_MAX_ENTRIES
  let gptTableSize := entrySize * numOfEntries % 2 ^ 32
  let readBlocks := addrToBlk ((gptTableSize + EMMC_SECTOR_SIZE - 1) % 2 ^ 32)
  if !(← emmcSelectPartition partition) then
    return none
  scanBlocks entrySize name readBlocks 0 0 fun _ => 0

end Bl2

end RCar
