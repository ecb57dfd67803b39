import RCarM3N.Lib.Prog
import RCarM3N.Model.UBootAb

/-! Byte-granular partition I/O of U-Boot, `avb_verify.c` over the block layer of the eMMC. A
request of the block layer moves its blocks in order; where it stops before the last one it
returns zero. The loop of `mmc_byte_io` is cut at a number of passes, and a cut run does not
return. -/

namespace RCar.AvbIo

open RCar.UBoot (IoResult)

/-- `enum mmc_io_type`. -/
inductive MmcIoType where
  | IO_READ
  | IO_WRITE
deriving DecidableEq

/-- The part of `struct mmc_part` that the I/O reads: first block, number and size of blocks. -/
structure MmcPart where
  start : UInt64
  size : UInt64
  blksz : UInt64

/-- A request of the block layer. -/
structure Request where
  ioType : MmcIoType
  start : UInt64
  count : UInt64

structure State where
  mem : Mem
  /-- the bytes of the device -/
  disk : Mem
  /-- what `get_partition` finds under a name -/
  partitions : String → Option MmcPart
  /-- how many blocks the `n`-th request can move before it stops -/
  moved : ℕ → ℕ
  pos : ℕ
  /-- the requests so far, the last one first, for the proofs to look at -/
  log : List Request

def CONFIG_LIBAVB_BUF_ADDR : ℕ := 0x4B000000
def CONFIG_LIBAVB_BUF_SIZE : UInt64 := 0x1000000
def ALLOWED_BUF_ALIGN : ℕ := 8

def calcPartitionSize (part : MmcPart) : UInt64 := part.size * part.blksz

def calcOffset (part : MmcPart) (offset : Int64) : Int64 :=
  if offset < 0 then (calcPartitionSize part + offset.toUInt64).toInt64 else offset

def isBufUnaligned (buffer : ℕ) : Bool := buffer % ALLOWED_BUF_ALIGN ≠ 0

def memcpy (dst src : ℕ) (n : UInt64) : Prog State Unit :=
  Prog.modify fun s => { s with mem := s.mem.copy dst s.mem src n.toNat }

/-! ## The block layer -/

def blkDread (part : MmcPart) (start count : UInt64) (dst : ℕ) : Prog State UInt64 := do
  let s ← Prog.get
  let n := min (s.moved s.pos) count.toNat
  Prog.modify fun s => { s with
    mem := s.mem.copy dst s.disk (start.toNat * part.blksz.toNat) (n * part.blksz.toNat)
    pos := s.pos + 1
    log := ⟨.IO_READ, start, count⟩ :: s.log }
  return if n = count.toNat then count else 0

def blkDwrite (part : MmcPart) (start count : UInt64) (src : ℕ) : Prog State UInt64 := do
  let s ← Prog.get
  let n := min (s.moved s.pos) count.toNat
  Prog.modify fun s => { s with
    disk := s.disk.copy (start.toNat * part.blksz.toNat) s.mem src (n * part.blksz.toNat)
    pos := s.pos + 1
    log := ⟨.IO_WRITE, start, count⟩ :: s.log }
  return if n = count.toNat then count else 0

/-- The clamp that reads and writes share. The sums and the difference are of 64-bit words. -/
def clampSectors (part : MmcPart) (start sectors : UInt64) : UInt64 :=
  if start + sectors > part.start + part.size then part.start + part.size - start else sectors

def clampToBuffer (part : MmcPart) (sectors : UInt64) : UInt64 :=
  if sectors > CONFIG_LIBAVB_BUF_SIZE / part.blksz then CONFIG_LIBAVB_BUF_SIZE / part.blksz
  else sectors

def mmcReadAndFlush (part : MmcPart) (start sectors : UInt64) (buffer : ℕ) : Prog State UInt64 := do
  if start < part.start then return 0
  let sectors := clampSectors part start sectors
  if isBufUnaligned buffer then
    let sectors := clampToBuffer part sectors
    let blks ← blkDread part start sectors CONFIG_LIBAVB_BUF_ADDR
    memcpy buffer CONFIG_LIBAVB_BUF_ADDR (sectors * part.blksz)
    return blks
  else
    blkDread part start sectors buffer

def mmcWrite (part : MmcPart) (start sectors : UInt64) (buffer : ℕ) : Prog State UInt64 := do
  if start < part.start then return 0
  let sectors := clampSectors part start sectors
  if isBufUnaligned buffer then
    let sectors := clampToBuffer part sectors
    memcpy CONFIG_LIBAVB_BUF_ADDR buffer (sectors * part.blksz)
    blkDwrite part start sectors CONFIG_LIBAVB_BUF_ADDR
  else
    blkDwrite part start sectors buffer

/-! ## Bytes -/

/-- The part of a block that a pass over an unaligned head or tail covers. -/
def residueOf (part : MmcPart) (startOffset numBytes : UInt64) : UInt64 :=
  if startOffset % part.blksz ≠ 0 then
    let residue := part.blksz - startOffset % part.blksz
    if residue > numBytes then numBytes else residue
  else numBytes

/-- One pass of the loop: how many bytes it has moved, unless it fails. -/
def ioPass (part : MmcPart) (ioType : MmcIoType) (startOffset numBytes : UInt64) (buffer : ℕ) :
    Prog State (Option UInt64) := do
  let startSector := startOffset / part.blksz
  let sectors := numBytes / part.blksz
  if startOffset % part.blksz ≠ 0 ∨ numBytes < part.blksz then
    let tmpBuf := CONFIG_LIBAVB_BUF_ADDR
    let within := (startOffset % part.blksz).toNat
    let residue := residueOf part startOffset numBytes
    let ret ← mmcReadAndFlush part (part.start + startSector) 1 tmpBuf
    if ret ≠ 1 then return none
    match ioType with
    | .IO_READ =>
      memcpy buffer (tmpBuf + within) residue
      return some residue
    | .IO_WRITE =>
      memcpy (tmpBuf + within) buffer residue
      let ret ← mmcWrite part (part.start + startSector) 1 tmpBuf
      if ret ≠ 1 then return none
      return some residue
  else if sectors ≠ 0 then
    let ret ← match ioType with
      | .IO_READ => mmcReadAndFlush part (part.start + startSector) sectors buffer
      | .IO_WRITE => mmcWrite part (part.start + startSector) sectors buffer
    if ret = 0 then return none
    return some (ret * part.blksz)
  else return some 0

/-- The loop, with the number of passes it may make. -/
def byteIoLoop (part : MmcPart) (ioType : MmcIoType) :
    ℕ → UInt64 → UInt64 → ℕ → UInt64 → Prog State (IoResult × UInt64)
  | 0, _, _, _, _ => Prog.stuck
  | passes + 1, startOffset, numBytes, buffer, ioCnt => do
    if numBytes = 0 then return (.ok, ioCnt)
    match ← ioPass part ioType startOffset numBytes buffer with
    | none => return (.errorIo, ioCnt)
    | some k =>
      byteIoLoop part ioType passes (startOffset + k) (numBytes - k) (buffer + k.toNat) (ioCnt + k)

/-- The result and the count it reports. The two pointers may be NULL. -/
def mmcByteIo (passes : ℕ) (partition : Option String) (offset : Int64) (numBytes : UInt64)
    (buffer : Option ℕ) (ioType : MmcIoType) : Prog State (IoResult × UInt64) := do
  match partition, buffer with
  | some partition, some buffer =>
    let s ← Prog.get
    match s.partitions partition with
    | none => return (.errorNoSuchPartition, 0)
    | some part =>
      if part.blksz = 0 then return (.errorIo, 0)
      let startOffset := calcOffset part offset
      if startOffset < 0 then return (.errorRangeOutsidePartition, 0)
      byteIoLoop part ioType passes startOffset.toUInt64 numBytes buffer 0
  | _, _ => return (.errorIo, 0)

end RCar.AvbIo
