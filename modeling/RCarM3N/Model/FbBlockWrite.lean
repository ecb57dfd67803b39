import RCarM3N.Model.FbStorage

/-! Writing and erasing in chunks, as `fb_mmc.c` does it: the position on the device goes by what the device
reports, the position in the buffer by what was asked for. -/

namespace RCar.Fastboot.BlockWrite

/-- A block device: its bytes, its size in blocks, and how many blocks each request gets done; a device has
no blocks beyond its end. -/
structure Disk where
  mem : Mem
  lba : UInt64
  erased : UInt8
  io : ℕ → ℕ
  pos : ℕ

variable (blksz : ℕ)

/-- The number of blocks that a request gets done. -/
def Disk.done (disk : Disk) (blk blkcnt : ℕ) : ℕ := min (min (disk.io disk.pos) blkcnt) (disk.lba.toNat - blk)

/-- `blk_dwrite` and `blk_derase`: the blocks come from a place in the source. -/
def Disk.request (disk : Disk) (blk blkcnt : ℕ) (data : Mem) (src : ℕ) : ℕ × Disk :=
  let r := disk.done blk blkcnt
  (r, { disk with mem := disk.mem.copy (blk * blksz) data src (r * blksz), pos := disk.pos + 1 })

/-! ## The loop -/

def INT_MIN : ℤ := -2 ^ 31

/-- The conversion to `int`. -/
def toInt (n : UInt64) : ℤ := Int.bmod n.toNat (2 ^ 32)

/-- The number of blocks in the next request; the difference must be an `int`. -/
def curBlkcnt (blkcnt : UInt64) (i : ℕ) : Option ℕ :=
  let left := toInt blkcnt - i
  if left < INT_MIN then none else some (UInt64.ofInt (min left FASTBOOT_MAX_BLK_WRITE)).toNat

/-- The iterations from `i` on, over the number of them that are left until `i` passes the largest `int`:
nothing is said about what the code does then. -/
def blkWriteLoop (blkcnt : UInt64) (data : Mem) : ℕ → ℕ → ℕ → ℕ → Disk → Option (ℕ × Disk)
  | 0, _, _, _, _ => none
  | n + 1, i, blk, blks, disk =>
    if i < blkcnt.toNat then
      (curBlkcnt blkcnt i).bind fun cur =>
        let (r, disk) := disk.request blksz blk cur data (i * blksz)
        blkWriteLoop blkcnt data n (i + FASTBOOT_MAX_BLK_WRITE) (blk + r) (blks + r) disk
    else some (blks, disk)

/-- What the blocks are to hold: the buffer, or erased bytes where there is none. -/
def Disk.data (disk : Disk) (buffer : Option Mem) : Mem := buffer.getD fun _ => disk.erased

def fbMmcBlkWrite (start blkcnt : UInt64) (buffer : Option Mem) (disk : Disk) : Option (ℕ × Disk) :=
  blkWriteLoop blksz blkcnt (disk.data buffer) (2 ^ 31 / FASTBOOT_MAX_BLK_WRITE) 0 start.toNat 0 disk

/-! ## Raw images -/

/-- The blocks of a download, for a block size that is a power of two. -/
def imageBlocks (blksz : UInt64) (downloadBytes : UInt32) : UInt64 :=
  ((downloadBytes.toUInt64 + (blksz - 1)) &&& ~~~(blksz - 1)) / blksz

/-- Where a partition lies, in blocks of its size. -/
structure Partition where
  start : UInt64
  size : UInt64
  blksz : UInt64

def writeRawImage (info : Partition) (buffer : Mem) (downloadBytes : UInt32) (disk : Disk) : Option (CStr × Disk) :=
  let blkcnt := imageBlocks info.blksz downloadBytes
  if blkcnt > info.size then some (fastbootFail (ascii "too large for partition"), disk)
  else
    match fbMmcBlkWrite info.blksz.toNat info.start blkcnt (some buffer) disk with
    | none => none
    | some (blks, disk) =>
      if blks ≠ blkcnt.toNat then some (fastbootFail (ascii "failed writing to device"), disk)
      else some (fastbootOkay, disk)

end RCar.Fastboot.BlockWrite
