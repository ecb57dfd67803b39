import RCarM3N.Model.FbBlockWrite

/-! `flash:zimage`: the kernel of the boot image in the partition `boot` is replaced by the download. The header
and the ramdisk are kept behind the download, in the same buffer; every access may be short. -/

namespace RCar.Fastboot.ZImage

open BlockWrite (Disk)

def PAGE_SIZE : UInt32 := 4096
def BOOT_IMAGE_HEADER_V3_PAGESIZE : UInt32 := 4096
def ANDR_BOOT_MAGIC : CStr := ascii "ANDROID!"

/-- `sizeof(struct boot_img_hdr_v3)` and the fields that are used. -/
def BOOT_IMG_HDR_V3_SIZE : ℕ := 1580
def kernelSizeAt : ℕ := 8
def ramdiskSizeAt : ℕ := 12

def ALIGN (x a : UInt32) : UInt32 := (x + (a - 1)) &&& ~~~(a - 1)

def DIV_ROUND_UP (n d : UInt32) : UInt32 := (n + d - 1) / d

/-- One access, with the number of blocks that it was asked for and that it got done; addresses count from the
download buffer. -/
structure Access where
  write : Bool
  blk : ℕ
  asked : ℕ
  done : ℕ
  addr : ℕ

/-- The log is of the model. -/
structure State where
  disk : Disk
  mem : Mem
  response : CStr
  log : List Access

def fail (reason : String) : StateM State Unit := modify fun s => { s with response := fastbootFail (ascii reason) }

def blkDread (blk blkcnt addr : ℕ) : StateM State ℕ := fun s =>
  let r := s.disk.done blk blkcnt
  (r, { s with
    disk := { s.disk with pos := s.disk.pos + 1 }
    mem := s.mem.copy addr s.disk.mem (blk * BLKSZ) (r * BLKSZ)
    log := s.log ++ [⟨false, blk, blkcnt, r, addr⟩] })

def blkDwrite (blk blkcnt addr : ℕ) : StateM State ℕ := fun s =>
  let (r, disk) := s.disk.request BLKSZ blk blkcnt s.mem addr
  (r, { s with disk, log := s.log ++ [⟨true, blk, blkcnt, r, addr⟩] })

def getField (addr : ℕ) : StateM State UInt32 := fun s => (s.mem.le32 addr, s)

def setField (addr : ℕ) (x : UInt32) : StateM State Unit := modify fun s => { s with mem := s.mem.setLe32 addr x }

def androidImageCheckHeader (hdr : ℕ) : StateM State Bool := fun s => (s.mem.read hdr 8 = ANDR_BOOT_MAGIC, s)

def fbMmcGetBootHeader (info : PartInfo) (hdr : ℕ) : StateM State ℕ := do
  let hdrSectors := (BOOT_IMG_HDR_V3_SIZE + BLKSZ - 1) / BLKSZ
  if hdrSectors = 0 then
    fail "invalid number of boot sectors: 0"
    return 0
  if (← blkDread info.start hdrSectors hdr) ≠ hdrSectors then
    fail "cannot read header from boot partition"
    return 0
  if !(← androidImageCheckHeader hdr) then
    fail "boot partition not initialized"
    return 0
  return hdrSectors

def sectorsPerPage : UInt32 := BOOT_IMAGE_HEADER_V3_PAGESIZE / UInt32.ofNat BLKSZ

/-- The sectors of a section, which takes whole pages. -/
def sectors (size : UInt32) : UInt32 := DIV_ROUND_UP size BOOT_IMAGE_HEADER_V3_PAGESIZE * sectorsPerPage

def kernelSectorStart (info : PartInfo) : UInt32 := UInt32.ofNat (info.start + sectorsPerPage.toNat)

def ramdiskSectorStart (info : PartInfo) (kernelSize : UInt32) : UInt32 := kernelSectorStart info + sectors kernelSize

/-- The three writes: the header with the new size, the download, and the ramdisk behind it. -/
def writeBack (info : PartInfo) (downloadBytes : UInt32) (hdr hdrSectors ramdiskBuffer : ℕ) (ramdiskSectors : UInt32) :
    StateM State ℤ := do
  setField (hdr + kernelSizeAt) downloadBytes
  if (← blkDwrite info.start hdrSectors hdr) = 0 then
    fail "cannot write back boot image header"
    return -1
  let kernelSectors := sectors (← getField (hdr + kernelSizeAt))
  if (← blkDwrite (kernelSectorStart info).toNat kernelSectors.toNat 0) = 0 then
    fail "cannot write new kernel"
    return -1
  let ramdiskSector := ramdiskSectorStart info (← getField (hdr + kernelSizeAt))
  if (← blkDwrite ramdiskSector.toNat ramdiskSectors.toNat ramdiskBuffer) = 0 then
    fail "cannot write back original ramdisk"
    return -1
  modify fun s => { s with response := fastbootOkay }
  return 0

def fbMmcUpdateZimage (info : Option PartInfo) (downloadBytes : UInt32) : StateM State ℤ := do
  match info with
  | none =>
    fail "cannot find boot partition"
    return -1
  | some info =>
    let hdr := (ALIGN downloadBytes PAGE_SIZE).toNat
    let hdrSectors ← fbMmcGetBootHeader info hdr
    if hdrSectors = 0 then
      fail "unable to read boot image header"
      return -1
    let ramdiskSector := ramdiskSectorStart info (← getField (hdr + kernelSizeAt))
    let ramdiskSectors := sectors (← getField (hdr + ramdiskSizeAt))
    let ramdiskBuffer := hdr + hdrSectors * BLKSZ
    if (← blkDread ramdiskSector.toNat ramdiskSectors.toNat ramdiskBuffer) ≠ ramdiskSectors.toNat then
      fail "cannot read ramdisk from boot partition"
      return -1
    writeBack info downloadBytes hdr hdrSectors ramdiskBuffer ramdiskSectors

end RCar.Fastboot.ZImage
