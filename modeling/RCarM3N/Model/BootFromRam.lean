import RCarM3N.Lib.Copies
import RCarM3N.Model.AndroidImage
import RCarM3N.Model.FbZImage

/-! `do_boot_android_img_from_ram`: the kernel, the vendor ramdisk with the ramdisk behind it, and the device tree
are brought from the boot image and the vendor boot image, both in memory, to the addresses that the vendor's
header names. The headers are read again where the code reads them again. -/

namespace RCar.BootRam

open Fastboot (CStr ascii)
open Fastboot.ZImage (ALIGN ANDR_BOOT_MAGIC BOOT_IMAGE_HEADER_V3_PAGESIZE)
open AndroidImage (IH_MAGIC)

def VENDOR_BOOT_MAGIC : CStr := ascii "VNDRBOOT"
def VENDOR_BOOT_IMAGE_HEADER_V3_SIZE : UInt32 := 2112
def CONFIG_SYS_TEXT_BASE : UInt32 := 0x50000000
def KERNEL_UNPACKED_LIMIT : UInt32 := 0x1080000
def GZIP_MAGIC : ℕ := 0x8B1F
def LZ4_MAGIC : ℕ := 0x2204
def DT_TABLE_MAGIC : UInt32 := 0xd7b7ab1e
def CMD_RET_FAILURE : ℤ := 1

/-- `sizeof(struct dt_table_entry)` and `sizeof(struct bootreason_message)`. -/
def DT_TABLE_ENTRY_SIZE : UInt32 := 32
def BOOTREASON_MESSAGE_SIZE : ℕ := 132

/-! ## Copies -/

/-- `memcpy` of `lib/string.c`: words first where both addresses allow it, then single bytes. -/
def memcpy (m : Mem) (dest src count : ℕ) : Mem :=
  if src = dest then m
  else if dest % 8 = 0 ∧ src % 8 = 0 then
    (m.copyBlocks 8 dest src (count / 8)).copyBlocks 1 (dest + 8 * (count / 8)) (src + 8 * (count / 8)) (count % 8)
  else m.copyBlocks 1 dest src count

structure Copy where
  dst : ℕ
  src : ℕ
  len : ℕ

/-- No copy is made of what is in place. -/
def runCopy (c : Option Copy) (m : Mem) : Mem := c.elim m fun c => memcpy m c.dst c.src c.len

/-! ## The fields of the headers -/

section Fields

variable (m : Mem) (hdr vhdr : UInt64)

def kernelSize : UInt32 := m.le32 (hdr.toNat + 8)
def ramdiskSize : UInt32 := m.le32 (hdr.toNat + 12)
def headerVersion : UInt32 := m.le32 (hdr.toNat + 40)

def vendorHeaderVersion : UInt32 := m.le32 (vhdr.toNat + 8)
def pageSize : UInt32 := m.le32 (vhdr.toNat + 12)
def kernelAddr : UInt32 := m.le32 (vhdr.toNat + 16)
def ramdiskAddr : UInt32 := m.le32 (vhdr.toNat + 20)
def vendorRamdiskSize : UInt32 := m.le32 (vhdr.toNat + 24)
def dtbSize : UInt32 := m.le32 (vhdr.toNat + 2100)
def dtbAddr : ℕ := m.le64 (vhdr.toNat + 2104)

def be32 (a : ℕ) : UInt32 := swap32 (m.le32 a)

end Fields

/-- What is read for each of the copies, when it is made. -/
structure VendorFields where
  ramdiskAddr : UInt32
  pageSize : UInt32
  vendorRamdiskSize : UInt32
  deriving DecidableEq

structure RamdiskFields where
  ramdiskAddr : UInt32
  vendorRamdiskSize : UInt32
  ramdiskSize : UInt32
  deriving DecidableEq

structure TreeFields where
  dtbAddr : ℕ
  dtSize : UInt32
  dtOffset : UInt32
  deriving DecidableEq

structure Fields where
  vendor : VendorFields
  ramdisk : RamdiskFields
  tree : TreeFields

def vendorFields (m : Mem) (vhdr : UInt64) : VendorFields := ⟨ramdiskAddr m vhdr, pageSize m vhdr, vendorRamdiskSize m vhdr⟩

def ramdiskFields (m : Mem) (hdr vhdr : UInt64) : RamdiskFields :=
  ⟨ramdiskAddr m vhdr, vendorRamdiskSize m vhdr, ramdiskSize m hdr⟩

/-! ## The kernel -/

inductive Packing where
  | gzip
  | lz4

/-- `gunzip` and `ulz4fn`: from the source and its length to a destination and its room, the memory behind and the
size of what was unpacked. They write in the room alone, and unpack the source where it lies apart from the room. -/
structure Unpacker where
  unpack : Packing → Mem → (src len dst room : ℕ) → Option (Mem × ℕ)
  decode : Packing → List UInt8 → Option (List UInt8)
  size_le : ∀ {p m src len dst room m' n}, unpack p m src len dst room = some (m', n) → n ≤ room
  outside : ∀ {p m src len dst room m' n}, unpack p m src len dst room = some (m', n) →
    ∀ a, a < dst ∨ dst + room ≤ a → m' a = m a
  apart : ∀ {p m src len dst room m' n}, unpack p m src len dst room = some (m', n) →
    src + len ≤ dst ∨ dst + room ≤ src → decode p (m.read src len) = some (m'.read dst n)

def le16 (m : Mem) (a : ℕ) : ℕ := (m a).toNat + 256 * (m (a + 1)).toNat

/-- `is_zipped` and `is_lz4`. -/
def packing (m : Mem) (kernelOffset : UInt64) : Option Packing :=
  if le16 m kernelOffset.toNat = GZIP_MAGIC then some .gzip
  else if le16 m kernelOffset.toNat = LZ4_MAGIC then some .lz4
  else none

/-- What `android_image_get_kernel` finds: an image header of 64 bytes may stand in front of the kernel. -/
def kernelOffset (m : Mem) (hdr : UInt64) : UInt64 :=
  let ihdr := hdr + BOOT_IMAGE_HEADER_V3_PAGESIZE.toUInt64
  if be32 m ihdr.toNat = IH_MAGIC then ihdr + 64 else ihdr

def alignedKernelSize (m : Mem) (hdr : UInt64) : UInt32 := ALIGN (kernelSize m hdr) BOOT_IMAGE_HEADER_V3_PAGESIZE

def kernelSpace (m : Mem) (vhdr : UInt64) : UInt32 :=
  if kernelAddr m vhdr < ramdiskAddr m vhdr then ramdiskAddr m vhdr - kernelAddr m vhdr
  else if kernelAddr m vhdr < CONFIG_SYS_TEXT_BASE then CONFIG_SYS_TEXT_BASE - kernelAddr m vhdr
  else KERNEL_UNPACKED_LIMIT

/-- A kernel that is not packed is copied by whole pages. -/
def kernelCopy (m : Mem) (hdr vhdr : UInt64) : Copy :=
  ⟨(kernelAddr m vhdr).toNat, (kernelOffset m hdr).toNat, (alignedKernelSize m hdr).toNat⟩

def loadKernel (u : Unpacker) (m : Mem) (hdr vhdr : UInt64) : Option (Mem × ℕ) :=
  match packing m (kernelOffset m hdr) with
  | some p => u.unpack p m (kernelOffset m hdr).toNat (kernelSize m hdr).toNat (kernelAddr m vhdr).toNat
      (kernelSpace m vhdr).toNat
  | none =>
    let c := kernelCopy m hdr vhdr
    some (memcpy m c.dst c.src c.len, c.len)

/-! ## The ramdisks -/

/-- `ALIGN` of the header's size, which is an `int`, to the vendor's page size. -/
def alignedHeaderSize (pageSize : UInt32) : UInt64 :=
  (ALIGN VENDOR_BOOT_IMAGE_HEADER_V3_SIZE pageSize).toInt32.toInt64.toUInt64

def alignedVendorSize (f : VendorFields) : UInt32 := ALIGN f.vendorRamdiskSize f.pageSize

def vendorCopy (vhdr : UInt64) (f : VendorFields) : Option Copy :=
  let offset := vhdr + alignedHeaderSize f.pageSize
  if f.ramdiskAddr.toUInt64 ≠ offset then some ⟨f.ramdiskAddr.toNat, offset.toNat, (alignedVendorSize f).toNat⟩
  else none

/-- The source is where the kernel ends; the size of the vendor ramdisk in pages is the one of its own copy. -/
def ramdiskCopy (offset : UInt64) (vendorSize : UInt32) (f : RamdiskFields) : Option Copy :=
  if f.ramdiskAddr.toUInt64 + vendorSize.toUInt64 ≠ offset then
    some ⟨(f.ramdiskAddr + f.vendorRamdiskSize).toNat, offset.toNat,
      (ALIGN f.ramdiskSize BOOT_IMAGE_HEADER_V3_PAGESIZE).toNat⟩
  else none

/-! ## The device tree -/

def loadDtTableFromVendorbootimage (m : Mem) (vhdr : UInt64) : UInt64 :=
  if vhdr = 0 then 0
  else vhdr + alignedHeaderSize (pageSize m vhdr) + (ALIGN (vendorRamdiskSize m vhdr) (pageSize m vhdr)).toUInt64

def checkFdtHeader (m : Mem) (tbl : UInt64) : Bool :=
  tbl ≠ 0 && be32 m tbl.toNat = DT_TABLE_MAGIC && be32 m (tbl.toNat + 12) = DT_TABLE_ENTRY_SIZE

def dtEntry (m : Mem) (tbl : UInt64) (i : ℕ) : ℕ := (tbl + (be32 m (tbl.toNat + 20)).toUInt64).toNat + 32 * i

/-- The first entry of the platform; the number of entries is an `int`. -/
def getFdtByPlatId (m : Mem) (tbl : UInt64) (platId : ℕ) : Option ℕ :=
  if checkFdtHeader m tbl then
    ((List.range (be32 m (tbl.toNat + 16)).toInt32.toInt.toNat).find? fun i =>
      (be32 m (dtEntry m tbl i + 8)).toNat = platId).map (dtEntry m tbl)
  else none

def treeFields (m : Mem) (vhdr tbl : UInt64) (platId : ℕ) : Option TreeFields :=
  (getFdtByPlatId m tbl platId).map fun entry => ⟨dtbAddr m vhdr, be32 m entry, be32 m (entry + 4)⟩

def treeCopy (tbl : UInt64) (f : TreeFields) : Option Copy :=
  some ⟨f.dtbAddr, (tbl + f.dtOffset.toUInt64).toNat, f.dtSize.toNat⟩

/-- What is done to the tree at its place: the partitions and the overlays, where the partitions may fail, the seed,
and where the tree keeps the reason of the boot. -/
structure Libfdt where
  finish : Mem → ℕ → Option (List UInt8)
  fixupKaslr : Mem → ℕ → List UInt8
  bootreason : Mem → ℕ → Option ℕ

def put (m : Mem) (a : ℕ) (l : List UInt8) : Mem := m.copy a (Mem.ofList l) 0 l.length

/-- The clearing of the buffer that the reason was read from. -/
def clear (m : Mem) (buffer : Option ℕ) : Mem :=
  buffer.elim m fun a => put m a (List.replicate BOOTREASON_MESSAGE_SIZE 0)

/-! ## The boot -/

/-- `memory` says whether there is memory for the command line. -/
structure Board where
  unpacker : Unpacker
  fdt : Libfdt
  platId : ℕ
  memory : Bool

/-- What the kernel is started with; the fields are those that were read on the way, `base` is the memory when the
base tree had been copied. -/
structure Boot where
  mem : Mem
  kernelLen : ℕ
  fields : Fields
  base : Mem
  treeLen : ℕ
  seedAddr : ℕ
  buffer : Option ℕ

def checkHeaders (m : Mem) (hdr vhdr : UInt64) : Except ℤ Unit := do
  if m.read hdr.toNat 8 ≠ ANDR_BOOT_MAGIC then throw CMD_RET_FAILURE
  if headerVersion m hdr ≠ 3 then throw CMD_RET_FAILURE
  if m.read vhdr.toNat 8 ≠ VENDOR_BOOT_MAGIC then throw CMD_RET_FAILURE
  if vendorHeaderVersion m vhdr ≠ 3 then throw CMD_RET_FAILURE
  if kernelSize m hdr = 0 ∨ ramdiskSize m hdr = 0 ∨ vendorRamdiskSize m vhdr = 0 ∨ dtbSize m vhdr = 0 then
    throw CMD_RET_FAILURE

/-- `load_dt_with_overlays`, `fdt_fixup_kaslr` and `set_bootreason_args`: the tree's address is read for each. -/
def loadTree (b : Board) (m : Mem) (vhdr tbl : UInt64) (kernelLen : ℕ) (vendor : VendorFields)
    (ramdisk : RamdiskFields) : Option Boot := do
  let tree ← treeFields m vhdr tbl b.platId
  let base := runCopy (treeCopy tbl tree) m
  let finished ← b.fdt.finish base tree.dtbAddr
  let mem := put base tree.dtbAddr finished
  let seedAddr := dtbAddr mem vhdr
  let seeded := b.fdt.fixupKaslr mem seedAddr
  let mem := put mem seedAddr seeded
  -- the parameter for the address has 32 bits
  let buffer := b.fdt.bootreason mem (dtbAddr mem vhdr % 2 ^ 32)
  return ⟨clear mem buffer, kernelLen, ⟨vendor, ramdisk, tree⟩, base,
    max tree.dtSize.toNat (max finished.length seeded.length), seedAddr, buffer⟩

/-- A failed step ends the command with its error. -/
def orFail {α : Type} (error : ℤ) (step : Option α) : Except ℤ α := step.elim (.error error) .ok

@[simp] theorem orFail_none {α : Type} (error : ℤ) : orFail error (none : Option α) = .error error := rfl

@[simp] theorem orFail_some {α : Type} (error : ℤ) (a : α) : orFail error (some a) = .ok a := rfl

def doBootAndroidImgFromRam (b : Board) (m : Mem) (hdr vhdr : UInt64) : Except ℤ Boot := do
  let tbl := loadDtTableFromVendorbootimage m vhdr
  checkHeaders m hdr vhdr
  if !b.memory then throw CMD_RET_FAILURE
  let (mem, kernelLen) ← orFail CMD_RET_FAILURE (loadKernel b.unpacker m hdr vhdr)
  let vendor := vendorFields mem vhdr
  let mem := runCopy (vendorCopy vhdr vendor) mem
  let ramdisk := ramdiskFields mem hdr vhdr
  let offset := kernelOffset m hdr + (alignedKernelSize m hdr).toUInt64
  let mem := runCopy (ramdiskCopy offset (alignedVendorSize vendor) ramdisk) mem
  orFail (-1) (loadTree b mem vhdr tbl kernelLen vendor ramdisk)

end RCar.BootRam
