import RCarM3N.Model.FbCommand

/-! What `image-android.c` takes from the headers of a boot image: where the kernel lies, and the kernel's command
line from the variable `bootargs` and the two headers. A write behind the new command line's buffer stops the
model. -/

namespace RCar.AndroidImage

open Fastboot (CStr cstrOf)

def ANDR_BOOT_ARGS_SIZE : ℕ := 512
def ANDR_BOOT_EXTRA_ARGS_SIZE : ℕ := 1024
def VENDOR_BOOT_ARGS_SIZE : ℕ := 2048
def BOOT_IMAGE_HEADER_V3_PAGESIZE : ℕ := 4096
def IH_MAGIC : UInt32 := 0x27051956
def ENOMEM : ℤ := 12

/-- A field for a command line, and what stands behind it up to the next end of a string. -/
structure Cmdline (size : ℕ) where
  field : List UInt8
  length_eq : field.length = size
  behind : CStr

/-- What the field holds. -/
def Cmdline.part {size : ℕ} (c : Cmdline size) : CStr := cstrOf c.field

/-- What is read as a string: a field that is full does not end it. -/
def Cmdline.text {size : ℕ} (c : Cmdline size) : CStr :=
  if 0 ∈ c.field then cstrOf c.field else c.field ++ c.behind

/-- The header of the boot image, with its address, and the words of an image header at the kernel. -/
structure BootImgHdr where
  addr : ℕ
  kernelSize : UInt32
  cmdline : Cmdline (ANDR_BOOT_ARGS_SIZE + ANDR_BOOT_EXTRA_ARGS_SIZE)
  ihMagic : UInt32
  ihSize : UInt32

structure VendorBootImgHdr where
  cmdline : Cmdline VENDOR_BOOT_ARGS_SIZE

/-! ## The command line -/

/-- A string in a buffer of a size. -/
structure Buffer where
  size : ℕ
  str : CStr

def strcat (b : Buffer) (s : CStr) : Option Buffer :=
  if (b.str ++ s).length + 1 ≤ b.size then some { b with str := b.str ++ s } else none

def strcpy (b : Buffer) (s : CStr) : Option Buffer :=
  if s.length + 1 ≤ b.size then some { b with str := s } else none

def vendorText (vhdr : Option VendorBootImgHdr) : CStr := vhdr.elim [] (·.cmdline.text)

def cmdlineLength (hdr : BootImgHdr) (vhdr : Option VendorBootImgHdr) (bootargs : Option CStr) : ℕ :=
  hdr.cmdline.text.length + (vendorText vhdr).length + (bootargs.elim 0 List.length)

/-- The text that is built in a buffer of the size that is asked for. -/
def newBootargs (hdr : BootImgHdr) (vhdr : Option VendorBootImgHdr) (bootargs : Option CStr) : Option CStr := do
  let mut newbootargs : Buffer := ⟨cmdlineLength hdr vhdr bootargs + 2, []⟩
  if let some old := bootargs then
    newbootargs ← strcpy newbootargs old
    newbootargs ← strcat newbootargs [32]
  if hdr.cmdline.text ≠ [] then
    newbootargs ← strcat newbootargs hdr.cmdline.text
    newbootargs ← strcat newbootargs [32]
  if vendorText vhdr ≠ [] then
    newbootargs ← strcat newbootargs (vendorText vhdr)
  return newbootargs.str

/-- An empty value deletes the variable. -/
def envSet (value : CStr) : Option CStr := if value = [] then none else some value

structure KernelInfo where
  ret : ℤ
  bootargs : Option CStr
  osData : ℕ
  osLen : UInt32

/-- The result, the variable and the kernel's place; `malloc` says which sizes can be allocated. -/
def androidImageGetKernel (malloc : ℕ → Bool) (hdr : BootImgHdr) (vhdr : Option VendorBootImgHdr)
    (bootargs : Option CStr) : Option KernelInfo :=
  if !malloc (cmdlineLength hdr vhdr bootargs + 2) then some ⟨-ENOMEM, bootargs, 0, 0⟩
  else do
    let value ← newBootargs hdr vhdr bootargs
    let ihdr := hdr.addr + BOOT_IMAGE_HEADER_V3_PAGESIZE
    -- the kernel may have an image header of 64 bytes of its own
    if hdr.ihMagic = IH_MAGIC then return ⟨0, envSet value, ihdr + 64, hdr.ihSize⟩
    else return ⟨0, envSet value, ihdr, hdr.kernelSize⟩

end RCar.AndroidImage
