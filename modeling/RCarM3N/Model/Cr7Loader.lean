import RCarM3N.Lib.Sizes

/-! How the loader of the Cortex-R7 loads an image to the address that a certificate names: the size
and the address from the certificate, the check of the load area and the DMA transfer, on 32-bit
words that wrap around. -/

namespace RCar.Cr7

/-- What the build chooses: the chip E3, and Android on the main processor. -/
structure Config where
  lsiE3 : Bool
  android : Bool

def RTOS_MAX_SIZE : UInt32 := 0x01800000
def MAIN_LOADER_MAX_SIZE : UInt32 := 0x0002A800

def FLASH_BASE : UInt32 := 0x08000000
def FLASH_SIZE : UInt32 := 0x04000000

def SYSRAM_BASE : UInt32 := 0xE6300000
def SYSRAM_END (cfg : Config) : UInt32 := if cfg.lsiE3 then 0xE6320000 else 0xE6360000
def DRAM_BASE : UInt32 := 0x40000000
def DRAM_END : UInt32 := 0xC0000000

/-- The two images whose address and size come from a certificate. -/
inductive Image where
  | rtos
  | ca5xLoader

def Image.maxSize : Image → UInt32
  | .rtos => RTOS_MAX_SIZE
  | .ca5xLoader => MAIN_LOADER_MAX_SIZE

/-- `FLASH_RTOS_IMAGE_ADDR` and `FLASH_CA5X_IMAGE_ADDR`. -/
def Image.flashAddr (cfg : Config) : Image → UInt32
  | .rtos => FLASH_BASE + if cfg.android then 0x00780000 else 0x00740000
  | .ca5xLoader => FLASH_BASE + 0x00140000

structure AddressRange where
  topadd : UInt32
  endadd : UInt32

/-- `add_list`, at the type of range that `main` names for the image. -/
def addList (cfg : Config) : Image → AddressRange
  | .rtos => ⟨DRAM_BASE, DRAM_END⟩
  | .ca5xLoader => ⟨SYSRAM_BASE, SYSRAM_END cfg⟩

/-- `check_load_area`: false stands for the panic. -/
def checkLoadArea (cfg : Config) (dst src len : UInt32) (image : Image) : Bool :=
  if src < FLASH_BASE ∨ FLASH_BASE + FLASH_SIZE < src + len then false
  else if dst < (addList cfg image).topadd then false
  else if (addList cfg image).endadd < dst + len then false
  else true

/-! ## Certificate -/

def RCAR_CERT_MAGIC_NUM : UInt32 := 0xE291F358

/-- `get_info_from_cert`: the size and the address, from the words of the certificate. -/
def getInfoFromCert (magicNumber : UInt32) (cert : ℕ → UInt32) : UInt32 × UInt32 :=
  let certInfo1 := (cert 0xC >>> 21) &&& 0x3
  if magicNumber = RCAR_CERT_MAGIC_NUM then
    if certInfo1 = 2 then (cert 0x464 * 4, cert 0x254)
    else if certInfo1 = 1 then (cert 0x364 * 4, cert 0x1D4)
    else if certInfo1 = 0 then (cert 0x264 * 4, cert 0x154)
    else (0, 0)
  else (cert 0x264 * 4, cert 0x154)

/-! ## Transfer -/

def DMA_FRACTION_MASK : UInt32 := 0xFF
def DMA_SIZE_UNIT : UInt32 := 0x100
def RDMTCR_CNT_SHIFT : UInt32 := 6

/-- What is written to the channel: the addresses, and the number of units of 64 bytes. -/
structure Transfer where
  dst : UInt32
  src : UInt32
  count : UInt32

/-- The bytes that the transfer writes. -/
def Transfer.written (t : Transfer) : Set ℕ := Set.Ico t.dst.toNat (t.dst.toNat + 64 * t.count.toNat)

/-- `execDMA`, without a transfer where it panics. -/
def execDMA (dst src len : UInt32) : Option Transfer :=
  let dmalen := if len &&& DMA_FRACTION_MASK ≠ 0 then (len + DMA_SIZE_UNIT) &&& ~~~DMA_FRACTION_MASK else len
  if src &&& DMA_FRACTION_MASK ≠ 0 then none
  else if dst &&& DMA_FRACTION_MASK ≠ 0 then none
  else some ⟨dst, src, dmalen >>> RDMTCR_CNT_SHIFT⟩

/-- The part of `tcm_loader_main` that loads an image. -/
def loadImage (cfg : Config) (magicNumber : UInt32) (image : Image) (cert : ℕ → UInt32) : Option Transfer :=
  let (size, loadAddr) := getInfoFromCert magicNumber cert
  if size = 0 then none
  else if size > image.maxSize then none
  else if checkLoadArea cfg loadAddr (image.flashAddr cfg) size image then
    execDMA loadAddr (image.flashAddr cfg) size
  else none

end RCar.Cr7
