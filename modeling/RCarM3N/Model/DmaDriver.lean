import RCarM3N.Model.IoDrv

/-! The DMA driver of BL2, `dma_driver.c`, down to the registers that start a transfer, and the read
of `io_memdrv.c` on top of it. -/

namespace RCar.Bl2

def DMATCR_CNT_SHIFT : ℕ := 6
def DMATCR_MAX : ℕ := 0x00FFFFFF

/-- What the registers of the channel hold when a transfer is started. -/
structure Transfer where
  fixdar : ℕ
  dar : ℕ
  sar : ℕ
  tcr : ℕ
deriving DecidableEq

/-- The destination, with its fixed upper address. -/
def Transfer.dst (t : Transfer) : ℕ := t.fixdar * 2 ^ 32 + t.dar

/-- The channel counts units of 64 bytes. -/
def Transfer.bytes (t : Transfer) : ℕ := t.tcr * 2 ^ DMATCR_CNT_SHIFT

def dmaStart (dst src len : ℕ) : Transfer where
  fixdar := dst / 2 ^ 32 % 2 ^ 8
  dar := dst % 2 ^ 32
  sar := src
  tcr := len / 2 ^ DMATCR_CNT_SHIFT

/-- The length that is moved; the sum is one of 32-bit words. -/
def roundedLength (len : ℕ) : ℕ :=
  if len % DMA_SIZE_UNIT ≠ 0 then (len + DMA_SIZE_UNIT) % 2 ^ 32 / DMA_SIZE_UNIT * DMA_SIZE_UNIT
  else len

/-- The tests of `rcar_dma_exec`: without any of them true it starts the transfer. -/
def DmaRejects (dst src len : ℕ) : Prop :=
  (roundedLength len = 0 ∨ roundedLength len > DMA_LENGTH_LIMIT) ∨ src % DMA_SIZE_UNIT ≠ 0 ∨
    dst % 2 ^ 32 + roundedLength len > DMADAR_BOUNDARY_ADDR ∨
    (dst + roundedLength len) % 2 ^ 64 > DMA_DST_LIMIT ∨ dst % DMA_SIZE_UNIT ≠ 0

instance (dst src len : ℕ) : Decidable (DmaRejects dst src len) := inferInstanceAs (Decidable (_ ∨ _))

inductive ReadResult where
  | fail
  | panics
  | success (t : Transfer)
deriving DecidableEq

/-- The read of an open file at its position, a `signed long long`. -/
def memdrvRead (filePos : ℤ) (buffer length : ℕ) : ReadResult :=
  if FLASH_MEMORY_SIZE < filePos + toSigned length then .fail
  else
    let src := ((FLASH0_BASE + filePos) % 2 ^ 32).toNat
    let len := length % 2 ^ 32
    if DmaRejects buffer src len then .panics else .success (dmaStart buffer src (roundedLength len))

end RCar.Bl2
