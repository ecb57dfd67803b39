import RCarM3N.Lib.Prog

/-! The run-length decoder of the cluster demo, `texture.c`. The source is the memory from `Src` on, and every read of it
and every byte written to the video memory is recorded. -/

namespace RCar.Texture

structure Decoder where
  src : ℕ → UInt8
  /-- the offsets read so far, and the bytes written with their addresses, in order -/
  reads : List ℕ
  writes : List (UInt32 × UInt8)

def readSrc (p : ℕ) : Prog Decoder UInt8 := fun s => (some (s.src p), { s with reads := s.reads ++ [p] })

def locVMemWrite8 (address : UInt32) (value : UInt8) : Prog Decoder Unit :=
  Prog.modify fun s => { s with writes := s.writes ++ [(address, value)] }

/-- The `n` low bytes of a value, the lowest first: a write of a wider type. -/
def vmemWrite (address : UInt32) (value : UInt32) : ℕ → Prog Decoder Unit
  | 0 => return ()
  | n + 1 => do
    locVMemWrite8 address value.toUInt8
    vmemWrite (address + 1) (value >>> 8) n

def locVMemWrite16 (address value : UInt32) : Prog Decoder Unit := vmemWrite address value 2

def locVMemWrite32 (address value : UInt32) : Prog Decoder Unit := vmemWrite address value 4

/-- The loop that puts a value together: `n` bytes from `src` on, the first one shifted by `8 * tmp`. -/
def collect (src tmp : ℕ) (value : UInt32) : ℕ → Prog Decoder UInt32
  | 0 => return value
  | n + 1 => do
    let b ← readSrc src
    collect (src + 1) (tmp + 1) (value ||| b.toUInt32 <<< UInt32.ofNat (8 * tmp)) n

/-- The loop of the other sizes, byte by byte. -/
def copyBytes (dst : UInt32) (src : ℕ) : ℕ → Prog Decoder Unit
  | 0 => return ()
  | n + 1 => do
    locVMemWrite8 dst (← readSrc src)
    copyBytes (dst + 1) (src + 1) n

def locD2DWritePixel (dst : UInt32) (src bpp : ℕ) : Prog Decoder Unit :=
  match bpp with
  | 4 => do locVMemWrite32 dst (← collect src 0 0 4)
  | 2 => do locVMemWrite16 dst (← collect src 0 0 2)
  | n => copyBytes dst src n

/-- The loop over the pixels of a packet, which returns the pointers and the size that it leaves. -/
def rlePixels (nextpixelrle : Bool) (rlestart bpp : ℕ) : ℕ → UInt32 → ℕ → ℕ → Prog Decoder (UInt32 × ℕ × ℕ)
  | 0, dst, src, size => return (dst, src, size)
  | pixelcounter + 1, dst, src, size => do
    let src := if nextpixelrle then rlestart else src
    locD2DWritePixel dst src bpp
    let size := if nextpixelrle = false ∨ (nextpixelrle = true ∧ pixelcounter = 1) then
      if size ≥ bpp then size - bpp else 0
    else size
    rlePixels nextpixelrle rlestart bpp pixelcounter (dst + UInt32.ofNat bpp) (src + bpp) size

/-- The loop over the packets: each takes at least one byte from the size, which `fuel` is at the start. -/
def rlePackets (bpp : ℕ) : ℕ → UInt32 → ℕ → ℕ → Prog Decoder Unit
  | 0, _, _, _ => return ()
  | fuel + 1, dst, src, size =>
    if size > 0 then do
      let tmp ← readSrc src
      let pixelcounter := (tmp &&& 0x7F).toNat + 1
      let nextpixelrle := tmp >>> 7 ≠ 0
      if size - 1 = 0 then
        return ()
      else
        let (dst, src, size) ← rlePixels nextpixelrle (src + 1) bpp pixelcounter dst (src + 1) (size - 1)
        rlePackets bpp fuel dst src size
    else
      return ()

def locDecompressRLE (dst : UInt32) (size bpp : ℕ) : Prog Decoder Unit := rlePackets bpp size dst 0 size

end RCar.Texture
