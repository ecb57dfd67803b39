import RCarM3N.Model.Sha256Armv8

/-! The portable SHA-256 of the AVB code. Its C functions around the transform are those of the
variant with the cryptographic instructions; they are given here over any transform. -/

namespace RCar.Bl2.Portable

open Sha256 (Hash)

/-! ## The transform -/

def shfr (x n : UInt32) : UInt32 := x >>> n
def rotr (x n : UInt32) : UInt32 := (x >>> n) ||| (x <<< (32 - n))
def ch (x y z : UInt32) : UInt32 := (x &&& y) ^^^ (~~~x &&& z)
def maj (x y z : UInt32) : UInt32 := (x &&& y) ^^^ (x &&& z) ^^^ (y &&& z)
def sha256F1 (x : UInt32) : UInt32 := rotr x 2 ^^^ rotr x 13 ^^^ rotr x 22
def sha256F2 (x : UInt32) : UInt32 := rotr x 6 ^^^ rotr x 11 ^^^ rotr x 25
def sha256F3 (x : UInt32) : UInt32 := rotr x 7 ^^^ rotr x 18 ^^^ shfr x 3
def sha256F4 (x : UInt32) : UInt32 := rotr x 17 ^^^ rotr x 19 ^^^ shfr x 10

/-- `PACK32(str, x)` at offset `d`. -/
def pack32 (m : Mem) (d : ℕ) : UInt32 := word32 (m (d + 3)) (m (d + 2)) (m (d + 1)) (m d)

def sha256K : List UInt32 := [
  0x428a2f98, 0x71374491, 0xb5c0fbcf, 0xe9b5dba5, 0x3956c25b, 0x59f111f1,
  0x923f82a4, 0xab1c5ed5, 0xd807aa98, 0x12835b01, 0x243185be, 0x550c7dc3,
  0x72be5d74, 0x80deb1fe, 0x9bdc06a7, 0xc19bf174, 0xe49b69c1, 0xefbe4786,
  0x0fc19dc6, 0x240ca1cc, 0x2de92c6f, 0x4a7484aa, 0x5cb0a9dc, 0x76f988da,
  0x983e5152, 0xa831c66d, 0xb00327c8, 0xbf597fc7, 0xc6e00bf3, 0xd5a79147,
  0x06ca6351, 0x14292967, 0x27b70a85, 0x2e1b2138, 0x4d2c6dfc, 0x53380d13,
  0x650a7354, 0x766a0abb, 0x81c2c92e, 0x92722c85, 0xa2bfe8a1, 0xa81a664b,
  0xc24b8b70, 0xc76c51a3, 0xd192e819, 0xd6990624, 0xf40e3585, 0x106aa070,
  0x19a4c116, 0x1e376c08, 0x2748774c, 0x34b0bcb5, 0x391c0cb3, 0x4ed8aa4a,
  0x5b9cca4f, 0x682e6ff3, 0x748f82ee, 0x78a5636f, 0x84c87814, 0x8cc70208,
  0x90befffa, 0xa4506ceb, 0xbef9a3f7, 0xc67178f2]

/-- `SHA256_SCR(j)`. -/
def sha256Scr (w : ℕ → UInt32) (j : ℕ) : ℕ → UInt32 :=
  Function.update w j (sha256F4 (w (j - 2)) + w (j - 7) + sha256F3 (w (j - 15)) + w (j - 16))

/-- The array `w` of the block at `subBlock`, filled by the first two loops. -/
def schedule (m : Mem) (subBlock : ℕ) : ℕ → UInt32 :=
  let w := (List.range 16).foldl (fun w j => Function.update w j (pack32 m (subBlock + 4 * j)))
    fun _ => 0
  (List.range' 16 48).foldl sha256Scr w

/-- The body of the loop over the rounds, on the array `wv`. -/
def round (w : ℕ → UInt32) (wv : Hash) (j : ℕ) : Hash :=
  let t1 := wv.h + sha256F2 wv.e + ch wv.e wv.f wv.g + sha256K.getD j 0 + w j
  let t2 := sha256F1 wv.a + maj wv.a wv.b wv.c
  ⟨t1 + t2, wv.a, wv.b, wv.c, wv.d + t1, wv.e, wv.f, wv.g⟩

/-- One pass of the loop over the blocks. -/
def transformBlock (m : Mem) (h : Hash) (subBlock : ℕ) : Hash :=
  h.add ((List.range 64).foldl (round (schedule m subBlock)) h)

/-- The count is compared as an `int`. -/
def sha256Transform (h : Hash) (m : Mem) (limit message blockNb : ℕ) : Option Hash :=
  (List.range (if blockNb < 2 ^ 31 then blockNb else 0)).foldlM (fun h i =>
    let subBlock := message + 64 * i
    if subBlock + 64 ≤ limit then some (transformBlock m h subBlock) else none) h

/-! ## The C code over a transform -/

section Transform

variable (transform : Hash → Mem → ℕ → ℕ → ℕ → Option Hash)

def updateWith (ctx : AvbSHA256Ctx) (m : Mem) (limit data len : ℕ) : Option AvbSHA256Ctx := do
  let remLen := min len ((AVB_SHA256_BLOCK_SIZE + 2 ^ 32 - ctx.len) % 2 ^ 32)
  let block ← load ctx.block ctx.len m limit data remLen
  if (ctx.len + len) % 2 ^ 32 < AVB_SHA256_BLOCK_SIZE then
    return { ctx with block, len := (ctx.len + len) % 2 ^ 32 }
  let newLen := len - remLen
  let blockNb := newLen / AVB_SHA256_BLOCK_SIZE
  let shiftedData := data + remLen
  let h ← transform ctx.h block (2 * AVB_SHA256_BLOCK_SIZE) 0 1
  let h ← transform h m limit shiftedData blockNb
  let remLen := newLen % AVB_SHA256_BLOCK_SIZE
  let block ← load block 0 m limit (shiftedData + 64 * blockNb) remLen
  return { h, totLen := (ctx.totLen + 64 * (blockNb + 1)) % 2 ^ 32, len := remLen, block }

def finalWith (ctx : AvbSHA256Ctx) : Option (List UInt8) := do
  let blockNb := if AVB_SHA256_BLOCK_SIZE - 9 < ctx.len % AVB_SHA256_BLOCK_SIZE then 2 else 1
  let lenB := (ctx.totLen + ctx.len) * 8 % 2 ^ 32
  let pmLen := 64 * blockNb
  let block := ctx.block.copy ctx.len (fun _ => 0) 0 (pmLen - ctx.len)
  let block := block.copy ctx.len (fun _ => 0x80) 0 1
  let block := unpack32 block (pmLen - 4) (UInt32.ofNat lenB)
  let h ← transform ctx.h block (2 * AVB_SHA256_BLOCK_SIZE) 0 blockNb
  return h.digest

end Transform

def avbSha256Update : AvbSHA256Ctx → Mem → ℕ → ℕ → ℕ → Option AvbSHA256Ctx := updateWith sha256Transform

def avbSha256Final : AvbSHA256Ctx → Option (List UInt8) := finalWith sha256Transform

/-- The digest of the `length` bytes at `data`. -/
def sha256 (stack m : Mem) (limit data length : ℕ) : Option (List UInt8) := do
  let context ← avbSha256Update (avbSha256Init stack) m limit data length
  avbSha256Final context

/-- The variant with the cryptographic instructions is the same code over its transform. -/
theorem avbSha256Update_eq : Bl2.avbSha256Update = updateWith sha256CeTransform := rfl

theorem avbSha256Final_eq : Bl2.avbSha256Final = finalWith sha256CeTransform := rfl

/-! ## Messages in pieces -/

/-- The arguments of an update: `len` bytes at `data`. -/
structure Piece where
  mem : Mem
  data : ℕ
  len : ℕ

def Piece.bytes (p : Piece) : List UInt8 := p.mem.read p.data p.len

/-- The updates with the pieces one after the other, each with access to its own bytes only. -/
def absorbWith (transform : Hash → Mem → ℕ → ℕ → ℕ → Option Hash) (ctx : AvbSHA256Ctx)
    (pieces : List Piece) : Option AvbSHA256Ctx :=
  pieces.foldlM (fun ctx p => updateWith transform ctx p.mem (p.data + p.len) p.data p.len) ctx

/-- `avb_sha256_init`, the updates and `avb_sha256_final`. -/
def digestWith (transform : Hash → Mem → ℕ → ℕ → ℕ → Option Hash) (stack : Mem)
    (pieces : List Piece) : Option (List UInt8) := do
  let ctx ← absorbWith transform (avbSha256Init stack) pieces
  finalWith transform ctx

end RCar.Bl2.Portable
