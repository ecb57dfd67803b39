import RCarM3N.Lib.Sha256

/-! SHA-256 in BL2: the block transform written with the ARMv8 cryptographic instructions, and
the C code around it that buffers and pads. A load from outside the memory an address points
into is a fault: there is no result. -/

namespace RCar.Bl2

open Sha256

/-! ## The instructions -/

/-- A vector register of four 32-bit elements. -/
@[ext] structure V4 where
  e0 : UInt32
  e1 : UInt32
  e2 : UInt32
  e3 : UInt32

def V4.add (x y : V4) : V4 := ⟨x.e0 + y.e0, x.e1 + y.e1, x.e2 + y.e2, x.e3 + y.e3⟩

def rev32 (x : V4) : V4 := ⟨swap32 x.e0, swap32 x.e1, swap32 x.e2, swap32 x.e3⟩

def shaChoose (x y z : UInt32) : UInt32 := ((y ^^^ z) &&& x) ^^^ z
def shaMajority (x y z : UInt32) : UInt32 := (x &&& y) ||| ((x ||| y) &&& z)

/-- One step of `SHA256hash`, on the pair of registers that is rotated by an element. -/
def sha256hashStep (xy : V4 × V4) (w : UInt32) : V4 × V4 :=
  let (x, y) := xy
  let t := y.e3 + bigSigma1 y.e0 + shaChoose y.e0 y.e1 y.e2 + w
  (⟨t + bigSigma0 x.e0 + shaMajority x.e0 x.e1 x.e2, x.e0, x.e1, x.e2⟩,
    ⟨t + x.e3, y.e0, y.e1, y.e2⟩)

def sha256hash (x y w : V4) : V4 × V4 :=
  sha256hashStep (sha256hashStep (sha256hashStep (sha256hashStep (x, y) w.e0) w.e1) w.e2) w.e3

/-- `sha256h qd, qn, vm.4s`: the new `qd`. -/
def sha256h (d n m : V4) : V4 := (sha256hash d n m).1

/-- `sha256h2 qd, qn, vm.4s`: the new `qd`. -/
def sha256h2 (d n m : V4) : V4 := (sha256hash n d m).2

/-- `sha256su0 vd.4s, vn.4s`: the new `vd`. -/
def sha256su0 (d n : V4) : V4 :=
  ⟨smallSigma0 d.e1 + d.e0, smallSigma0 d.e2 + d.e1, smallSigma0 d.e3 + d.e2,
    smallSigma0 n.e0 + d.e3⟩

/-- `sha256su1 vd.4s, vn.4s, vm.4s`: the new `vd`. -/
def sha256su1 (d n m : V4) : V4 :=
  let r0 := smallSigma1 m.e2 + d.e0 + n.e1
  let r1 := smallSigma1 m.e3 + d.e1 + n.e2
  ⟨r0, r1, smallSigma1 r0 + d.e2 + n.e3, smallSigma1 r1 + d.e3 + m.e0⟩

/-! ## The transform -/

/-- The registers of the transform: `v0` to `v19`, and those it gives names to. -/
structure Regs where
  v : ℕ → V4
  dga : V4
  dgb : V4
  t0 : V4
  t1 : V4
  dg0 : V4
  dg1 : V4
  dg2 : V4

/-- `add_only ev, rc, s0`; the last one has no `rc` and `s0`. -/
def addOnly (ev : ℕ) (arg : Option (ℕ × ℕ)) (r : Regs) : Regs :=
  let r := { r with dg2 := r.dg0 }
  if ev = 0 then
    let r := match arg with
      | some (rc, s0) => { r with t1 := (r.v s0).add (r.v rc) }
      | none => r
    let r := { r with dg0 := sha256h r.dg0 r.dg1 r.t0 }
    { r with dg1 := sha256h2 r.dg1 r.dg2 r.t0 }
  else
    let r := match arg with
      | some (rc, s0) => { r with t0 := (r.v s0).add (r.v rc) }
      | none => r
    let r := { r with dg0 := sha256h r.dg0 r.dg1 r.t1 }
    { r with dg1 := sha256h2 r.dg1 r.dg2 r.t1 }

/-- `add_update ev, rc, s0, s1, s2, s3`. -/
def addUpdate (ev rc s0 s1 s2 s3 : ℕ) (r : Regs) : Regs :=
  let r := { r with v := Function.update r.v s0 (sha256su0 (r.v s0) (r.v s1)) }
  let r := addOnly ev (some (rc, s1)) r
  { r with v := Function.update r.v s0 (sha256su1 (r.v s0) (r.v s2) (r.v s3)) }

/-- The sixteen macros between the loads of a block and the update of the state. -/
def rounds (r : Regs) : Regs :=
  let r := addUpdate 0 1 16 17 18 19 r
  let r := addUpdate 1 2 17 18 19 16 r
  let r := addUpdate 0 3 18 19 16 17 r
  let r := addUpdate 1 4 19 16 17 18 r
  let r := addUpdate 0 5 16 17 18 19 r
  let r := addUpdate 1 6 17 18 19 16 r
  let r := addUpdate 0 7 18 19 16 17 r
  let r := addUpdate 1 8 19 16 17 18 r
  let r := addUpdate 0 9 16 17 18 19 r
  let r := addUpdate 1 10 17 18 19 16 r
  let r := addUpdate 0 11 18 19 16 17 r
  let r := addUpdate 1 12 19 16 17 18 r
  let r := addOnly 0 (some (13, 17)) r
  let r := addOnly 1 (some (14, 18)) r
  let r := addOnly 0 (some (15, 19)) r
  addOnly 1 none r

/-- A little-endian load of sixteen bytes. -/
def ld1 (m : Mem) (a : ℕ) : V4 := ⟨m.le32 a, m.le32 (a + 4), m.le32 (a + 8), m.le32 (a + 12)⟩

/-- One pass of the loop, on the block at address `x1`. -/
def transformBlock (m : Mem) (x1 : ℕ) (r : Regs) : Regs :=
  let load (i : ℕ) := rev32 (ld1 m (x1 + 16 * i))
  let v := Function.update r.v 16 (load 0)
  let v := Function.update v 17 (load 1)
  let v := Function.update v 18 (load 2)
  let v := Function.update v 19 (load 3)
  let r := { r with v := v, t0 := (v 16).add (v 0), dg0 := r.dga, dg1 := r.dgb }
  let r := rounds r
  { r with dga := r.dga.add r.dg0, dgb := r.dgb.add r.dg1 }

/-- The loop on the memory below `limit`; `w2` is the count after its decrement. -/
def transformLoop (m : Mem) (limit : ℕ) : ℕ → ℕ → Regs → Option Regs
  | 0, x1, r => if x1 + 64 ≤ limit then some (transformBlock m x1 r) else none
  | w2 + 1, x1, r =>
    if x1 + 64 ≤ limit then transformLoop m limit w2 (x1 + 64) (transformBlock m x1 r) else none

/-- Constant `i` of `.Lsha2_rcon`, four words at a time. -/
def sha2Rcon (i : ℕ) : V4 :=
  ⟨K.getD (4 * i) 0, K.getD (4 * i + 1) 0, K.getD (4 * i + 2) 0, K.getD (4 * i + 3) 0⟩

def hashLo (s : Hash) : V4 := ⟨s.a, s.b, s.c, s.d⟩
def hashHi (s : Hash) : V4 := ⟨s.e, s.f, s.g, s.h⟩
def hashOf (x y : V4) : Hash := ⟨x.e0, x.e1, x.e2, x.e3, y.e0, y.e1, y.e2, y.e3⟩

/-- The count is a 32-bit register that is decremented before it is tested: a count of
zero stands for `2 ^ 32` blocks. -/
def sha256CeTransform (ctx : Hash) (m : Mem) (limit x1 num : ℕ) : Option Hash :=
  let z : V4 := ⟨0, 0, 0, 0⟩
  let r : Regs :=
    { v := sha2Rcon, dga := hashLo ctx, dgb := hashHi ctx, t0 := z, t1 := z, dg0 := z, dg1 := z,
      dg2 := z }
  (transformLoop m limit ((num + (2 ^ 32 - 1)) % 2 ^ 32) x1 r).map fun r => hashOf r.dga r.dgb

/-! ## The C code -/

def AVB_SHA256_BLOCK_SIZE : ℕ := 64
def AVB_SHA256_DIGEST_SIZE : ℕ := 32

structure AvbSHA256Ctx where
  h : Hash
  totLen : ℕ
  len : ℕ
  /-- `2 * AVB_SHA256_BLOCK_SIZE` bytes -/
  block : Mem

/-- The block buffer keeps what was on the stack. -/
def avbSha256Init (block : Mem) : AvbSHA256Ctx := ⟨H0, 0, 0, block⟩

/-- `memcpy(dst + d, src + s, n)` with the source below `limit`. -/
def load (dst : Mem) (d : ℕ) (src : Mem) (limit s n : ℕ) : Option Mem :=
  if s + n ≤ limit then some (dst.copy d src s n) else none

def transformOwnBlock (ctx : AvbSHA256Ctx) (num : ℕ) : Option Hash :=
  sha256CeTransform ctx.h ctx.block (2 * AVB_SHA256_BLOCK_SIZE) 0 num

def avbSha256Update (ctx : AvbSHA256Ctx) (m : Mem) (limit data len : ℕ) :
    Option AvbSHA256Ctx := do
  let remLen := min len ((AVB_SHA256_BLOCK_SIZE + 2 ^ 32 - ctx.len) % 2 ^ 32)
  let block ← load ctx.block ctx.len m limit data remLen
  if (ctx.len + len) % 2 ^ 32 < AVB_SHA256_BLOCK_SIZE then
    return { ctx with block, len := (ctx.len + len) % 2 ^ 32 }
  let newLen := len - remLen
  let blockNb := newLen / AVB_SHA256_BLOCK_SIZE
  let shiftedData := data + remLen
  let h ← transformOwnBlock { ctx with block } 1
  let h ← sha256CeTransform h m limit shiftedData blockNb
  let remLen := newLen % AVB_SHA256_BLOCK_SIZE
  let block ← load block 0 m limit (shiftedData + 64 * blockNb) remLen
  return { h, totLen := (ctx.totLen + 64 * (blockNb + 1)) % 2 ^ 32, len := remLen, block }

/-- `UNPACK32(x, str)` at offset `d`. -/
def unpack32 (m : Mem) (d : ℕ) (x : UInt32) : Mem := m.copy d (Mem.ofList (bytesBE x)) 0 4

def avbSha256Final (ctx : AvbSHA256Ctx) : Option (List UInt8) := do
  let blockNb := if AVB_SHA256_BLOCK_SIZE - 9 < ctx.len % AVB_SHA256_BLOCK_SIZE then 2 else 1
  let lenB := (ctx.totLen + ctx.len) * 8 % 2 ^ 32
  let pmLen := 64 * blockNb
  let block := ctx.block.copy ctx.len (fun _ => 0) 0 (pmLen - ctx.len)
  let block := block.copy ctx.len (fun _ => 0x80) 0 1
  let block := unpack32 block (pmLen - 4) (UInt32.ofNat lenB)
  let h ← transformOwnBlock { ctx with block } blockNb
  return h.digest

/-- The digest of the `length` bytes at `data`. -/
def sha256 (stack m : Mem) (limit data length : ℕ) : Option (List UInt8) := do
  let context ← avbSha256Update (avbSha256Init stack) m limit data length
  avbSha256Final context

end RCar.Bl2
