import RCarM3N.Lib.Montgomery
import RCarM3N.Lib.Sizes

/-! Verification of RSA signatures with a pre-processed key: `avb_rsa.c`, and the comparison of `avb_util.c`. -/

namespace RCar.AvbRsa

/-- The modulus and R^2, the lowest word first. -/
structure IAvbKey where
  n0inv : UInt32
  n : List UInt32
  rr : List UInt32
  lenEq : rr.length = n.length

namespace IAvbKey

def len (key : IAvbKey) : ℕ := key.n.length

end IAvbKey

/-! ## Arithmetic -/

/-- The loop of `subM`, with the borrow so far. -/
def subFrom : Int64 → List UInt32 → List UInt32 → List UInt32
  | A, a :: as, n :: ns =>
    let A := (A.toUInt64 + (a.toUInt64 - n.toUInt64)).toInt64
    A.toUInt64.toUInt32 :: subFrom (A >>> 32) as ns
  | _, _, _ => []

/-- a[] -= mod -/
def subM (key : IAvbKey) (a : List UInt32) : List UInt32 := subFrom 0 a key.n

/-- The loop of `geM`, from the highest word down. -/
def geFrom : List UInt32 → List UInt32 → Bool
  | a :: as, n :: ns => if a < n then false else if a > n then true else geFrom as ns
  | _, _ => true

/-- return a[] >= mod -/
def geM (key : IAvbKey) (a : List UInt32) : Bool := geFrom a.reverse key.n.reverse

/-- The loop of `montMulAdd` from its second word on, and what is above the last word of the result. -/
def montLoop (a d0 : UInt32) : UInt64 → UInt64 → List UInt32 → List UInt32 → List UInt32 → List UInt32 × UInt64
  | A, B, b :: bs, n :: ns, c :: cs =>
    let A := (A >>> 32) + a.toUInt64 * b.toUInt64 + c.toUInt64
    let B := (B >>> 32) + d0.toUInt64 * n.toUInt64 + A.toUInt32.toUInt64
    let r := montLoop a d0 A B bs ns cs
    (B.toUInt32 :: r.1, r.2)
  | A, B, _, _, _ =>
    let A := (A >>> 32) + (B >>> 32)
    ([A.toUInt32], A >>> 32)

/-- montgomery c[] += a * b[] / R % mod -/
def montMulAdd (key : IAvbKey) (c : List UInt32) (a : UInt32) (b : List UInt32) : List UInt32 :=
  match b, key.n, c with
  | b0 :: bs, n0 :: ns, c0 :: cs =>
    let A := a.toUInt64 * b0.toUInt64 + c0.toUInt64
    let d0 := A.toUInt32 * key.n0inv
    let B := d0.toUInt64 * n0.toUInt64 + A.toUInt32.toUInt64
    let r := montLoop a d0 A B bs ns cs
    if r.2 ≠ 0 then subM key r.1 else r.1
  | _, _, _ => c

/-- montgomery c[] = a[] * b[] / R % mod -/
def montMul (key : IAvbKey) (a b : List UInt32) : List UInt32 :=
  a.foldl (fun c a => montMulAdd key c a b) (List.replicate key.len 0)

/-- The conversion from a big endian byte array, as it stands in memory. -/
def wordsOfBytes (m : Mem) (off len : ℕ) : List UInt32 :=
  (List.range len).map fun i => word32 (m (off + 4 * (len - 1 - i) + 3)) (m (off + 4 * (len - 1 - i) + 2))
    (m (off + 4 * (len - 1 - i) + 1)) (m (off + 4 * (len - 1 - i)))

/-- Two squarings, in and out of `aaR`. -/
def squareTwice (key : IAvbKey) (aR : List UInt32) : List UInt32 :=
  let aaR := montMul key aR aR
  montMul key aaR aaR

/-- In-place public exponentiation. The buffer stays as it is where one of the three allocations fails. -/
def modpowF4 (key : IAvbKey) (allocated : Bool) (inout : List UInt8) : List UInt8 :=
  if allocated then
    let a := wordsOfBytes (Mem.ofList inout) 0 key.len
    let aR := montMul key a key.rr
    let aR := (squareTwice key)^[8] aR
    let aaa := montMul key aR a
    let aaa := if geM key aaa then subM key aaa else aaa
    aaa.reverse.flatMap fun tmp => [byte32 tmp 3, byte32 tmp 2, byte32 tmp 1, byte32 tmp 0]
  else
    inout

/-! ## Verification -/

/-- Whether bytes differ. -/
def avbSafeMemcmp (s1 s2 : List UInt8) : Bool :=
  (List.zip s1 s2).foldl (fun result x => result ||| (x.1 ^^^ x.2).toUInt32) 0 ≠ 0

def be32 (m : Mem) (off : ℕ) : UInt32 := word32 (m (off + 3)) (m (off + 2)) (m (off + 1)) (m off)

/-- The allocations: of the key, of the buffer, and the three of the exponentiation. -/
structure Mallocs where
  key : Bool
  buf : Bool
  modpow : Bool

def sizeofAvbRSAPublicKeyHeader : ℕ := 8

def iavbParseKeyData (m : Mem) (allocated : Bool) (data length : ℕ) : Option IAvbKey :=
  let keyNumBits := (be32 m data).toNat
  let n0inv := be32 m (data + 4)
  if ¬ (keyNumBits = 2048 ∨ keyNumBits = 4096 ∨ keyNumBits = 8192) then
    none
  else if length ≠ sizeofAvbRSAPublicKeyHeader + 2 * keyNumBits / 8 then
    none
  else if !allocated then
    none
  else
    let n := data + sizeofAvbRSAPublicKeyHeader
    let rr := data + sizeofAvbRSAPublicKeyHeader + keyNumBits / 8
    some ⟨n0inv, wordsOfBytes m n (keyNumBits / 32), wordsOfBytes m rr (keyNumBits / 32), by simp [wordsOfBytes]⟩

/-- The key, the signature and the hash are in memory; the padding is a constant. -/
def avbRsaVerify (m : Mem) (alloc : Mallocs) (key keyNumBytes sig sigNumBytes hash hashNumBytes : ℕ)
    (padding : List UInt8) : Bool :=
  match iavbParseKeyData m alloc.key key keyNumBytes with
  | none => false
  | some parsedKey =>
    if sigNumBytes ≠ 4 * parsedKey.len then
      false
    else if padding.length ≠ (sigNumBytes + 2 ^ 64 - hashNumBytes) % 2 ^ 64 then
      false
    else if !alloc.buf then
      false
    else
      let buf := modpowF4 parsedKey alloc.modpow (m.read sig sigNumBytes)
      if avbSafeMemcmp (buf.take padding.length) padding then
        false
      else
        !avbSafeMemcmp ((buf.drop padding.length).take hashNumBytes) (m.read hash hashNumBytes)

end RCar.AvbRsa
