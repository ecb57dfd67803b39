import RCarM3N.Lib.Bytes

/-! SHA-256 as FIPS 180-4 defines it: the round function, the message schedule, the padding
and the digest of a byte string. -/

namespace RCar.Sha256

def rotr (n x : UInt32) : UInt32 := (x >>> n) ||| (x <<< (32 - n))

def ch (x y z : UInt32) : UInt32 := (x &&& y) ^^^ (~~~x &&& z)
def maj (x y z : UInt32) : UInt32 := (x &&& y) ^^^ (x &&& z) ^^^ (y &&& z)
def bigSigma0 (x : UInt32) : UInt32 := rotr 2 x ^^^ rotr 13 x ^^^ rotr 22 x
def bigSigma1 (x : UInt32) : UInt32 := rotr 6 x ^^^ rotr 11 x ^^^ rotr 25 x
def smallSigma0 (x : UInt32) : UInt32 := rotr 7 x ^^^ rotr 18 x ^^^ (x >>> 3)
def smallSigma1 (x : UInt32) : UInt32 := rotr 17 x ^^^ rotr 19 x ^^^ (x >>> 10)

def K : List UInt32 := [
  0x428a2f98, 0x71374491, 0xb5c0fbcf, 0xe9b5dba5, 0x3956c25b, 0x59f111f1, 0x923f82a4, 0xab1c5ed5,
  0xd807aa98, 0x12835b01, 0x243185be, 0x550c7dc3, 0x72be5d74, 0x80deb1fe, 0x9bdc06a7, 0xc19bf174,
  0xe49b69c1, 0xefbe4786, 0x0fc19dc6, 0x240ca1cc, 0x2de92c6f, 0x4a7484aa, 0x5cb0a9dc, 0x76f988da,
  0x983e5152, 0xa831c66d, 0xb00327c8, 0xbf597fc7, 0xc6e00bf3, 0xd5a79147, 0x06ca6351, 0x14292967,
  0x27b70a85, 0x2e1b2138, 0x4d2c6dfc, 0x53380d13, 0x650a7354, 0x766a0abb, 0x81c2c92e, 0x92722c85,
  0xa2bfe8a1, 0xa81a664b, 0xc24b8b70, 0xc76c51a3, 0xd192e819, 0xd6990624, 0xf40e3585, 0x106aa070,
  0x19a4c116, 0x1e376c08, 0x2748774c, 0x34b0bcb5, 0x391c0cb3, 0x4ed8aa4a, 0x5b9cca4f, 0x682e6ff3,
  0x748f82ee, 0x78a5636f, 0x84c87814, 0x8cc70208, 0x90befffa, 0xa4506ceb, 0xbef9a3f7, 0xc67178f2]

/-- The working variables, and the chaining value. -/
@[ext] structure Hash where
  a : UInt32
  b : UInt32
  c : UInt32
  d : UInt32
  e : UInt32
  f : UInt32
  g : UInt32
  h : UInt32
deriving DecidableEq

def H0 : Hash :=
  ⟨0x6a09e667, 0xbb67ae85, 0x3c6ef372, 0xa54ff53a, 0x510e527f, 0x9b05688c, 0x1f83d9ab, 0x5be0cd19⟩

/-- One round, on the sum `kw` of the round constant and the schedule word. -/
def round (s : Hash) (kw : UInt32) : Hash :=
  let t1 := s.h + bigSigma1 s.e + ch s.e s.f s.g + kw
  let t2 := bigSigma0 s.a + maj s.a s.b s.c
  ⟨t1 + t2, s.a, s.b, s.c, s.d + t1, s.e, s.f, s.g⟩

def Hash.add (x y : Hash) : Hash :=
  ⟨x.a + y.a, x.b + y.b, x.c + y.c, x.d + y.d, x.e + y.e, x.f + y.f, x.g + y.g, x.h + y.h⟩

/-- The first `16 + n` words of the message schedule of the block words `m`. -/
def schedule (m : List UInt32) : ℕ → List UInt32
  | 0 => m
  | n + 1 =>
    let w := schedule m n
    w ++ [smallSigma1 (w.getD (n + 14) 0) + w.getD (n + 9) 0 + smallSigma0 (w.getD (n + 1) 0) +
      w.getD n 0]

/-- Big-endian word `i` of a block. -/
def wordBE (blk : List UInt8) (i : ℕ) : UInt32 :=
  word32 (blk.getD (4 * i + 3) 0) (blk.getD (4 * i + 2) 0) (blk.getD (4 * i + 1) 0)
    (blk.getD (4 * i) 0)

def blockWords (blk : List UInt8) : List UInt32 := (List.range 16).map (wordBE blk)

/-- Round `t` of the compression of a block with schedule `w`. -/
def step (w : List UInt32) (s : Hash) (t : ℕ) : Hash := round s (K.getD t 0 + w.getD t 0)

def compress (h : Hash) (blk : List UInt8) : Hash :=
  h.add ((List.range 64).foldl (step (schedule (blockWords blk) 48)) h)

/-- The chaining value after the first `n` blocks of `l`. -/
def compressBlocks : ℕ → Hash → List UInt8 → Hash
  | 0, h, _ => h
  | n + 1, h, l => compressBlocks n (compress h (l.take 64)) (l.drop 64)

def bytesBE (x : UInt32) : List UInt8 := [byte32 x 3, byte32 x 2, byte32 x 1, byte32 x 0]

def pad (m : List UInt8) : List UInt8 :=
  let bits := 8 * m.length
  m ++ [0x80] ++ List.replicate ((119 - m.length % 64) % 64) 0 ++
    bytesBE (UInt32.ofNat (bits / 2 ^ 32)) ++ bytesBE (UInt32.ofNat bits)

def Hash.digest (s : Hash) : List UInt8 :=
  [s.a, s.b, s.c, s.d, s.e, s.f, s.g, s.h].flatMap bytesBE

def hash (m : List UInt8) : List UInt8 :=
  (compressBlocks ((pad m).length / 64) H0 (pad m)).digest

-- the one-block message of the standard's examples
example : hash [0x61, 0x62, 0x63] =
    [0xba, 0x78, 0x16, 0xbf, 0x8f, 0x01, 0xcf, 0xea, 0x41, 0x41, 0x40, 0xde, 0x5d, 0xae, 0x22, 0x23,
     0xb0, 0x03, 0x61, 0xa3, 0x96, 0x17, 0x7a, 0x9c, 0xb4, 0x10, 0xff, 0x61, 0xf2, 0x00, 0x15, 0xad] := by
  decide +kernel

/-! ## The schedule -/

theorem length_schedule (m : List UInt32) (n : ℕ) : (schedule m n).length = m.length + n := by
  induction n with
  | zero => rfl
  | succ n ih => simp only [schedule, List.length_append, List.length_singleton, ih, Nat.add_assoc]

/-- Words that are there stay there. -/
theorem getD_schedule_add (m : List UInt32) (n k t : ℕ) (ht : t < m.length + n) :
    (schedule m (n + k)).getD t 0 = (schedule m n).getD t 0 := by
  induction k with
  | zero => rfl
  | succ k ih =>
    have hlen : t < (schedule m (n + k)).length := by rw [length_schedule]; omega
    rw [← Nat.add_assoc, schedule, List.getD_eq_getElem?_getD, List.getElem?_append_left hlen,
      ← List.getD_eq_getElem?_getD, ih]

/-- The recurrence of the schedule. -/
theorem getD_schedule {m : List UInt32} (hm : m.length = 16) {n t : ℕ} (ht : t < n) :
    (schedule m n).getD (t + 16) 0 =
      smallSigma1 ((schedule m n).getD (t + 14) 0) + (schedule m n).getD (t + 9) 0 +
        smallSigma0 ((schedule m n).getD (t + 1) 0) + (schedule m n).getD t 0 := by
  obtain ⟨k, rfl⟩ := Nat.exists_eq_add_of_le (Nat.succ_le_of_lt ht)
  have hold : ∀ i, i < t + 16 → (schedule m (t + 1 + k)).getD i 0 = (schedule m t).getD i 0 := by
    intro i hi
    rw [Nat.add_assoc, getD_schedule_add m t (1 + k) i (by omega)]
  have hlen : (schedule m t).length = t + 16 := by rw [length_schedule, hm, Nat.add_comm]
  rw [hold (t + 14) (by omega), hold (t + 9) (by omega), hold (t + 1) (by omega),
    hold t (by omega), getD_schedule_add m (t + 1) k (t + 16) (by omega), schedule,
    List.getD_eq_getElem?_getD, List.getElem?_append_right (by rw [hlen]), hlen, Nat.sub_self]
  rfl

theorem getD_schedule_block (m : List UInt32) (n t : ℕ) (ht : t < m.length) :
    (schedule m n).getD t 0 = m.getD t 0 := by
  have := getD_schedule_add m 0 n t (by omega)
  rwa [Nat.zero_add] at this

theorem getD_blockWords (blk : List UInt8) {i : ℕ} (hi : i < 16) :
    (blockWords blk).getD i 0 = wordBE blk i := by
  simp [blockWords, List.getD_eq_getElem?_getD, hi]

/-! ## Blocks -/

theorem compressBlocks_add (i j : ℕ) (h : Hash) (l : List UInt8) :
    compressBlocks (i + j) h l = compressBlocks j (compressBlocks i h l) (l.drop (64 * i)) := by
  induction i generalizing h l with
  | zero => simp [compressBlocks]
  | succ i ih =>
    rw [Nat.succ_add, compressBlocks, ih, compressBlocks, List.drop_drop, Nat.mul_succ,
      Nat.add_comm (64 * i)]

/-- Only the blocks that are compressed matter. -/
theorem compressBlocks_take (n : ℕ) (h : Hash) (l : List UInt8) :
    compressBlocks n h (l.take (64 * n)) = compressBlocks n h l := by
  induction n generalizing h l with
  | zero => rfl
  | succ n ih =>
    rw [compressBlocks, compressBlocks, List.take_take, Nat.min_eq_left (by omega), List.drop_take,
      show 64 * (n + 1) - 64 = 64 * n by omega, ih]

theorem length_bytesBE (x : UInt32) : (bytesBE x).length = 4 := rfl

theorem length_pad (m : List UInt8) :
    (pad m).length = m.length + 1 + (119 - m.length % 64) % 64 + 8 := by
  simp only [pad, List.length_append, List.length_replicate, List.length_singleton, length_bytesBE]

end RCar.Sha256
