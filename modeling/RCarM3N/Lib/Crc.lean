import Mathlib

/-! Reflected 32-bit cyclic redundancy checks: a bit at a time from the polynomial, and a
byte at a time from a table of 256 words. One division step is linear over exclusive or, so
eight of them on `c` are the table's word for the low byte of `c` and `c` moved down a byte. -/

namespace RCar.Crc

/-- One division step of the remainder. -/
def bitStep (poly c : UInt32) : UInt32 :=
  if c.toBitVec.getLsbD 0 then (c >>> 1) ^^^ poly else c >>> 1

def bitSteps (poly : UInt32) : ℕ → UInt32 → UInt32
  | 0, c => c
  | n + 1, c => bitSteps poly n (bitStep poly c)

/-- The remainder after one more byte, a bit at a time. -/
def byteStep (poly c : UInt32) (b : UInt8) : UInt32 := bitSteps poly 8 (c ^^^ b.toUInt32)

/-- The remainder after one more byte, from a table. -/
def tableStep (tab : ℕ → UInt32) (c : UInt32) (b : UInt8) : UInt32 :=
  tab ((c ^^^ b.toUInt32) &&& 0xFF).toNat ^^^ (c >>> 8)

theorem bitStep_xor (poly a b : UInt32) :
    bitStep poly (a ^^^ b) = bitStep poly a ^^^ bitStep poly b := by
  unfold bitStep
  rw [UInt32.shiftRight_xor, UInt32.toBitVec_xor, BitVec.getLsbD_xor]
  cases a.toBitVec.getLsbD 0 <;> cases b.toBitVec.getLsbD 0 <;>
    simp only [Bool.false_xor, Bool.true_xor, Bool.xor_false, Bool.not_true,
      Bool.false_eq_true, if_true, if_false]
  · rw [UInt32.xor_assoc]
  · rw [UInt32.xor_assoc, UInt32.xor_assoc, UInt32.xor_comm poly]
  · rw [UInt32.xor_assoc, ← UInt32.xor_assoc poly, UInt32.xor_comm poly, UInt32.xor_assoc,
      UInt32.xor_self, UInt32.xor_zero]

theorem bitSteps_xor (poly : UInt32) (n : ℕ) (a b : UInt32) :
    bitSteps poly n (a ^^^ b) = bitSteps poly n a ^^^ bitSteps poly n b := by
  induction n generalizing a b with
  | zero => rfl
  | succ n ih => simp only [bitSteps, bitStep_xor, ih]

/-- A remainder whose low `n` bits are clear only moves down through `n` steps. -/
theorem bitSteps_of_low_clear (poly c : UInt32) (n : ℕ)
    (h : ∀ i < n, c.toBitVec.getLsbD i = false) :
    (bitSteps poly n c).toBitVec = c.toBitVec >>> n := by
  induction n generalizing c with
  | zero => simp [bitSteps]
  | succ n ih =>
    have h0 : bitStep poly c = c >>> 1 := by
      rw [bitStep, h 0 (by omega), if_neg Bool.false_ne_true]
    have h1 : (c >>> 1).toBitVec = c.toBitVec >>> 1 := by simp
    rw [bitSteps, h0, ih]
    · rw [h1, ← BitVec.shiftRight_add, Nat.add_comm]
    · intro i hi
      rw [h1, BitVec.getLsbD_ushiftRight]
      exact h (1 + i) (by omega)

theorem testBit_low_byte (i : ℕ) : (0xFF : UInt32).toBitVec.getLsbD i = decide (i < 8) := by
  change (BitVec.ofNat 32 (2 ^ 8 - 1)).getLsbD i = _
  rw [BitVec.getLsbD_ofNat, Nat.testBit_two_pow_sub_one]
  by_cases h : i < 8
  · simp [h, show i < 32 by omega]
  · simp [h]

theorem split_low_byte (c : UInt32) : (c &&& 0xFF) ^^^ (c &&& ~~~0xFF) = c := by
  apply UInt32.toBitVec_inj.mp
  apply BitVec.eq_of_getLsbD_eq
  intro i hi
  rw [UInt32.toBitVec_xor, UInt32.toBitVec_and, UInt32.toBitVec_and, UInt32.toBitVec_not,
    BitVec.getLsbD_xor, BitVec.getLsbD_and, BitVec.getLsbD_and, BitVec.getLsbD_not]
  cases c.toBitVec.getLsbD i <;> simp [hi]

theorem high_shift (c : UInt32) : (c &&& ~~~0xFF) >>> 8 = c >>> 8 := by
  rw [UInt32.shiftRight_and, show (~~~0xFF : UInt32) >>> 8 = 0xFFFFFF by decide]
  apply UInt32.toNat_inj.mp
  have hlt := c.toNat_lt
  have hs : (c >>> 8).toNat < 2 ^ 24 := by
    rw [UInt32.toNat_shiftRight, Nat.shiftRight_eq_div_pow]
    change c.toNat / 256 < 2 ^ 24
    omega
  rw [UInt32.toNat_and, show (0xFFFFFF : UInt32).toNat = 2 ^ 24 - 1 from rfl,
    Nat.and_two_pow_sub_one_eq_mod, Nat.mod_eq_of_lt hs]

/-- Eight steps of a remainder: those of its low byte, and the rest of it moved down. -/
theorem bitSteps_eight (poly c : UInt32) :
    bitSteps poly 8 c = bitSteps poly 8 (c &&& 0xFF) ^^^ (c >>> 8) := by
  have hclear : ∀ i < 8, (c &&& ~~~0xFF).toBitVec.getLsbD i = false := by
    intro i hi
    rw [UInt32.toBitVec_and, UInt32.toBitVec_not, BitVec.getLsbD_and, BitVec.getLsbD_not,
      testBit_low_byte]
    simp [hi]
  have hhigh : bitSteps poly 8 (c &&& ~~~0xFF) = c >>> 8 := by
    rw [← high_shift]
    apply UInt32.toBitVec_inj.mp
    rw [bitSteps_of_low_clear poly _ 8 hclear, UInt32.toBitVec_shiftRight]
    rfl
  calc bitSteps poly 8 c = bitSteps poly 8 ((c &&& 0xFF) ^^^ (c &&& ~~~0xFF)) := by
        rw [split_low_byte]
    _ = bitSteps poly 8 (c &&& 0xFF) ^^^ (c >>> 8) := by rw [bitSteps_xor, hhigh]

theorem byte_shiftRight_eight (b : UInt8) : b.toUInt32 >>> 8 = 0 := by
  apply UInt32.toNat_inj.mp
  have := b.toNat_lt
  rw [UInt32.toNat_shiftRight, Nat.shiftRight_eq_div_pow, UInt8.toNat_toUInt32]
  change b.toNat / 256 = 0
  omega

/-- A table whose entries are eight division steps of their index gives the division. -/
theorem tableStep_eq (poly : UInt32) (tab : ℕ → UInt32)
    (htab : ∀ i < 256, tab i = bitSteps poly 8 (UInt32.ofNat i)) (c : UInt32) (b : UInt8) :
    tableStep tab c b = byteStep poly c b := by
  have hlt : ((c ^^^ b.toUInt32) &&& 0xFF).toNat < 256 := by
    rw [UInt32.toNat_and]
    exact Nat.lt_succ_of_le Nat.and_le_right
  rw [tableStep, byteStep, bitSteps_eight, htab _ hlt, UInt32.ofNat_toNat, UInt32.shiftRight_xor,
    byte_shiftRight_eight, UInt32.xor_zero]

end RCar.Crc
