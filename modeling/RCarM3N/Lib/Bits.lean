import RCarM3N.Lib.Sizes

/-! Words as tables of flags: a word or-ed together from a table of flags, and the lowest bit of
a word kept alone. -/

namespace RCar.Bits

variable {w n : ℕ} {α : Type}

/-! ## Packing -/

theorem getLsbD_foldl_or (l : List α) (f : α → BitVec w) (a : BitVec w) (k : ℕ) :
    (l.foldl (fun acc i => acc ||| f i) a).getLsbD k =
      (a.getLsbD k || l.any fun i => (f i).getLsbD k) := by
  induction l generalizing a with
  | nil => simp
  | cons i l ih => simp [ih, Bool.or_assoc]

/-- The word that has the flag of every index of the table at the place that `place` gives it. -/
def pack (t : Fin n → BitVec w) (place : Fin n → ℕ) : BitVec w :=
  (List.finRange n).foldl (fun acc i => acc ||| t i <<< place i) 0#w

/-- A flag shifted up is one bit. -/
theorem getLsbD_flag {x : BitVec w} (hx : x = 0#w ∨ x = 1#w) (p k : ℕ) :
    (x <<< p).getLsbD k = (x.getLsbD 0 && decide (k = p ∧ k < w)) := by
  rw [BitVec.getLsbD_shiftLeft]
  rcases hx with rfl | rfl
  · simp
  · rw [Bool.eq_iff_iff]
    simp [BitVec.getLsbD_one]
    omega

theorem getLsbD_pack {t : Fin n → BitVec w} {place : Fin n → ℕ}
    (ht : ∀ i, t i = 0#w ∨ t i = 1#w) (k : ℕ) :
    (pack t place).getLsbD k ↔ ∃ i, (t i).getLsbD 0 ∧ place i = k ∧ k < w := by
  rw [pack, getLsbD_foldl_or]
  simp [getLsbD_flag (ht _), eq_comm (a := k)]

/-! ## The lowest bit -/

/-- The word with nothing but the lowest of its first `n` bits, or as it is where none is set:
the loop over the bits that leaves at the first one. -/
def keepLowest (n : ℕ) (x : BitVec w) : BitVec w :=
  match (List.range n).find? fun i => x &&& 1#w <<< i ≠ 0#w with
  | some i => x &&& 1#w <<< i
  | none => x

/-- A word with one bit cut out of it. -/
theorem getLsbD_and_bit (x : BitVec w) (i k : ℕ) :
    (x &&& 1#w <<< i).getLsbD k = (x.getLsbD k && decide (k = i)) := by
  rw [BitVec.getLsbD_and, ← BitVec.twoPow_eq, BitVec.getLsbD_twoPow]
  by_cases hk : k = i
  · subst hk
    by_cases hw : k < w
    · simp [hw]
    · simp [BitVec.getLsbD_of_ge x k (by omega)]
  · simp [hk, eq_comm (a := i)]

theorem and_bit_ne_zero_iff (x : BitVec w) (i : ℕ) : x &&& 1#w <<< i ≠ 0#w ↔ x.getLsbD i := by
  rw [← BitVec.twoPow_eq, BitVec.and_twoPow]
  by_cases h : x.getLsbD i
  · have hne : BitVec.twoPow w i ≠ 0#w := fun h0 => by
      have := congrArg (fun y => y.getLsbD i) h0
      simp [BitVec.lt_of_getLsbD h] at this
    simpa [h] using hne
  · simp [h]

theorem getLsbD_keepLowest {x : BitVec w} (hx : ∀ k, n ≤ k → x.getLsbD k = false) (k : ℕ) :
    (keepLowest n x).getLsbD k ↔ x.getLsbD k ∧ ∀ i < k, x.getLsbD i = false := by
  unfold keepLowest
  split
  · rename_i i hi
    obtain ⟨hbit, -, hbefore⟩ := List.find?_range_eq_some.mp hi
    have hset : x.getLsbD i := (and_bit_ne_zero_iff x i).mp (of_decide_eq_true hbit)
    have hclear : ∀ j < i, x.getLsbD j = false := fun j hj => by
      have hj := hbefore j hj
      rw [Bool.not_eq_true', decide_eq_false_iff_not, and_bit_ne_zero_iff] at hj
      exact Bool.eq_false_iff.mpr hj
    rw [getLsbD_and_bit, Bool.and_eq_true, decide_eq_true_iff]
    constructor
    · rintro ⟨hk, rfl⟩
      exact ⟨hk, hclear⟩
    · intro ⟨hk, hlow⟩
      refine ⟨hk, ?_⟩
      rcases Nat.lt_trichotomy k i with h | h | h
      · simp [hclear k h] at hk
      · exact h
      · simp [hlow i h] at hset
  · rename_i hnone
    have hclear : ∀ j, x.getLsbD j = false := fun j => by
      by_cases hj : j < n
      · have hj := List.find?_range_eq_none.mp hnone j hj
        rw [Bool.not_eq_true', decide_eq_false_iff_not, and_bit_ne_zero_iff] at hj
        exact Bool.eq_false_iff.mpr hj
      · exact hx j (by omega)
    simp [hclear]

end RCar.Bits
