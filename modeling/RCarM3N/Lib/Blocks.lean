import Mathlib

/-! One pass over a monotone sequence that notes, for each value, where its block starts and how long it is. -/

namespace RCar

section Fibre

variable {f : ℕ → ℕ} {k s v : ℕ}

/-- Between two elements of one value all have it. -/
theorem eq_of_between (hf : Monotone f) {a b c : ℕ} (hac : a ≤ c) (hcb : c ≤ b) (ha : f a = v) (hb : f b = v) :
    f c = v := le_antisymm ((hf hcb).trans hb.le) (ha.ge.trans (hf hac))

theorem count_before (h : IsLeast {c | c < k ∧ f c = v} s) : Nat.count (f · = v) s = 0 := by
  apply Nat.count_of_forall_not
  intro c hc hv
  exact absurd (h.2 ⟨hc.trans h.1.1, hv⟩) (not_le.mpr hc)

/-- The elements of one value are those from the first one on, as many as there are. -/
theorem fibre_iff (hf : Monotone f) (h : IsLeast {c | c < k ∧ f c = v} s) {c : ℕ} (hc : c < k) :
    (s ≤ c ∧ c < s + Nat.count (f · = v) k) ↔ f c = v := by
  have hsplit : ∀ j, Nat.count (f · = v) (s + j) = Nat.count (fun i => f (s + i) = v) j := fun j => by
    rw [Nat.count_add, count_before h, Nat.zero_add]
  constructor
  · rintro ⟨hsc, hlt⟩
    by_contra hne
    -- no element after `c` has the value any more
    have hafter : Nat.count (fun i => f (c + i) = v) (k - c) = 0 := by
      apply Nat.count_of_forall_not
      intro i _ hi
      exact hne (eq_of_between hf hsc (Nat.le_add_right c i) h.1.2 hi)
    have hall : Nat.count (f · = v) k = Nat.count (f · = v) c := by
      conv_lhs => rw [← Nat.add_sub_cancel' hc.le, Nat.count_add, hafter, Nat.add_zero]
    have hle : Nat.count (f · = v) c ≤ c - s := by
      conv_lhs => rw [← Nat.add_sub_cancel' hsc, hsplit]
      exact Nat.count_le _
    omega
  · intro hv
    have hsc : s ≤ c := h.2 ⟨hc, hv⟩
    refine ⟨hsc, ?_⟩
    have hfull : Nat.count (fun i => f (s + i) = v) (c + 1 - s) = c + 1 - s := by
      apply Nat.count_of_forall
      intro i hi
      exact eq_of_between hf (Nat.le_add_right s i) (by omega) h.1.2 hv
    have hcount := hsplit (c + 1 - s)
    rw [hfull, Nat.add_sub_cancel' (hsc.trans (Nat.le_add_right c 1))] at hcount
    have hmono : Nat.count (f · = v) (c + 1) ≤ Nat.count (f · = v) k := Nat.count_monotone _ hc
    omega

theorem fibre_end (h : IsLeast {c | c < k ∧ f c = v} s) : s + Nat.count (f · = v) k ≤ k := by
  have hsplit : Nat.count (f · = v) k = Nat.count (fun i => f (s + i) = v) (k - s) := by
    conv_lhs => rw [← Nat.add_sub_cancel' h.1.1.le, Nat.count_add, count_before h, Nat.zero_add]
  have hle : Nat.count (fun i => f (s + i) = v) (k - s) ≤ k - s := Nat.count_le _
  have hs := h.1.1
  omega

end Fibre

/-- After `k` elements of `f`: the value of the last one, 0 before the first, and for the values in `A` the first
element of each and the number of its elements. -/
structure Blocks (f : ℕ → ℕ) (A : Set ℕ) (k cur : ℕ) (start count : ℕ → ℕ) : Prop where
  cur_zero : k = 0 → cur = 0
  cur_succ : 0 < k → cur = f (k - 1)
  start_zero : k = 0 → 0 ∈ A → start 0 = 0
  count : ∀ v ∈ A, count v = Nat.count (f · = v) k
  least : ∀ v ∈ A, (∃ c < k, f c = v) → IsLeast {c | c < k ∧ f c = v} (start v)

namespace Blocks

variable {f start count start' count' : ℕ → ℕ} {A : Set ℕ} {k cur : ℕ}

theorem empty (hcount : ∀ v ∈ A, count v = 0) (hstart : 0 ∈ A → start 0 = 0) : Blocks f A 0 0 start count := by
  refine ⟨fun _ => rfl, by simp, fun _ => hstart, fun v hv => by simp [hcount v hv], ?_⟩
  rintro v - ⟨c, hc, -⟩
  exact absurd hc (Nat.not_lt_zero c)

/-- What is noted for values outside of `A` does not matter. -/
theorem congr (h : Blocks f A k cur start count) (hstart : ∀ v ∈ A, start' v = start v)
    (hcount : ∀ v ∈ A, count' v = count v) : Blocks f A k cur start' count' := by
  refine ⟨h.cur_zero, h.cur_succ, ?_, ?_, ?_⟩
  · intro hk h0
    rw [hstart 0 h0]
    exact h.start_zero hk h0
  · intro v hv
    rw [hcount v hv]
    exact h.count v hv
  · intro v hv hex
    rw [hstart v hv]
    exact h.least v hv hex

/-- One more element: its block is opened where its value is new, and gets longer. -/
theorem next (h : Blocks f A k cur start count) (hf : Monotone f) (hA : f k ∈ A) :
    Blocks f A (k + 1) (f k) (if f k ≠ cur then Function.update start (f k) k else start)
      (Function.update count (f k) (count (f k) + 1)) := by
  refine ⟨by simp, by simp, by simp, ?_, ?_⟩
  · intro v hv
    rw [Nat.count_succ]
    by_cases hvk : v = f k
    · rw [hvk, Function.update_self, h.count _ hA, if_pos rfl]
    · rw [Function.update_of_ne hvk, h.count v hv, if_neg fun he => hvk he.symm, Nat.add_zero]
  · intro v hv hex
    by_cases hvk : v = f k
    · subst hvk
      by_cases hcur : f k = cur
      · rw [if_neg (not_not.mpr hcur)]
        rcases Nat.eq_zero_or_pos k with rfl | hk
        · have hzero : f 0 = 0 := hcur.trans (h.cur_zero rfl)
          rw [hzero] at hv ⊢
          rw [h.start_zero rfl hv]
          exact ⟨⟨Nat.one_pos, hzero⟩, fun c _ => Nat.zero_le c⟩
        · have hold := h.least _ hv ⟨k - 1, by omega, by rw [hcur, h.cur_succ hk]⟩
          refine ⟨⟨hold.1.1.trans (Nat.lt_succ_self k), hold.1.2⟩, ?_⟩
          rintro c ⟨hc, hc'⟩
          rcases Nat.lt_succ_iff_lt_or_eq.mp hc with hlt | rfl
          · exact hold.2 ⟨hlt, hc'⟩
          · exact hold.1.1.le
      · rw [if_pos hcur, Function.update_self]
        refine ⟨⟨Nat.lt_succ_self k, rfl⟩, ?_⟩
        rintro c ⟨hc, hc'⟩
        by_contra hlt
        -- an earlier element of this value would make it the open block
        have hk : 0 < k := by omega
        have hlast : f (k - 1) = f k := eq_of_between hf (a := c) (b := k) (by omega) (by omega) hc' rfl
        exact hcur (hlast.symm.trans (h.cur_succ hk).symm)
    · have hstart : (if f k ≠ cur then Function.update start (f k) k else start) v = start v := by
        split
        · exact Function.update_of_ne hvk _ _
        · rfl
      have hset : {c | c < k + 1 ∧ f c = v} = {c | c < k ∧ f c = v} := by
        ext c
        simp only [Set.mem_ofPred_eq, Nat.lt_succ_iff_lt_or_eq]
        constructor
        · rintro ⟨hc | rfl, hc'⟩
          · exact ⟨hc, hc'⟩
          · exact absurd hc'.symm hvk
        · exact fun ⟨hc, hc'⟩ => ⟨Or.inl hc, hc'⟩
      obtain ⟨c, hc⟩ := hex
      rw [hstart, hset]
      exact h.least v hv ⟨c, hset.le hc⟩

/-- The block of a value is where the elements of this value are. -/
theorem mem_iff (h : Blocks f A k cur start count) (hf : Monotone f) {c c' : ℕ} (hc : c < k) (hA : f c ∈ A) :
    (start (f c) ≤ c' ∧ c' < start (f c) + count (f c)) ↔ c' < k ∧ f c' = f c := by
  have hleast := h.least _ hA ⟨c, hc, rfl⟩
  rw [h.count _ hA]
  constructor
  · intro hin
    have hc' : c' < k := hin.2.trans_le (fibre_end hleast)
    exact ⟨hc', (fibre_iff hf hleast hc').mp hin⟩
  · rintro ⟨hc', hv⟩
    exact (fibre_iff hf hleast hc').mpr hv

end Blocks

end RCar
