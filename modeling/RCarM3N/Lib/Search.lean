import Mathlib

/-! First-match searches over the indices below a bound, and when a search by a wider test
over more indices answers the same as one by a narrower test over fewer; searches of a list by
a key. -/

namespace RCar.Search

variable {α : Type} {g : ℕ → Option α} {p q : α → Prop} [DecidablePred p] [DecidablePred q]
variable {m n : ℕ} {e : α}

/-- The first entry below `n` that is there and meets the test. -/
def first (g : ℕ → Option α) (p : α → Prop) [DecidablePred p] (n : ℕ) : Option α :=
  (List.range n).findSome? fun j => (g j).filter fun e => p e

theorem filter_eq_some (j : ℕ) : ((g j).filter fun e => p e) = some e ↔ g j = some e ∧ p e := by
  simp

theorem filter_eq_none (j : ℕ) :
    ((g j).filter fun e => p e) = none ↔ ∀ e, g j = some e → ¬ p e := by
  simp

theorem first_eq_none : first g p n = none ↔ ∀ j < n, ∀ e, g j = some e → ¬ p e := by
  simp only [first, List.findSome?_eq_none_iff, List.mem_range, filter_eq_none]

theorem first_succ : first g p (n + 1) = (first g p n).or ((g n).filter fun e => p e) := by
  rw [first, List.range_succ, List.findSome?_append, List.findSome?_cons, List.findSome?_nil]
  congr 1
  rcases (g n).filter fun e => p e with _ | e <;> rfl

/-- The entry found is one that meets the test, and no earlier one does. -/
theorem first_eq_some : first g p n = some e ↔
    ∃ j < n, g j = some e ∧ p e ∧ ∀ i < j, ∀ e', g i = some e' → ¬ p e' := by
  induction n with
  | zero => simp [first]
  | succ n ih =>
    rw [first_succ, Option.or_eq_some_iff, ih, filter_eq_some, first_eq_none]
    constructor
    · rintro (⟨j, hj, h⟩ | ⟨hnone, hg, hp⟩)
      · exact ⟨j, by omega, h⟩
      · exact ⟨n, by omega, hg, hp, hnone⟩
    · rintro ⟨j, hj, hg, hp, hbefore⟩
      rcases Nat.lt_succ_iff_lt_or_eq.mp hj with hj | rfl
      · exact .inl ⟨j, hj, hg, hp, hbefore⟩
      · exact .inr ⟨hbefore, hg, hp⟩

/-- A search by the wider test `p` over the first `n` indices answers as one by `q` over the
first `m` if and only if the entry that it stops at meets `q` and lies below `m`. -/
theorem first_eq_first_iff (hqp : ∀ e, q e → p e) (hmn : m ≤ n) :
    first g p n = first g q m ↔
      ∀ j < n, ∀ e, g j = some e → p e → (∀ i < j, ∀ e', g i = some e' → ¬ p e') →
        q e ∧ j < m := by
  constructor
  · intro h j hj e he hp hbefore
    rw [first_eq_some.mpr ⟨j, hj, he, hp, hbefore⟩] at h
    obtain ⟨k, hk, hke, hq, -⟩ := first_eq_some.mp h.symm
    refine ⟨hq, ?_⟩
    by_contra hjm
    exact hbefore k (by omega) e hke hp
  · intro h
    rcases hf : first g p n with _ | e
    · refine (first_eq_none.mpr fun j hj e he hq => ?_).symm
      exact first_eq_none.mp hf j (by omega) e he (hqp e hq)
    · obtain ⟨j, hj, he, hp, hbefore⟩ := first_eq_some.mp hf
      obtain ⟨hq, hjm⟩ := h j hj e he hp hbefore
      exact (first_eq_some.mpr ⟨j, hjm, he, hq, fun i hi e' he' hq' =>
        hbefore i hi e' he' (hqp e' hq')⟩).symm

/-- Where no two entries have the same key, a search for a key with a further test is the search
for the key, followed by the test. -/
theorem find_and {κ : Type} [DecidableEq κ] (key : α → κ) {l : List α}
    (hnodup : (l.map key).Nodup) (k : κ) :
    (l.find? fun e => key e = k ∧ p e) = (l.find? fun e => key e = k).filter fun e => p e := by
  induction l with
  | nil => rfl
  | cons a l ih =>
    rw [List.map_cons, List.nodup_cons] at hnodup
    by_cases hk : key a = k
    · have hnone : (l.find? fun e => key e = k ∧ p e) = none := by
        refine List.find?_eq_none.mpr fun e he => ?_
        have hne : key e ≠ k := fun h => hnodup.1 (List.mem_map.mpr ⟨e, he, h.trans hk.symm⟩)
        simp [hne]
      have hfound : ((a :: l).find? fun e => key e = k) = some a :=
        List.find?_cons_of_pos (decide_eq_true hk)
      rw [hfound]
      by_cases hp : p a
      · have hboth : ((a :: l).find? fun e => key e = k ∧ p e) = some a :=
          List.find?_cons_of_pos (decide_eq_true ⟨hk, hp⟩)
        rw [hboth, Option.filter_some, if_pos (decide_eq_true hp)]
      · have hskip : ((a :: l).find? fun e => key e = k ∧ p e) = none :=
          (List.find?_cons_of_neg (by simp [hp])).trans hnone
        rw [hskip, Option.filter_some, if_neg (by simpa using hp)]
    · have hskip : ((a :: l).find? fun e => key e = k ∧ p e) = l.find? fun e => key e = k ∧ p e :=
        List.find?_cons_of_neg (by simp [hk])
      have hskip' : ((a :: l).find? fun e => key e = k) = l.find? fun e => key e = k :=
        List.find?_cons_of_neg (by simpa using hk)
      rw [hskip, hskip', ih hnodup.2]

end RCar.Search
