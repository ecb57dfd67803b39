import Mathlib

/-! The bakery protocol. Who wants in takes a ticket above every ticket that it reads and then waits
for each other party until it has no ticket, shows a later one, or has changed the one it showed. -/

namespace RCar.Bakery

variable {ι : Type*} [LinearOrder ι]

/-- `seen`: whose tickets were read; `passed`: who is no longer waited for; `ahead`: the party waited for and
the ticket that it showed. -/
inductive Phase (ι : Type*)
  | out
  | choosing (seen : Set ι) (best : ℕ)
  | waiting (ticket : ℕ) (passed : Set ι) (ahead : Option (ι × ℕ))

namespace Phase

/-- The ticket that others read, none while it is being chosen. -/
def shown : Phase ι → ℕ
  | waiting t _ _ => t
  | _ => 0

def Choosing : Phase ι → Prop
  | choosing _ _ => True
  | _ => False

/-- `i` waits for nobody. -/
def Holds (i : ι) : Phase ι → Prop
  | waiting _ passed _ => ∀ j, j ≠ i → j ∈ passed
  | _ => False

end Phase

open Phase

/-- The ticket `t` of `i` comes before the ticket `u` of `j`. -/
def Before (t : ℕ) (i : ι) (u : ℕ) (j : ι) : Prop := toLex (t, i) < toLex (u, j)

theorem Before.asymm {t u : ℕ} {i j : ι} (h : Before t i u j) : ¬ Before u j t i := lt_asymm h

theorem before_of_lt {t u : ℕ} (h : t < u) (i j : ι) : Before t i u j := Prod.Lex.toLex_lt_toLex.mpr (Or.inl h)

/-- What `i` may become by one read or write. -/
inductive Act (s : ι → Phase ι) (i : ι) : Phase ι → Prop
  | enter (h : s i = out) : Act s i (choosing ∅ 0)
  | look {seen : Set ι} {best : ℕ} (h : s i = choosing seen best) (j : ι) :
      Act s i (choosing (insert j seen) (max best (s j).shown))
  | choose {seen : Set ι} {best : ℕ} (h : s i = choosing seen best) (hall : ∀ j, j ≠ i → j ∈ seen) :
      Act s i (waiting (best + 1) ∅ none)
  | pass {t : ℕ} {passed : Set ι} (h : s i = waiting t passed none) (j : ι)
      (hj : j ≠ i → ¬ (s j).Choosing ∧ ((s j).shown = 0 ∨ Before t i (s j).shown j)) :
      Act s i (waiting t (insert j passed) none)
  | block {t : ℕ} {passed : Set ι} (h : s i = waiting t passed none) (j : ι) (hj : (s j).shown ≠ 0) :
      Act s i (waiting t passed (some (j, (s j).shown)))
  | unblock {t u : ℕ} {passed : Set ι} {j : ι} (h : s i = waiting t passed (some (j, u))) (hj : (s j).shown ≠ u) :
      Act s i (waiting t (insert j passed) none)
  | leave {t : ℕ} {passed : Set ι} {ahead : Option (ι × ℕ)} (h : s i = waiting t passed ahead) : Act s i out

/-- Whatever `j` does, it will not be served before the ticket `t` of `i`. -/
def Behind (i : ι) (t : ℕ) (j : ι) : Phase ι → Prop
  | out => True
  | choosing seen best => i ∈ seen → t ≤ best
  | waiting u _ _ => Before t i u j

/-- Who was passed is behind, and so is who was waited for once the ticket it showed has changed. -/
structure Wait (s : ι → Phase ι) (i : ι) (t : ℕ) (passed : Set ι) (ahead : Option (ι × ℕ)) : Prop where
  pos : 0 < t
  passed : ∀ j ∈ passed, j ≠ i → Behind i t j (s j)
  ahead : ∀ j u, ahead = some (j, u) → u ≠ 0 ∧ (j ≠ i → (s j).shown = u ∨ Behind i t j (s j))

def Inv (s : ι → Phase ι) : Prop :=
  ∀ i t passed ahead, s i = waiting t passed ahead → Wait s i t passed ahead

/-- A party that is behind stays behind. -/
theorem behind_act {s : ι → Phase ι} {i j : ι} {t : ℕ} {p : Phase ι} (hne : j ≠ i) (hi : (s i).shown = t)
    (h : Act s j p) (hj : Behind i t j (s j)) : Behind i t j p := by
  cases h with
  | enter h => exact fun hmem => absurd hmem (Set.notMem_empty i)
  | @look seen best h k =>
    rw [h] at hj
    intro hmem
    rcases Set.mem_insert_iff.mp hmem with rfl | hseen
    · rw [hi]
      exact le_max_right _ _
    · exact (hj hseen).trans (le_max_left _ _)
  | @choose seen best h hall =>
    rw [h] at hj
    exact before_of_lt (Nat.lt_succ_of_le (hj (hall i hne.symm))) i j
  | pass h k hk =>
    rw [h] at hj
    exact hj
  | block h k hk =>
    rw [h] at hj
    exact hj
  | unblock h hk =>
    rw [h] at hj
    exact hj
  | leave h => trivial

/-- A party that shows a ticket shows it until it leaves. -/
theorem shown_act {s : ι → Phase ι} {i j : ι} {t u : ℕ} {p : Phase ι} (h : Act s j p) (hu : u ≠ 0)
    (hj : (s j).shown = u) : p.shown = u ∨ Behind i t j p := by
  cases h with
  | enter h =>
    rw [h] at hj
    exact absurd hj.symm hu
  | look h k =>
    rw [h] at hj
    exact absurd hj.symm hu
  | choose h hall =>
    rw [h] at hj
    exact absurd hj.symm hu
  | pass h k hk =>
    rw [h] at hj
    exact Or.inl hj
  | block h k hk =>
    rw [h] at hj
    exact Or.inl hj
  | unblock h hk =>
    rw [h] at hj
    exact Or.inl hj
  | leave h => exact Or.inr trivial

/-- What a step of another party leaves of the wait of `i`. -/
theorem Wait.other {s : ι → Phase ι} {i j : ι} {t : ℕ} {passed : Set ι} {ahead : Option (ι × ℕ)} {p : Phase ι}
    (hne : j ≠ i) (hi : s i = waiting t passed ahead) (h : Act s j p) (hw : Wait s i t passed ahead) :
    Wait (Function.update s j p) i t passed ahead := by
  have hshown : (s i).shown = t := by rw [hi]; rfl
  refine ⟨hw.pos, ?_, ?_⟩
  · intro k hk hki
    by_cases hkj : k = j
    · subst hkj
      rw [Function.update_self]
      exact behind_act hne hshown h (hw.passed k hk hki)
    · rw [Function.update_of_ne hkj]
      exact hw.passed k hk hki
  · intro k u hu
    obtain ⟨hpos, hahead⟩ := hw.ahead k u hu
    refine ⟨hpos, fun hki => ?_⟩
    by_cases hkj : k = j
    · subst hkj
      rw [Function.update_self]
      rcases hahead hki with hsame | hbehind
      · exact shown_act h hpos hsame
      · exact Or.inr (behind_act hne hshown h hbehind)
    · rw [Function.update_of_ne hkj]
      exact hahead hki

/-- Passing one more party that is behind. -/
theorem Wait.insert {s : ι → Phase ι} {i j : ι} {t : ℕ} {passed : Set ι} {ahead : Option (ι × ℕ)}
    (hw : Wait s i t passed ahead) (hj : j ≠ i → Behind i t j (s j)) : Wait s i t (insert j passed) none := by
  refine ⟨hw.pos, ?_, by simp⟩
  intro k hk hki
  rcases Set.mem_insert_iff.mp hk with rfl | hk
  · exact hj hki
  · exact hw.passed k hk hki

/-- A wait says nothing about the waiting party itself. -/
theorem Wait.self {s : ι → Phase ι} {i : ι} {t : ℕ} {passed : Set ι} {ahead : Option (ι × ℕ)} (p : Phase ι)
    (hw : Wait s i t passed ahead) : Wait (Function.update s i p) i t passed ahead := by
  refine ⟨hw.pos, ?_, ?_⟩
  · intro k hk hki
    rw [Function.update_of_ne hki]
    exact hw.passed k hk hki
  · intro k u hu
    refine ⟨(hw.ahead k u hu).1, fun hki => ?_⟩
    rw [Function.update_of_ne hki]
    exact (hw.ahead k u hu).2 hki

/-- Who shows no ticket and is not choosing one is out. -/
theorem behind_of_shown {s : ι → Phase ι} {i j : ι} {t : ℕ} (hs : Inv s)
    (hchoosing : ¬ (s j).Choosing) (h : (s j).shown = 0 ∨ Before t i (s j).shown j) : Behind i t j (s j) := by
  cases hphase : s j with
  | out => trivial
  | choosing seen best =>
    rw [hphase] at hchoosing
    exact absurd trivial hchoosing
  | waiting u passed ahead =>
    rw [hphase] at h
    rcases h with h | h
    · exact absurd h (hs j u passed ahead hphase).pos.ne'
    · exact h

theorem Inv.act {s : ι → Phase ι} {j : ι} {p : Phase ι} (hs : Inv s) (h : Act s j p) : Inv (Function.update s j p) := by
  intro i t passed ahead hi
  by_cases hij : i = j
  · subst hij
    rw [Function.update_self] at hi
    apply Wait.self
    cases h with
    | enter h => cases hi
    | look h k => cases hi
    | choose h hall =>
      cases hi
      exact ⟨Nat.succ_pos _, by simp, by simp⟩
    | pass h k hk =>
      cases hi
      exact (hs i _ _ _ h).insert fun hki => behind_of_shown hs (hk hki).1 (hk hki).2
    | block h k hk =>
      cases hi
      have hw := hs i _ _ _ h
      refine ⟨hw.pos, hw.passed, ?_⟩
      intro k' u hu
      cases hu
      exact ⟨hk, fun _ => Or.inl rfl⟩
    | @unblock t u passed k h hk =>
      cases hi
      have hw := hs i _ _ _ h
      exact hw.insert fun hki => ((hw.ahead k u rfl).2 hki).resolve_left hk
    | leave h => cases hi
  · rw [Function.update_of_ne hij] at hi
    exact (hs i t passed ahead hi).other (fun h => hij h.symm) hi h

/-- Two parties never hold at once. -/
theorem Inv.exclusive {s : ι → Phase ι} (hs : Inv s) {i j : ι} (hi : (s i).Holds i) (hj : (s j).Holds j) : i = j := by
  by_contra hne
  cases hpi : s i with
  | out => rw [hpi] at hi; exact hi
  | choosing seen best => rw [hpi] at hi; exact hi
  | waiting t passed ahead =>
    cases hpj : s j with
    | out => rw [hpj] at hj; exact hj
    | choosing seen best => rw [hpj] at hj; exact hj
    | waiting u passed' ahead' =>
      rw [hpi] at hi
      rw [hpj] at hj
      have hij := (hs i t passed ahead hpi).passed j (hi j fun h => hne h.symm) fun h => hne h.symm
      have hji := (hs j u passed' ahead' hpj).passed i (hj i hne) hne
      rw [hpj] at hij
      rw [hpi] at hji
      exact hij.asymm hji

/-! ## First come, first served -/

/-- `i` has its ticket `t`, and `j` came after it: it can only wait for `i`. -/
def Follows (i : ι) (t : ℕ) (j : ι) (s : ι → Phase ι) : Prop :=
  0 < t ∧ (∃ passed ahead, s i = waiting t passed ahead) ∧ Behind i t j (s j) ∧
    ∀ u passed ahead, s j = waiting u passed ahead → i ∉ passed ∧ ∀ v, ahead = some (i, v) → v = t

/-- Until `i` leaves, every step keeps `j` after it. -/
theorem Follows.act {s : ι → Phase ι} {i j k : ι} {t : ℕ} {p : Phase ι} (hne : j ≠ i) (h : Act s k p)
    (hleave : k = i → p ≠ out) (hs : Follows i t j s) : Follows i t j (Function.update s k p) := by
  obtain ⟨hpos, ⟨passed, ahead, hi⟩, hbehind, hnever⟩ := hs
  have hshown : (s i).shown = t := by rw [hi]; rfl
  by_cases hki : k = i
  · subst hki
    have hp : ∃ passed ahead, p = waiting t passed ahead := by
      cases h with
      | enter h => rw [h] at hi; cases hi
      | look h => rw [h] at hi; cases hi
      | choose h => rw [h] at hi; cases hi
      | pass h => rw [h] at hi; cases hi; exact ⟨_, _, rfl⟩
      | block h => rw [h] at hi; cases hi; exact ⟨_, _, rfl⟩
      | unblock h => rw [h] at hi; cases hi; exact ⟨_, _, rfl⟩
      | leave h => exact absurd rfl (hleave rfl)
    obtain ⟨passed', ahead', rfl⟩ := hp
    refine ⟨hpos, ⟨passed', ahead', Function.update_self _ _ _⟩, ?_, ?_⟩ <;> rw [Function.update_of_ne hne]
    · exact hbehind
    · exact hnever
  · refine ⟨hpos, ⟨passed, ahead, by rw [Function.update_of_ne fun h => hki h.symm, hi]⟩, ?_⟩
    by_cases hkj : k = j
    · subst hkj
      rw [Function.update_self]
      refine ⟨behind_act hne hshown h hbehind, ?_⟩
      intro u passed' ahead' hp
      cases h with
      | enter h => cases hp
      | look h => cases hp
      | choose h => cases hp; simp
      | @pass u passed h l hl =>
        cases hp
        refine ⟨?_, by simp⟩
        intro hmem
        rcases Set.mem_insert_iff.mp hmem with rfl | hmem
        · -- passing `i` needs its ticket to come later
          rw [h] at hbehind
          have hlater := (hl hne.symm).2
          rw [hshown] at hlater
          exact hlater.elim hpos.ne' hbehind.asymm
        · exact (hnever u passed none h).1 hmem
      | @block u passed h l hl =>
        cases hp
        refine ⟨(hnever u _ none h).1, ?_⟩
        intro v hv
        cases hv
        exact hshown
      | @unblock u v passed l h hl =>
        cases hp
        refine ⟨?_, by simp⟩
        intro hmem
        rcases Set.mem_insert_iff.mp hmem with rfl | hmem
        · exact hl (hshown.trans ((hnever u passed _ h).2 v rfl).symm)
        · exact (hnever u passed _ h).1 hmem
      | leave h => cases hp
    · rw [Function.update_of_ne fun h => hkj h.symm]
      exact ⟨hbehind, hnever⟩

theorem Follows.not_holds {s : ι → Phase ι} {i j : ι} {t : ℕ} (hne : j ≠ i) (hs : Follows i t j s) :
    ¬ (s j).Holds j := by
  obtain ⟨-, -, -, hnever⟩ := hs
  intro hj
  cases hp : s j with
  | out => rw [hp] at hj; exact hj
  | choosing seen best => rw [hp] at hj; exact hj
  | waiting u passed ahead =>
    rw [hp] at hj
    exact (hnever u passed ahead hp).1 (hj i hne.symm)

end RCar.Bakery
