import Mathlib

/-! Slots that are held: a holder refers to its slot, the slot refers back to its holder, and a slot is marked as used as
long as it is held. What taking a free slot and giving a slot back do to this. -/

namespace RCar

variable {η κ : Type} {held : η → Option κ} {back : κ → Option η} {used : κ → Bool} {e : η} {k : κ}

/-- The three tables agree. -/
structure Holding (held : η → Option κ) (back : κ → Option η) (used : κ → Bool) : Prop where
  used_iff : ∀ k, used k = true ↔ ∃ e, held e = some k
  back_eq : ∀ e k, held e = some k → back k = some e

namespace Holding

/-- No two holders have the same slot. -/
theorem apart (h : Holding held back used) {e' : η} (he : held e = some k) (he' : held e' = some k) : e = e' :=
  Option.some_inj.mp ((h.back_eq e k he).symm.trans (h.back_eq e' k he'))

theorem used_iff_unique (h : Holding held back used) (k : κ) : used k = true ↔ ∃! e, held e = some k := by
  rw [h.used_iff]
  exact ⟨fun ⟨e, he⟩ => ⟨e, he, fun e' he' => h.apart he' he⟩, fun ⟨e, he, _⟩ => ⟨e, he⟩⟩

variable [DecidableEq η] [DecidableEq κ]

theorem take (h : Holding held back used) (he : held e = none) (hk : used k = false) :
    Holding (Function.update held e (some k)) (Function.update back k (some e)) (Function.update used k true) where
  used_iff := by
    intro j
    by_cases hj : j = k
    · rw [hj, Function.update_self]
      exact ⟨fun _ => ⟨e, Function.update_self e _ held⟩, fun _ => rfl⟩
    · rw [Function.update_of_ne hj, h.used_iff]
      apply exists_congr
      intro e'
      by_cases he' : e' = e
      · rw [he', Function.update_self, he]
        simp [Ne.symm hj]
      · rw [Function.update_of_ne he']
  back_eq := by
    intro e' j hj
    by_cases he' : e' = e
    · rw [he', Function.update_self] at hj
      rw [← Option.some_inj.mp hj, Function.update_self, he']
    · rw [Function.update_of_ne he'] at hj
      have hne : j ≠ k := by
        intro heq
        have hused := (h.used_iff j).mpr ⟨e', hj⟩
        rw [heq, hk] at hused
        cases hused
      rw [Function.update_of_ne hne]
      exact h.back_eq e' j hj

theorem release (h : Holding held back used) (he : held e = some k) :
    Holding (Function.update held e none) (Function.update back k none) (Function.update used k false) where
  used_iff := by
    intro j
    by_cases hj : j = k
    · rw [hj, Function.update_self]
      refine ⟨fun hfree => absurd hfree (by simp), fun ⟨e', he'⟩ => ?_⟩
      by_cases heq : e' = e
      · rw [heq, Function.update_self] at he'
        cases he'
      · rw [Function.update_of_ne heq] at he'
        exact absurd (h.apart he' he) heq
    · rw [Function.update_of_ne hj, h.used_iff]
      apply exists_congr
      intro e'
      by_cases he' : e' = e
      · rw [he', Function.update_self, he]
        simp [Ne.symm hj]
      · rw [Function.update_of_ne he']
  back_eq := by
    intro e' j hj
    by_cases he' : e' = e
    · rw [he', Function.update_self] at hj
      cases hj
    · rw [Function.update_of_ne he'] at hj
      have hne : j ≠ k := fun heq => he' (h.apart (heq ▸ hj) he)
      rw [Function.update_of_ne hne]
      exact h.back_eq e' j hj

end Holding

end RCar
