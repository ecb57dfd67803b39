import Mathlib

/-! Sequences of calls to a component, each made in the state that the calls before it left, and the rule that carries
an invariant along them: where a call that meets a condition does right and keeps the invariant, and one that does right
meets the condition, a sequence does right exactly if all its calls meet it. -/

namespace RCar

variable {σ γ : Type}

/-- The calls of a sequence with the states that they are made in; a call that does not return is the last. -/
def trace (step : σ → γ → Option σ) : σ → List γ → List (σ × γ)
  | _, [] => []
  | s, c :: cs =>
    (s, c) ::
      match step s c with
      | none => []
      | some t => trace step t cs

variable {step : σ → γ → Option σ} {I : σ → Prop} {Right Meets : σ → γ → Prop} {s t : σ} {c : γ} {cs : List γ}

@[simp] theorem trace_nil : trace step s [] = [] := rfl

theorem trace_cons (h : step s c = some t) : trace step s (c :: cs) = (s, c) :: trace step t cs := by
  rw [trace, h]

@[simp] theorem trace_singleton : trace step s [c] = [(s, c)] := by
  rw [trace]
  cases step s c <;> rfl

/-- Where every call does right and keeps the invariant, all calls of a sequence do right. -/
theorem trace_right (hstep : ∀ s c, I s → Right s c ∧ ∃ t, step s c = some t ∧ I t) (hs : I s) (cs : List γ) :
    ∀ x ∈ trace step s cs, Right x.1 x.2 := by
  induction cs generalizing s with
  | nil => simp
  | cons c cs ih =>
    obtain ⟨hr, t, ht, hi⟩ := hstep s c hs
    rw [trace_cons ht, List.forall_mem_cons]
    exact ⟨hr, ih hi⟩

theorem trace_right_iff (hmeets : ∀ s c, I s → Meets s c → Right s c ∧ ∃ t, step s c = some t ∧ I t)
    (hright : ∀ s c, I s → Right s c → Meets s c) (hs : I s) (cs : List γ) :
    (∀ x ∈ trace step s cs, Right x.1 x.2) ↔ ∀ x ∈ trace step s cs, Meets x.1 x.2 := by
  induction cs generalizing s with
  | nil => simp
  | cons c cs ih =>
    by_cases hc : Meets s c
    · obtain ⟨hr, t, ht, hi⟩ := hmeets s c hs hc
      rw [trace_cons ht, List.forall_mem_cons, List.forall_mem_cons, ih hi]
      simp [hr, hc]
    · have hr : ¬ Right s c := fun h => hc (hright s c hs h)
      rw [trace, List.forall_mem_cons, List.forall_mem_cons]
      simp [hr, hc]

end RCar
