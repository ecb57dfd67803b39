import Mathlib

/-! Runs of a labelled transition relation, with the invariant rule over every step of a run
and a budget rule for runs in which one kind of answer uses something up. -/

namespace RCar

variable {σ ρ : Type}

/-- The steps of a run, each with the state before it, its label and the state after it. -/
inductive Runs (step : σ → ρ → σ → Prop) : σ → List (σ × ρ × σ) → σ → Prop
  | nil (s : σ) : Runs step s [] s
  | cons {s t u : σ} {r : ρ} {l : List (σ × ρ × σ)} (h : step s r t) (hl : Runs step t l u) :
      Runs step s ((s, r, t) :: l) u

namespace Runs

variable {step : σ → ρ → σ → Prop} {s t : σ} {l : List (σ × ρ × σ)}

/-- The labels of a run. -/
def labels (l : List (σ × ρ × σ)) : List ρ := l.map fun x => x.2.1

/-- What holds at the start and is kept by every step holds at the end and around every
step, with what the step then does. -/
theorem invariant {I : σ → Prop} {P : σ → ρ → σ → Prop}
    (hstep : ∀ s r t, I s → step s r t → I t ∧ P s r t) (hs : I s) (h : Runs step s l t) :
    I t ∧ ∀ x ∈ l, P x.1 x.2.1 x.2.2 := by
  induction h with
  | nil s => exact ⟨hs, by simp⟩
  | cons h hl ih =>
    obtain ⟨ht, hp⟩ := hstep _ _ _ hs h
    obtain ⟨hu, hps⟩ := ih ht
    exact ⟨hu, List.forall_mem_cons.mpr ⟨hp, hps⟩⟩

/-- Once stopped, every step answers `stop`. -/
theorem labels_of_stopped {S : σ → Prop} {stop : ρ}
    (hstop : ∀ s r t, S s → step s r t → r = stop ∧ S t) (hs : S s) (h : Runs step s l t) :
    labels l = List.replicate l.length stop := by
  induction h with
  | nil s => rfl
  | cons h hl ih =>
    obtain ⟨rfl, ht⟩ := hstop _ _ _ hs h
    rw [labels, List.map_cons, List.length_cons, List.replicate_succ]
    exact congrArg _ (ih ht)

/-- Where every answer `good` uses up some of `m` and any other answer is `stop` for ever, a
run is at most `m` good answers and then stops. -/
theorem budget {I S : σ → Prop} {m : σ → ℕ} {good stop : ρ}
    (hstep : ∀ s r t, I s → step s r t →
      (r = good ∧ I t ∧ m t + 1 ≤ m s) ∨ (r = stop ∧ S t))
    (hstop : ∀ s r t, S s → step s r t → r = stop ∧ S t) (hs : I s) (h : Runs step s l t) :
    ∃ k ≤ m s, k ≤ l.length ∧
      labels l = List.replicate k good ++ List.replicate (l.length - k) stop := by
  induction h with
  | nil s => exact ⟨0, Nat.zero_le _, Nat.zero_le _, rfl⟩
  | cons h hl ih =>
    rcases hstep _ _ _ hs h with ⟨rfl, ht, hm⟩ | ⟨rfl, ht⟩
    · obtain ⟨k, hk, hkl, hlab⟩ := ih ht
      refine ⟨k + 1, by omega, by simpa using hkl, ?_⟩
      rw [labels, List.map_cons, List.length_cons, List.replicate_succ, Nat.add_sub_add_right,
        List.cons_append]
      exact congrArg _ hlab
    · refine ⟨0, Nat.zero_le _, Nat.zero_le _, ?_⟩
      rw [labels, List.map_cons, List.length_cons, Nat.sub_zero, List.replicate_succ,
        List.replicate_zero, List.nil_append]
      exact congrArg _ (labels_of_stopped hstop ht hl)

end Runs

end RCar
