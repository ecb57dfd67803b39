import RCarM3N.Lib.Prog

/-! Frames of programs that always return. -/

namespace RCar.Prog

variable {σ α β : Type}

/-- Every run returns, in a state that is related to the one it starts in. -/
def Returns (R : σ → σ → Prop) (x : Prog σ α) : Prop := ∀ s, ∃ a t, x.run s = (some a, t) ∧ R s t

theorem Returns.mono {R R' : σ → σ → Prop} {x : Prog σ α} (h : Returns R x) (hR : ∀ s s', R s s' → R' s s') :
    Returns R' x := by
  intro s
  obtain ⟨a, t, hrun, hst⟩ := h s
  exact ⟨a, t, hrun, hR s t hst⟩

theorem Returns.keeps {R : σ → σ → Prop} {x : Prog σ α} (h : Returns R x) : Keeps R x := by
  intro s
  obtain ⟨a, t, hrun, hst⟩ := h s
  rwa [hrun]

theorem Returns.ite {R : σ → σ → Prop} {c : Prop} [Decidable c] {x y : Prog σ α} (hx : Returns R x) (hy : Returns R y) :
    Returns R (if c then x else y) := by
  split
  · exact hx
  · exact hy

theorem Returns.modify {R : σ → σ → Prop} {f : σ → σ} (h : ∀ s, R s (f s)) : Returns R (Prog.modify f) :=
  fun s => ⟨(), f s, rfl, h s⟩

section Preorder

variable {R : σ → σ → Prop} [IsPreorder σ R]

theorem Returns.pure (a : α) : Returns R (pure a : Prog σ α) := fun s => ⟨a, s, rfl, refl_of R s⟩

/-- An early return. -/
theorem Returns.early {c : Prop} [Decidable c] {a : α} {x : Prog σ α} (hx : Returns R x) :
    Returns R (if c then Pure.pure a else x) := Returns.ite (Returns.pure a) hx

theorem Returns.get : Returns R (get : Prog σ σ) := fun s => ⟨s, s, rfl, refl_of R s⟩

/-- The second program need only return after the answers that the first one can give. -/
theorem Returns.bind_of {x : Prog σ α} {f : α → Prog σ β} {Q : α → Prop} (hx : Returns R x)
    (hans : Triple (fun _ => True) x (fun a _ => Q a) fun _ => True) (hf : ∀ a, Q a → Returns R (f a)) :
    Returns R (x >>= f) := by
  intro s
  obtain ⟨a, t, hrun, hst⟩ := hx s
  obtain ⟨b, u, hrun', htu⟩ := hf a (hans.some trivial hrun) t
  exact ⟨b, u, (run_bind_of_some hrun f).trans hrun', trans_of R hst htu⟩

theorem Returns.bind {x : Prog σ α} {f : α → Prog σ β} (hx : Returns R x) (hf : ∀ a, Returns R (f a)) :
    Returns R (x >>= f) := hx.bind_of (Triple.top x) fun a _ => hf a

theorem Returns.map {x : Prog σ α} {f : α → β} (hx : Returns R x) : Returns R (x >>= fun a => Pure.pure (f a)) :=
  hx.bind fun a => Returns.pure (f a)

end Preorder

/-- A fact that has no part in the state. -/
theorem Triple.given {c : Prop} {P : σ → Prop} {x : Prog σ α} {Q : α → σ → Prop} {E : σ → Prop}
    (h : c → Triple P x Q E) : Triple (fun s => c ∧ P s) x Q E := fun s hs => h hs.1 s hs.2

end RCar.Prog
