import RCarM3N.Lib.Sizes

/-! State-passing programs that may fail to return, with the rules used to reason
about them: the state reached so far is kept when a program does not return, so that a
rule can also speak about what a run that never ends has already done. -/

namespace RCar

/-- A program over states `σ`: `none` is a program that does not return. -/
def Prog (σ α : Type) : Type := σ → Option α × σ

namespace Prog

variable {σ α β γ : Type}

def run (x : Prog σ α) (s : σ) : Option α × σ := x s

instance : Monad (Prog σ) where
  pure a := fun s => (some a, s)
  bind x f := fun s => match x s with
    | (some a, s') => f a s'
    | (none, s') => (none, s')

def get : Prog σ σ := fun s => (some s, s)

def modify (f : σ → σ) : Prog σ Unit := fun s => (some (), f s)

def stuck : Prog σ α := fun s => (none, s)

@[simp] theorem run_pure (a : α) (s : σ) : (pure a : Prog σ α).run s = (some a, s) := rfl

@[simp] theorem run_get (s : σ) : (get : Prog σ σ).run s = (some s, s) := rfl

@[simp] theorem run_modify (f : σ → σ) (s : σ) : (modify f).run s = (some (), f s) := rfl

@[simp] theorem run_stuck (s : σ) : (stuck : Prog σ α).run s = (none, s) := rfl

theorem run_bind (x : Prog σ α) (f : α → Prog σ β) (s : σ) :
    (x >>= f).run s = match x.run s with
      | (some a, s') => (f a).run s'
      | (none, s') => (none, s') := rfl

theorem run_ite (c : Prop) [Decidable c] (x y : Prog σ α) (s : σ) :
    (if c then x else y).run s = if c then x.run s else y.run s := by
  split <;> rfl

theorem run_bind_of_some {x : Prog σ α} {s s' : σ} {a : α} (h : x.run s = (some a, s'))
    (f : α → Prog σ β) : (x >>= f).run s = (f a).run s' := by
  rw [run_bind, h]

theorem run_unique {x : Prog σ α} {s t u : σ} {a b : α} (h : x.run s = (some a, t))
    (h' : x.run s = (some b, u)) : a = b ∧ t = u := by
  rw [h] at h'
  exact ⟨Option.some.inj (congrArg Prod.fst h'), congrArg Prod.snd h'⟩

@[simp] theorem run_bind_pure (a : α) (f : α → Prog σ β) (s : σ) :
    (pure a >>= f).run s = (f a).run s := rfl

@[simp] theorem run_bind_get (f : σ → Prog σ β) (s : σ) : (get >>= f).run s = (f s).run s := rfl

@[simp] theorem run_bind_modify (g : σ → σ) (f : Unit → Prog σ β) (s : σ) :
    (modify g >>= f).run s = (f ()).run (g s) := rfl

theorem run_bind_of_none {x : Prog σ α} {s s' : σ} (h : x.run s = (none, s'))
    (f : α → Prog σ β) : (x >>= f).run s = (none, s') := by
  rw [run_bind, h]

theorem pure_bind (a : α) (f : α → Prog σ β) : (pure a >>= f : Prog σ β) = f a := rfl

theorem bind_assoc (x : Prog σ α) (f : α → Prog σ β) (g : β → Prog σ γ) :
    (x >>= f) >>= g = x >>= fun a => f a >>= g := by
  funext s
  change ((x >>= f) >>= g).run s = (x >>= fun a => f a >>= g).run s
  rw [run_bind, run_bind, run_bind]
  rcases x.run s with ⟨_ | a, t⟩ <;> rfl

theorem run_bind_fst_of_none {x : Prog σ α} {s : σ} (h : (x.run s).1 = none)
    (f : α → Prog σ β) : ((x >>= f).run s).1 = none := by
  rw [run_bind]
  rcases hx : x.run s with ⟨_ | a, t⟩
  · rfl
  · rw [hx] at h
    cases h

/-- A sequence that returns is a first part that returns and a second one that does. -/
theorem run_bind_eq_some {x : Prog σ α} {f : α → Prog σ β} {s s' : σ} {b : β}
    (h : (x >>= f).run s = (some b, s')) :
    ∃ a t, x.run s = (some a, t) ∧ (f a).run t = (some b, s') := by
  rw [run_bind] at h
  rcases hx : x.run s with ⟨_ | a, t⟩ <;> rw [hx] at h
  · cases h
  · exact ⟨a, t, rfl, h⟩

/-- From `P`, a run that returns ends in `Q` and one that does not has reached `E`. -/
def Triple (P : σ → Prop) (x : Prog σ α) (Q : α → σ → Prop) (E : σ → Prop) : Prop :=
  ∀ s, P s → match x.run s with
    | (some a, s') => Q a s'
    | (none, s') => E s'

theorem Triple.some {P : σ → Prop} {x : Prog σ α} {Q : α → σ → Prop} {E : σ → Prop}
    (h : Triple P x Q E) {s s' : σ} {a : α} (hs : P s) (hx : x.run s = (some a, s')) :
    Q a s' := by
  have := h s hs
  rwa [hx] at this

theorem Triple.top (x : Prog σ α) :
    Triple (fun _ => True) x (fun _ _ => True) fun _ => True := by
  intro s _
  rcases x.run s with ⟨_ | a, t⟩ <;> trivial

theorem Triple.pure {Q : α → σ → Prop} {E : σ → Prop} (a : α) :
    Triple (Q a) (pure a) Q E :=
  fun _ hs => hs

theorem Triple.stuck {Q : α → σ → Prop} {E : σ → Prop} : Triple E (Prog.stuck) Q E :=
  fun _ hs => hs

theorem Triple.modify {Q : Unit → σ → Prop} {E : σ → Prop} (f : σ → σ) :
    Triple (fun s => Q () (f s)) (Prog.modify f) Q E :=
  fun _ hs => hs

theorem Triple.bind {P : σ → Prop} {x : Prog σ α} {R : α → σ → Prop} {f : α → Prog σ β}
    {Q : β → σ → Prop} {E : σ → Prop} (hx : Triple P x R E) (hf : ∀ a, Triple (R a) (f a) Q E) :
    Triple P (x >>= f) Q E := by
  intro s hs
  have h := hx s hs
  rw [run_bind]
  rcases hr : x.run s with ⟨_ | a, t⟩ <;> rw [hr] at h
  · exact h
  · exact hf a t h

theorem Triple.get {Q : σ → σ → Prop} {E : σ → Prop} : Triple (fun s => Q s s) Prog.get Q E :=
  fun _ hs => hs

theorem Triple.conseq {P P' : σ → Prop} {x : Prog σ α} {Q Q' : α → σ → Prop} {E E' : σ → Prop}
    (h : Triple P x Q E) (hP : ∀ s, P' s → P s) (hQ : ∀ a s, Q a s → Q' a s)
    (hE : ∀ s, E s → E' s) : Triple P' x Q' E' := by
  intro s hs
  have h1 := h s (hP s hs)
  rcases hr : x.run s with ⟨_ | a, t⟩ <;> rw [hr] at h1
  · exact hE _ h1
  · exact hQ _ _ h1

theorem Triple.and {P P' : σ → Prop} {x : Prog σ α} {Q Q' : α → σ → Prop} {E E' : σ → Prop}
    (h : Triple P x Q E) (h' : Triple P' x Q' E') :
    Triple (fun s => P s ∧ P' s) x (fun a s => Q a s ∧ Q' a s) fun s => E s ∧ E' s := by
  intro s hs
  have h1 := h s hs.1
  have h2 := h' s hs.2
  rcases hr : x.run s with ⟨_ | a, t⟩ <;> rw [hr] at h1 h2
  · exact ⟨h1, h2⟩
  · exact ⟨h1, h2⟩

theorem Triple.ite {P : σ → Prop} {c : Prop} [Decidable c] {x y : Prog σ α}
    {Q : α → σ → Prop} {E : σ → Prop} (hx : c → Triple P x Q E) (hy : ¬ c → Triple P y Q E) :
    Triple P (if c then x else y) Q E := by
  split
  · exact hx ‹_›
  · exact hy ‹_›

/-- The loop rule: an invariant over the accumulator and the state that each iteration
keeps holds after the loop. -/
theorem Triple.foldlM {I : β → σ → Prop} {E : σ → Prop} {f : β → γ → Prog σ β} {l : List γ}
    (hf : ∀ b, ∀ c ∈ l, Triple (I b) (f b c) I E) (b : β) :
    Triple (I b) (l.foldlM f b) I E := by
  induction l generalizing b with
  | nil => exact Triple.pure b
  | cons c l ih =>
    rw [List.foldlM_cons]
    exact Triple.bind (hf b c (by simp)) fun b' =>
      ih (fun b'' c' hc' => hf b'' c' (by simp [hc'])) b'

/-- Every run from `P` returns. -/
def Total (P : σ → Prop) (x : Prog σ α) : Prop := Triple P x (fun _ _ => True) fun _ => False

theorem Total.returns {P : σ → Prop} {x : Prog σ α} (h : Total P x) {s : σ} (hs : P s) :
    ∃ a s', x.run s = (some a, s') := by
  have h1 := h s hs
  rcases hr : x.run s with ⟨_ | a, t⟩ <;> rw [hr] at h1
  · exact h1.elim
  · exact ⟨a, t, rfl⟩

theorem Total.of_run {P : σ → Prop} {x : Prog σ α} (h : ∀ s, ∃ a s', x.run s = (some a, s')) :
    Total P x := by
  intro s _
  obtain ⟨a, s', hx⟩ := h s
  rw [hx]
  trivial

theorem Total.pure {P : σ → Prop} (a : α) : Total P (pure a : Prog σ α) := fun _ _ => trivial

theorem Total.bind {P : σ → Prop} {x : Prog σ α} {f : α → Prog σ β} (hx : Total P x)
    (hf : ∀ a, Total (fun _ => True) (f a)) : Total P (x >>= f) :=
  Triple.bind hx hf

/-! ## Frames -/

/-- Every run relates the state it starts in to the one it reaches, whether it returns or not. -/
def Keeps (R : σ → σ → Prop) (x : Prog σ α) : Prop := ∀ s, R s (x.run s).2

theorem Keeps.mono {R R' : σ → σ → Prop} {x : Prog σ α} (h : Keeps R x) (hR : ∀ s s', R s s' → R' s s') :
    Keeps R' x := fun s => hR _ _ (h s)

theorem Keeps.ite {R : σ → σ → Prop} {c : Prop} [Decidable c] {x y : Prog σ α} (hx : Keeps R x) (hy : Keeps R y) :
    Keeps R (if c then x else y) := by
  split
  · exact hx
  · exact hy

section Keeps

variable {R : σ → σ → Prop} [IsPreorder σ R]

theorem Keeps.pure (a : α) : Keeps R (pure a : Prog σ α) := fun s => refl_of R s

theorem Keeps.get : Keeps R (get : Prog σ σ) := fun s => refl_of R s

theorem Keeps.stuck : Keeps R (Prog.stuck : Prog σ α) := fun s => refl_of R s

theorem Keeps.bind {x : Prog σ α} {f : α → Prog σ β} (hx : Keeps R x) (hf : ∀ a, Keeps R (f a)) :
    Keeps R (x >>= f) := by
  intro s
  have h := hx s
  rw [run_bind]
  rcases hr : x.run s with ⟨_ | a, t⟩ <;> rw [hr] at h
  · exact h
  · exact trans_of R h (hf a t)

theorem Keeps.foldlM {f : β → γ → Prog σ β} (hf : ∀ b c, Keeps R (f b c)) (l : List γ) (b : β) :
    Keeps R (l.foldlM f b) := by
  induction l generalizing b with
  | nil => exact Keeps.pure b
  | cons c l ih =>
    rw [List.foldlM_cons]
    exact Keeps.bind (hf b c) ih

end Keeps

/-- What a frame keeps holds after a run. -/
theorem Keeps.triple {R : σ → σ → Prop} {x : Prog σ α} (hx : Keeps R x) {P : σ → Prop}
    (hP : ∀ s s', P s → R s s' → P s') : Triple P x (fun _ => P) P := by
  intro s hs
  have h := hx s
  rcases hr : x.run s with ⟨_ | a, t⟩ <;> rw [hr] at h
  · exact hP s t hs h
  · exact hP s t hs h

end Prog

end RCar
