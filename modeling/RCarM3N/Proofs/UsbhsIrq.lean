import RCarM3N.Lib.Runs
import RCarM3N.Model.UsbhsIrq

/-! Which interrupt events get lost: the acknowledging writes to INTSTS0 also clear the bits that the mask of INTSTS1 leaves
out. -/

namespace RCar.Usbhs

variable {s t : State} {st : IrqState} {b : Branch} {r : Reg} {i : ℕ}

/-! ## The purpose -/

/-- The events that have a callback, those of the pipes by pipe. -/
inductive Event where
  | vbint | dvst | ctrt | bemp (pipe : ℕ) | brdy (pipe : ℕ)
deriving DecidableEq

def Event.reg : Event → Reg
  | .vbint | .dvst | .ctrt => .INTSTS0
  | .bemp _ => .BEMPSTS
  | .brdy _ => .BRDYSTS

def Event.bit : Event → ℕ
  | .vbint => 15
  | .dvst => 12
  | .ctrt => 11
  | .bemp i => i
  | .brdy i => i

/-- The event is pending in its register. -/
def Regs.Has (regs : Regs) (e : Event) : Prop := (regs.get e.reg).getLsbD e.bit = true

/-- The callback of a branch handles the event. -/
def Branch.Handles (st : IrqState) (b : Branch) (e : Event) : Prop :=
  match b.callback, e with
  | some .irqVbus, .vbint => True
  | some .irqDevState, .dvst => True
  | some .irqCtrlStage, .ctrt => True
  | some .irqEmpty, .bemp i => i ∈ pipesOf st.bempsts
  | some .irqReady, .brdy i => i ∈ pipesOf st.brdysts
  | _, _ => False

/-- The call that is going on will still make the callback of the event. -/
def Pc.Ahead : Pc → Event → Prop
  | .handling st l, e => ∃ b ∈ l, st.intsts0 &&& b.bit ≠ 0 ∧ b.Handles st e
  | .acked st b l, e => b.Handles st e ∨ ∃ b ∈ l, st.intsts0 &&& b.bit ≠ 0 ∧ b.Handles st e
  | _, _ => False

/-- A machine with the events that have occurred and whose callback has not been made since. -/
structure System where
  state : State
  owed : Set Event

/-- What is owed after a step. -/
def owedAfter (s : State) (owed : Set Event) : Action → Set Event
  | .event a => owed ∪ {e | (Regs.raise ⟨0, 0, 0, 0⟩ a).Has e}
  | .call _ => owed
  | .next _ =>
    match s.pc with
    | .acked st b _ => owed \ {e | b.Handles st e}
    | _ => owed

inductive Step : System → Action → System → Prop
  | mk {s : System} {a : Action} {t : State} (h : s.state.step a = some t) :
      Step s a ⟨t, owedAfter s.state s.owed a⟩

/-- No event is lost. -/
def Kept (s : System) : Prop := ∀ e ∈ s.owed, s.state.regs.Has e ∨ s.state.pc.Ahead e

/-- The next step of a call acknowledges the branch `b`. -/
def Acks (s : State) (st : IrqState) (b : Branch) : Prop :=
  ∃ l, s.pc = .handling st (b :: l) ∧ st.intsts0 &&& b.bit ≠ 0

/-- The bits that belong to the event of a branch; VALID belongs to the control transfer. -/
def Branch.own (st : IrqState) : Branch → Regs
  | .vbint => ⟨VBINT, 0, 0, 0⟩
  | .dvst => ⟨DVST, 0, 0, 0⟩
  | .ctrt => ⟨CTRT ||| VALID, 0, 0, 0⟩
  | .bemp => ⟨0, 0, 0, st.bempsts⟩
  | .brdy => ⟨0, st.brdysts, 0, 0⟩
  | .nrdy => ⟨0, 0, st.nrdysts, 0⟩

/-- An acknowledging write clears no bits but those of the event whose callback follows. -/
def ClearsOwn (s : System) (a : Action) (t : System) : Prop :=
  ∀ device st b, a = .next device → Acks s.state st b → ∀ r i, (s.state.regs.get r).getLsbD i = true →
    (t.state.regs.get r).getLsbD i = false → ((b.own st).get r).getLsbD i = true

/-- Before the first call: the events that have occurred are pending. -/
structure Fresh (s : System) : Prop where
  idle : s.state.pc = .idle
  latched : s.state.regs.intsts0 &&& ~~~LATCHED = 0
  owed : ∀ e ∈ s.owed, s.state.regs.Has e

/-- The bits that must not be pending when a branch is acknowledged. -/
def Branch.forbidden : Branch → BitVec 16
  | .vbint => DVST ||| RESM ||| VALID
  | .dvst => RESM ||| VALID
  | .ctrt => DVST ||| RESM
  | .bemp | .brdy | .nrdy => 0

/-- The condition on a step. -/
def Meets (s : System) : Action → Prop
  | .next _ => ∀ st b, Acks s.state st b → s.state.regs.intsts0 &&& b.forbidden = 0
  | _ => True

/-! ## Bits -/

theorem and_eq_zero_iff {x y : BitVec 16} : x &&& y = 0 ↔ ∀ i, x.getLsbD i = true → y.getLsbD i = false := by
  constructor
  · intro h i hx
    have hi := congrArg (fun z : BitVec 16 => z.getLsbD i) h
    simpa [hx] using hi
  · intro h
    apply BitVec.eq_of_getLsbD_eq
    intro i _
    cases hx : x.getLsbD i with
    | false => simp [hx]
    | true => simp [hx, h i hx]

theorem getLsbD_of_and_not {x y : BitVec 16} (h : x &&& ~~~y = 0) {i : ℕ} (hx : x.getLsbD i = true) :
    y.getLsbD i = true := by
  have hi := and_eq_zero_iff.mp h i hx
  rw [BitVec.getLsbD_not, decide_eq_true (BitVec.lt_of_getLsbD hx)] at hi
  simpa using hi

theorem and_shift_ne_zero {sts : BitVec 16} {i : ℕ} (hi : i < 16) : sts &&& (1#16 <<< i) ≠ 0 ↔ sts.getLsbD i = true := by
  have hbit : ∀ j, (1#16 <<< i).getLsbD j = decide (j = i) := by
    intro j
    rw [BitVec.getLsbD_shiftLeft]
    by_cases h : j = i
    · simp [h, hi]
    · have hone : ∀ k, k ≠ 0 → (1#16).getLsbD k = false := by simp
      by_cases hlt : j < i
      · simp [h, hlt]
      · simp [h, hone (j - i) (by omega)]
  rw [not_iff_comm, Bool.not_eq_true, and_eq_zero_iff]
  constructor
  · intro h j hj
    rw [hbit, decide_eq_false]
    rintro rfl
    rw [h] at hj
    cases hj
  · intro h
    by_contra hset
    have hi' := h i (by simpa using hset)
    rw [hbit] at hi'
    simp at hi'

theorem mem_pipesOf {sts : BitVec 16} : i ∈ pipesOf sts ↔ sts.getLsbD i = true := by
  unfold pipesOf
  constructor
  · intro h
    split_ifs at h with h0
    · simp at h
    · obtain ⟨hi, hbit⟩ := List.mem_filter.mp h
      exact (and_shift_ne_zero (List.mem_range.mp hi)).mp (of_decide_eq_true hbit)
  · intro h
    have hi : i < 16 := BitVec.lt_of_getLsbD h
    have h0 : sts ≠ 0 := by
      rintro rfl
      simp at h
    rw [if_neg h0]
    exact List.mem_filter.mpr ⟨List.mem_range.mpr hi, decide_eq_true ((and_shift_ne_zero hi).mpr h)⟩

/-- A write clears the bits that it writes as 0, in its own register. -/
theorem get_write (regs : Regs) (r r' : Reg) (v : BitVec 16) :
    (regs.write r v).get r' = if r' = r then regs.get r &&& v else regs.get r' := by
  cases r <;> cases r' <;> rfl

theorem get_raise (regs a : Regs) (r : Reg) (h : (regs.get r).getLsbD i = true) : ((regs.raise a).get r).getLsbD i = true := by
  cases r <;> simp_all [Regs.get, Regs.raise]

/-! ## The acknowledging writes -/

/-- Which bits an acknowledging write may clear besides those of its event, and only if they are pending. -/
theorem ack_mask : ∀ b : Branch, ∀ st : IrqState, (b.ack st).1 = .INTSTS0 →
    (~~~(b.ack st).2 &&& LATCHED &&& ~~~(b.own st).intsts0) &&& ~~~b.forbidden = 0 ∧
      b.forbidden &&& ((b.ack st).2 ||| (b.own st).intsts0) = 0 := by
  intro b st h
  cases b with
  | vbint =>
    simp only [Branch.ack, Branch.own, Branch.forbidden]
    decide
  | dvst =>
    simp only [Branch.ack, Branch.own, Branch.forbidden]
    decide
  | ctrt =>
    simp only [Branch.ack, Branch.own, Branch.forbidden]
    decide
  | bemp => cases h
  | brdy => cases h
  | nrdy => cases h

/-- The pipe registers are acknowledged with the bits that were read. -/
theorem ack_pipes (h : (b.ack st).1 ≠ .INTSTS0) : (b.ack st).2 = ~~~((b.own st).get (b.ack st).1) := by
  cases b <;> first | rfl | exact absurd rfl h

/-- The bits that a branch owns are events that its callback handles. -/
theorem own_handles {e : Event} (h : (b.own st).Has e) : b.Handles st e := by
  have hconst : ∀ b : Branch, b ≠ .bemp → b ≠ .brdy → ∀ e : Event, ((b.own st).get e.reg).getLsbD e.bit = true →
      b.Handles st e := by
    intro b h1 h2 e he
    cases b <;> cases e <;>
      simp_all [Branch.own, Regs.get, Event.reg, Event.bit, Branch.Handles, Branch.callback, VBINT, DVST, CTRT, VALID]
  cases b with
  | bemp =>
    cases e with
    | bemp i => exact mem_pipesOf.mpr h
    | _ => simp [Regs.Has, Branch.own, Regs.get, Event.reg] at h
  | brdy =>
    cases e with
    | brdy i => exact mem_pipesOf.mpr h
    | _ => simp [Regs.Has, Branch.own, Regs.get, Event.reg] at h
  | vbint => exact hconst _ (by decide) (by decide) e h
  | dvst => exact hconst _ (by decide) (by decide) e h
  | ctrt => exact hconst _ (by decide) (by decide) e h
  | nrdy => exact hconst _ (by decide) (by decide) e h

theorem write_clears_own {regs : Regs} (hlatched : regs.intsts0 &&& ~~~LATCHED = 0)
    (hfree : regs.intsts0 &&& b.forbidden = 0) (hset : (regs.get r).getLsbD i = true)
    (hclear : ((regs.write (b.ack st).1 (b.ack st).2).get r).getLsbD i = false) :
    ((b.own st).get r).getLsbD i = true := by
  have hi : i < 16 := BitVec.lt_of_getLsbD hset
  rw [get_write] at hclear
  split_ifs at hclear with hr
  · subst hr
    rw [BitVec.getLsbD_and, hset, Bool.true_and] at hclear
    by_cases h0 : (b.ack st).1 = .INTSTS0
    · rw [h0] at hset ⊢
      have hmask := (ack_mask b st h0).1
      have hl : LATCHED.getLsbD i = true := getLsbD_of_and_not hlatched hset
      have hf : b.forbidden.getLsbD i = false := and_eq_zero_iff.mp hfree i hset
      by_contra hown
      change ¬(b.own st).intsts0.getLsbD i = true at hown
      rw [Bool.not_eq_true] at hown
      have hbit : (~~~(b.ack st).2 &&& LATCHED &&& ~~~(b.own st).intsts0).getLsbD i = true := by
        simp only [BitVec.getLsbD_and, BitVec.getLsbD_not, hclear, hl, hown, hi, decide_true, Bool.not_false, Bool.and_self]
      rw [getLsbD_of_and_not hmask hbit] at hf
      cases hf
    · rw [ack_pipes h0, BitVec.getLsbD_not, decide_eq_true hi] at hclear
      simpa using hclear
  · rw [hset] at hclear
    cases hclear

theorem forbidden_of_clears_own {regs : Regs} (h : ∀ r i, (regs.get r).getLsbD i = true →
    ((regs.write (b.ack st).1 (b.ack st).2).get r).getLsbD i = false → ((b.own st).get r).getLsbD i = true) :
    regs.intsts0 &&& b.forbidden = 0 := by
  rw [and_eq_zero_iff]
  intro i hset
  by_contra hf
  rw [Bool.not_eq_false] at hf
  have h0 : (b.ack st).1 = .INTSTS0 := by
    cases b with
    | vbint => rfl
    | dvst => rfl
    | ctrt => rfl
    | bemp => simp [Branch.forbidden] at hf
    | brdy => simp [Branch.forbidden] at hf
    | nrdy => simp [Branch.forbidden] at hf
  have hmask := and_eq_zero_iff.mp (ack_mask b st h0).2 i hf
  rw [BitVec.getLsbD_or, Bool.or_eq_false_iff] at hmask
  have hclear : ((regs.write (b.ack st).1 (b.ack st).2).get .INTSTS0).getLsbD i = false := by
    rw [get_write, if_pos h0.symm, BitVec.getLsbD_and, hmask.1, Bool.and_false]
  have hown := h .INTSTS0 i hset hclear
  change (b.own st).intsts0.getLsbD i = true at hown
  rw [hmask.2] at hown
  cases hown

/-! ## The steps -/

theorem step_ack (hacks : Acks s st b) {device : BitVec 16} (h : s.step (.next device) = some t) :
    ∃ l, s.pc = .handling st (b :: l) ∧ t = ⟨s.regs.write (b.ack st).1 (b.ack st).2, .acked st b l⟩ := by
  obtain ⟨l, hpc, hbit⟩ := hacks
  refine ⟨l, hpc, ?_⟩
  simp only [State.step, hpc, if_pos hbit, Option.some.injEq] at h
  exact h.symm

/-- The condition says exactly that the step clears no foreign bits. -/
theorem meets_iff_clearsOwn {s t : System} {a : Action} (hlatched : s.state.regs.intsts0 &&& ~~~LATCHED = 0)
    (h : Step s a t) : Meets s a ↔ ClearsOwn s a t := by
  cases h with
  | mk hstep =>
    cases a with
    | event a => exact ⟨fun _ _ _ _ ha => (nomatch ha), fun _ => trivial⟩
    | call stack => exact ⟨fun _ _ _ _ ha => (nomatch ha), fun _ => trivial⟩
    | next device =>
      constructor
      · intro hmeets device' st b _ hacks r i hset hclear
        obtain ⟨l, -, rfl⟩ := step_ack hacks hstep
        exact write_clears_own hlatched (hmeets st b hacks) hset hclear
      · intro hown st b hacks
        obtain ⟨l, -, rfl⟩ := step_ack hacks hstep
        exact forbidden_of_clears_own fun r i => hown device st b rfl hacks r i

/-- What every state of a run meets that follows the condition. -/
structure Inv (s : System) : Prop where
  latched : s.state.regs.intsts0 &&& ~~~LATCHED = 0
  kept : Kept s

theorem latched_raise {regs a : Regs} (h : regs.intsts0 &&& ~~~LATCHED = 0) :
    (regs.raise a).intsts0 &&& ~~~LATCHED = 0 := by
  rw [and_eq_zero_iff] at h ⊢
  intro i hi
  rw [Regs.raise, BitVec.getLsbD_or, Bool.or_eq_true] at hi
  rcases hi with hi | hi
  · exact h i hi
  · rw [BitVec.getLsbD_and, Bool.and_eq_true] at hi
    rw [BitVec.getLsbD_not, hi.2, Bool.not_true, Bool.and_false]

theorem latched_write {regs : Regs} (h : regs.intsts0 &&& ~~~LATCHED = 0) (r : Reg) (v : BitVec 16) :
    (regs.write r v).intsts0 &&& ~~~LATCHED = 0 := by
  rw [and_eq_zero_iff] at h ⊢
  intro i hi
  cases r with
  | INTSTS0 =>
    rw [Regs.write, BitVec.getLsbD_and, Bool.and_eq_true] at hi
    exact h i hi.1
  | _ => exact h i hi

theorem has_raise_right (regs a : Regs) {e : Event} (h : (Regs.raise ⟨0, 0, 0, 0⟩ a).Has e) : (regs.raise a).Has e := by
  unfold Regs.Has at *
  cases hr : e.reg <;> simp_all [Regs.get, Regs.raise]

theorem Kept.event {s : System} (h : Kept s) (a : Regs) :
    Kept ⟨{ s.state with regs := s.state.regs.raise a }, owedAfter s.state s.owed (.event a)⟩ := by
  intro e he
  rcases he with he | he
  · rcases h e he with hpend | hahead
    · exact .inl (get_raise _ _ _ hpend)
    · exact .inr hahead
  · exact .inl (has_raise_right _ _ he)

/-- Outside of the branches, what is owed is pending. -/
theorem Kept.pending {s : System} (h : Kept s) (hpc : ∀ e, ¬s.state.pc.Ahead e) {e : Event} (he : e ∈ s.owed) :
    s.state.regs.Has e :=
  (h e he).resolve_right (hpc e)

theorem Kept.ack {regs : Regs} {l : List Branch} {owed : Set Event}
    (h : Kept ⟨⟨regs, .handling st (b :: l)⟩, owed⟩) (hlatched : regs.intsts0 &&& ~~~LATCHED = 0)
    (hfree : regs.intsts0 &&& b.forbidden = 0) :
    Kept ⟨⟨regs.write (b.ack st).1 (b.ack st).2, .acked st b l⟩, owed⟩ := by
  intro e he
  rcases h e he with hpend | ⟨b', hmem, hbit, hhandles⟩
  · cases hclear : ((regs.write (b.ack st).1 (b.ack st).2).get e.reg).getLsbD e.bit with
    | true => exact .inl hclear
    | false => exact .inr (.inl (own_handles (write_clears_own hlatched hfree hpend hclear)))
  · rcases List.mem_cons.mp hmem with rfl | hmem
    · exact .inr (.inl hhandles)
    · exact .inr (.inr ⟨b', hmem, hbit, hhandles⟩)

theorem Kept.skip {regs : Regs} {l : List Branch} {owed : Set Event}
    (h : Kept ⟨⟨regs, .handling st (b :: l)⟩, owed⟩) (hskip : ¬st.intsts0 &&& b.bit ≠ 0) :
    Kept ⟨⟨regs, .handling st l⟩, owed⟩ := by
  intro e he
  rcases h e he with hpend | ⟨b', hmem, hbit, hhandles⟩
  · exact .inl hpend
  · rcases List.mem_cons.mp hmem with rfl | hmem
    · exact absurd hbit hskip
    · exact .inr ⟨b', hmem, hbit, hhandles⟩

theorem Kept.callback {regs : Regs} {l : List Branch} {owed : Set Event}
    (h : Kept ⟨⟨regs, .acked st b l⟩, owed⟩) : Kept ⟨⟨regs, .handling st l⟩, owed \ {e | b.Handles st e}⟩ := by
  rintro e ⟨he, hnot⟩
  rcases h e he with hpend | hhandles | hahead
  · exact .inl hpend
  · exact absurd hhandles hnot
  · exact .inr hahead

theorem Inv.step {s t : System} {a : Action} (h : Inv s) (hmeets : Meets s a) (hstep : Step s a t) : Inv t := by
  obtain ⟨⟨regs, pc⟩, owed⟩ := s
  obtain ⟨hlatched, hkept⟩ := h
  cases hstep with
  | mk hnext =>
    cases a with
    | event a =>
      cases hnext
      exact ⟨latched_raise hlatched, hkept.event a⟩
    | call stack =>
      cases pc with
      | idle =>
        cases hnext
        exact ⟨hlatched, fun e he => .inl (hkept.pending (fun _ h => h) he)⟩
      | _ => cases hnext
    | next device =>
      cases pc with
      | idle => cases hnext
      | reading l st =>
        have hpend : ∀ e ∈ owed, regs.Has e := fun e he => hkept.pending (fun _ h => h) he
        cases l with
        | nil =>
          cases hnext
          exact ⟨hlatched, fun e he => .inl (hpend e he)⟩
        | cons r l =>
          cases hnext
          exact ⟨hlatched, fun e he => .inl (hpend e he)⟩
      | handling st l =>
        cases l with
        | nil =>
          cases hnext
          refine ⟨hlatched, fun e he => .inl (hkept.pending ?_ he)⟩
          rintro e ⟨b, hmem, -⟩
          cases hmem
        | cons b l =>
          simp only [State.step] at hnext
          split_ifs at hnext with hbit
          · cases hnext
            have hfree : regs.intsts0 &&& b.forbidden = 0 := hmeets st b ⟨l, rfl, hbit⟩
            exact ⟨latched_write hlatched _ _, hkept.ack hlatched hfree⟩
          · cases hnext
            exact ⟨hlatched, hkept.skip hbit⟩
      | acked st b l =>
        cases hnext
        exact ⟨hlatched, hkept.callback⟩

/-! ## The runs -/

theorem Fresh.inv {s : System} (h : Fresh s) : Inv s := ⟨h.latched, fun e he => .inl (h.owed e he)⟩

theorem Inv.run {s t : System} {l : List (System × Action × System)} (h : Inv s) (hrun : Runs Step s l t) :
    (∀ x ∈ l, Meets x.1 x.2.1) ↔ Kept t ∧ ∀ x ∈ l, Kept x.1 ∧ ClearsOwn x.1 x.2.1 x.2.2 := by
  induction hrun with
  | nil s => simpa using h.kept
  | cons hstep _ ih =>
    rw [List.forall_mem_cons, List.forall_mem_cons]
    constructor
    · rintro ⟨hmeets, hall⟩
      have hown := (meets_iff_clearsOwn h.latched hstep).mp hmeets
      obtain ⟨ht, hrest⟩ := (ih (h.step hmeets hstep)).mp hall
      exact ⟨ht, ⟨h.kept, hown⟩, hrest⟩
    · rintro ⟨ht, ⟨_, hown⟩, hrest⟩
      have hmeets := (meets_iff_clearsOwn h.latched hstep).mpr hown
      exact ⟨hmeets, (ih (h.step hmeets hstep)).mpr ⟨ht, hrest⟩⟩

/-- In a run every step meets the condition if and only if no event is lost and no acknowledging write clears a foreign
bit. -/
theorem run_keeps_events {s t : System} {l : List (System × Action × System)} (hs : Fresh s) (h : Runs Step s l t) :
    (∀ x ∈ l, Meets x.1 x.2.1) ↔ Kept t ∧ ∀ x ∈ l, Kept x.1 ∧ ClearsOwn x.1 x.2.1 x.2.2 :=
  hs.inv.run h

/-- Nothing is pending and nothing is owed. -/
def quiet : System := ⟨⟨⟨0, 0, 0, 0⟩, .idle⟩, ∅⟩

theorem quiet_fresh : Fresh quiet := ⟨rfl, rfl, fun _ h => h.elim⟩

/-- The stack of the caller. -/
def stackState : IrqState := ⟨0, 0, 0, 0⟩

theorem meets_of_handling {s : System} {device : BitVec 16}
    (h : ∀ st b l, s.state.pc = .handling st (b :: l) → s.state.regs.intsts0 &&& b.forbidden = 0) :
    Meets s (.next device) :=
  fun st b hacks => h st b hacks.choose hacks.choose_spec.1

/-- A VBUS event and a call that dispatches it. -/
theorem vbus_keeps_events : ∃ t, Kept t ∧ t.state = quiet.state ∧ Event.vbint ∉ t.owed := by
  have h : Runs Step quiet _ _ :=
    .cons (.mk (a := .event ⟨VBINT, 0, 0, 0⟩) rfl) <| .cons (.mk (a := .call stackState) rfl) <|
    .cons (.mk (a := .next 0) rfl) <| .cons (.mk (a := .next 0) rfl) <| .cons (.mk (a := .next 0) rfl) <|
    .cons (.mk (a := .next 0) rfl) <| .cons (.mk (a := .next 0) rfl) <| .cons (.mk (a := .next 0) rfl) <|
    .cons (.mk (a := .next 0) rfl) <| .cons (.mk (a := .next 0) rfl) <| .cons (.mk (a := .next 0) rfl) <|
    .cons (.mk (a := .next 0) rfl) <| .cons (.mk (a := .next 0) rfl) <| .cons (.mk (a := .next 0) rfl) <|
    .cons (.mk (a := .next 0) rfl) <| .nil _
  refine ⟨_, ((run_keeps_events quiet_fresh h).mp ?_).1, rfl, fun h => h.2 trivial⟩
  simp only [List.forall_mem_cons, List.not_mem_nil, false_imp_iff, implies_true, and_true]
  refine ⟨trivial, trivial, ?_, ?_, ?_, ?_, ?_, ?_, ?_, ?_, ?_, ?_, ?_, ?_, ?_⟩
  all_goals
    refine meets_of_handling ?_
    rintro _ _ _ hpc
    cases hpc <;> rfl

/-- A device state transition between the first read and the acknowledgement of the control transfer is lost. -/
theorem dvst_is_lost : ¬∀ s t (l : List (System × Action × System)), Fresh s → Runs Step s l t → Kept t := by
  intro hall
  have h : Runs Step quiet _ _ :=
    .cons (.mk (a := .event ⟨CTRT, 0, 0, 0⟩) rfl) <| .cons (.mk (a := .call stackState) rfl) <|
    .cons (.mk (a := .next 0) rfl) <| .cons (.mk (a := .event ⟨DVST, 0, 0, 0⟩) rfl) <|
    .cons (.mk (a := .next 0) rfl) <| .cons (.mk (a := .next 0) rfl) <| .cons (.mk (a := .next 0) rfl) <|
    .cons (.mk (a := .next 0) rfl) <| .cons (.mk (a := .next 0) rfl) <| .cons (.mk (a := .next 0) rfl) <|
    .cons (.mk (a := .next 0) rfl) <| .cons (.mk (a := .next 0) rfl) <| .cons (.mk (a := .next 0) rfl) <|
    .cons (.mk (a := .next 0) rfl) <| .cons (.mk (a := .next 0) rfl) <| .cons (.mk (a := .next 0) rfl) <| .nil _
  rcases hall _ _ _ quiet_fresh h .dvst ⟨.inr rfl, fun h => h⟩ with hpend | hahead
  · exact Bool.false_ne_true hpend
  · exact hahead

end RCar.Usbhs
