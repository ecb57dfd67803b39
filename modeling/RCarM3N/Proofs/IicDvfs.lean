import RCarM3N.Model.IicDvfs

/-! The transfers of the PMIC bus for every sequence of status values: what is on the bus when a
transfer succeeds, and when an aborted transfer goes on after its error. -/

namespace RCar.Dvfs

open Prog

variable {s t u : IicDvfs} {mode bit : UInt8} {act : Prog IicDvfs Unit}
  {after : DvfsState} {e : BusEvent} {step : Prog IicDvfs ℤ} {n : ℕ}

/-! ## The law of the bus -/

/-- Where the bus stands after a detected error. -/
inductive Phase where
  | transfer
  | recovering
  | stopping
  | off
  | enabled
  | violated
deriving DecidableEq

/-- A detected error is followed by the end of the transfer, behind dummy bytes, and the module is
off; the next thing to be seen is that it is on again, and a START. -/
def Phase.next : Phase → BusEvent → Phase
  | .transfer, .detected => .recovering
  | .transfer, _ => .transfer
  | .recovering, .send v => if v = IIC_DVFS_SET_DUMMY then .recovering else .violated
  | .recovering, .control v =>
    if v = IIC_DVFS_SET_ICCR_STOP ∨ v = IIC_DVFS_SET_ICCR_STOP_READ then .stopping else .violated
  | .stopping, .control v => if v = 0 then .off else .violated
  | .off, .control v => if v = IIC_DVFS_BIT_ICCR_ENABLE then .enabled else .violated
  | .enabled, .control v => if v = IIC_DVFS_SET_ICCR_START then .transfer else .violated
  | _, _ => .violated

/-- The phase after the events of a log, whose last event comes first. -/
def phase : List BusEvent → Phase
  | [] => .transfer
  | e :: log => (phase log).next e

theorem phase_violated {l log : List BusEvent} (h : phase log = .violated) (hl : log <:+ l) :
    phase l = .violated := by
  obtain ⟨new, rfl⟩ := hl
  induction new with
  | nil => exact h
  | cons e new ih =>
    rw [List.cons_append, phase, ih]
    rfl

/-- The events of a `send` from its START on. -/
def sendEvents (slave regAddr regData : UInt8) : List BusEvent :=
  [.control IIC_DVFS_SET_ICCR_START, .send (slave <<< 1), .send regAddr, .send regData,
    .control IIC_DVFS_SET_ICCR_STOP, .control 0]

/-- The events of a `receive` that reads `data`. -/
def receiveEvents (slave reg data : UInt8) : List BusEvent :=
  [.control IIC_DVFS_SET_ICCR_START, .send (slave <<< 1), .send reg,
    .control IIC_DVFS_SET_ICCR_RETRANSMISSION, .send (slave <<< 1 + DVFS_READ_MODE),
    .control IIC_DVFS_SET_ICCR_CHANGE, .control IIC_DVFS_SET_ICCR_STOP_READ, .receive data,
    .control 0]

/-- A transfer, `events` being those of one that succeeds with the byte it returns: after an error
there is a fresh START or the error return, and success is the end of the whole transfer. -/
def Lawful (events : UInt8 → List BusEvent) (r : Option ℤ × IicDvfs) : Prop :=
  phase r.2.log ≠ .violated ∧ ∀ v, r.1 = some v →
    (v = DVFS_COMPLETE ∧ ∃ earlier, r.2.log = (events r.2.data).reverse ++ earlier) ∨
    (v = DVFS_ERROR ∧ phase r.2.log = .off ∧ DVFS_RETRY_MAX < r.2.err)

/-! ## When a step stops after an error -/

/-- The values that the wait for an idle bus leaves unread. -/
def afterIdle : ℕ → List UInt8 → Option (List UInt8)
  | 0, _ => none
  | _ + 1, [] => none
  | n + 1, v :: l => if v &&& IIC_DVFS_BIT_ICSR_BUSY = 0 then some l else afterIdle n l

/-- The values that the error check leaves unread, where it sees an error and comes to its end. -/
def afterError : List UInt8 → Option (List UInt8)
  | reg :: _ :: l =>
    if reg &&& IIC_DVFS_BIT_ICSR_AL ≠ 0 then
      afterIdle (IIC_DVFS_SET_BUSY_LOOP + 2)
        (l.dropWhile fun v => v &&& IIC_DVFS_BIT_ICSR_WAIT = 0).tail.tail
    else if reg &&& IIC_DVFS_BIT_ICSR_TACK ≠ 0 then afterIdle (IIC_DVFS_SET_BUSY_LOOP + 2) l
    else none
  | _ => none

/-- Where the error check sees an error that may be retried, the first status after the recovery
does not have the bit that the step waits for. -/
def Settles (bit : UInt8) (s : IicDvfs) : Prop :=
  s.err < DVFS_RETRY_MAX → ∀ l, afterError s.input = some l → ∀ v ∈ l.head?, v &&& bit ≠ bit

/-- The bit of ICSR that the step of a state waits for, behind its error check. -/
def awaited : DvfsState → Option UInt8
  | .setSlave | .setSlaveRead => some IIC_DVFS_BIT_ICSR_DTE
  | .writeAddr | .writeData | .stop | .retransmit | .changeSendToRecieve | .stopRead =>
    some IIC_DVFS_BIT_ICSR_WAIT
  | .start | .read | .done => none

/-- `n` rounds of the loop, each of which settles. -/
def SettledRun (step : Prog IicDvfs ℤ) : ℕ → IicDvfs → Prop
  | 0, _ => True
  | n + 1, s => (∀ bit ∈ awaited s.state, Settles bit s) ∧
    ∀ t, step.run s = (some DVFS_PROCESS, t) → SettledRun step n t

/-! ## The log grows -/

/-- The events that are there stay. -/
def LogGrows (s t : IicDvfs) : Prop := s.log <:+ t.log

instance : IsPreorder IicDvfs LogGrows where
  refl s := List.suffix_refl s.log
  trans _ _ _ h h' := List.IsSuffix.trans h h'

theorem run_readInput (s : IicDvfs) : readInput.run s = match s.input with
    | [] => (none, s)
    | v :: l => (some v, { s with input := l }) := rfl

theorem readInput_grows : Keeps LogGrows readInput := by
  intro s
  rw [run_readInput]
  split <;> exact List.suffix_refl _

theorem run_awaitWait (s : IicDvfs) :
    awaitWait.run s = match s.input.dropWhile fun v => v &&& IIC_DVFS_BIT_ICSR_WAIT = 0 with
      | [] => (none, { s with input := [] })
      | _ :: l => (some (), { s with input := l }) := rfl

theorem awaitWait_grows : Keeps LogGrows awaitWait := by
  intro s
  rw [run_awaitWait]
  split <;> exact List.suffix_refl _

theorem modify_grows {f : IicDvfs → IicDvfs} (hf : ∀ s, s.log <:+ (f s).log) :
    Keeps LogGrows (Prog.modify f) := hf

theorem note_grows (e : BusEvent) : Keeps LogGrows (note e) :=
  modify_grows fun _ => List.suffix_cons _ _

theorem writeIccr_grows (v : UInt8) : Keeps LogGrows (writeIccr v) :=
  Keeps.bind (modify_grows fun _ => List.suffix_refl _) fun _ => note_grows _

theorem writeIcic_grows (v : UInt8) : Keeps LogGrows (writeIcic v) :=
  modify_grows fun _ => List.suffix_refl _

theorem setState_grows (state : DvfsState) : Keeps LogGrows (setState state) :=
  modify_grows fun _ => List.suffix_refl _

theorem clearIcsr_grows (v : UInt8) : Keeps LogGrows (clearIcsr v) :=
  Keeps.bind readInput_grows fun _ => Keeps.pure ()

theorem awaitIdle_grows (n : ℕ) : Keeps LogGrows (awaitIdle n) := by
  induction n with
  | zero => exact Keeps.stuck
  | succ n ih => exact Keeps.bind readInput_grows fun _ => Keeps.ite (Keeps.pure ()) ih

theorem retry_grows : Keeps LogGrows retry :=
  Keeps.bind (modify_grows fun _ => List.suffix_refl _) fun _ => Keeps.bind Keeps.get fun _ =>
    Keeps.ite (Keeps.pure _) (Keeps.bind (setState_grows _) fun _ => Keeps.pure _)

theorem dvfsCheckError_grows (mode : UInt8) : Keeps LogGrows (dvfsCheckError mode) := by
  unfold dvfsCheckError
  refine Keeps.bind readInput_grows fun reg => Keeps.ite (Keeps.pure _) ?_
  refine Keeps.bind (note_grows _) fun _ => Keeps.ite ?_ ?_
  · refine Keeps.bind (clearIcsr_grows _) fun _ => Keeps.bind Keeps.get fun s => ?_
    have hend : ∀ v, Keeps LogGrows (do
        awaitWait
        writeIccr v
        clearIcsr IIC_DVFS_BIT_ICSR_WAIT
        awaitIdle (IIC_DVFS_SET_BUSY_LOOP + 2)
        writeIccr 0
        retry) := fun v =>
      Keeps.bind awaitWait_grows fun _ => Keeps.bind (writeIccr_grows _) fun _ =>
        Keeps.bind (clearIcsr_grows _) fun _ => Keeps.bind (awaitIdle_grows _) fun _ =>
          Keeps.bind (writeIccr_grows _) fun _ => retry_grows
    exact Keeps.ite (Keeps.bind (note_grows _) fun _ => hend _) (hend _)
  · refine Keeps.bind (writeIccr_grows _) fun _ => Keeps.bind Keeps.get fun s => ?_
    exact Keeps.bind (writeIcic_grows _) fun _ => Keeps.bind (clearIcsr_grows _) fun _ =>
      Keeps.bind (awaitIdle_grows _) fun _ => Keeps.bind (writeIccr_grows _) fun _ => retry_grows

theorem dvfsStep_grows (hact : Keeps LogGrows act) :
    Keeps LogGrows (dvfsStep mode bit act after) := by
  unfold dvfsStep
  refine Keeps.bind (dvfsCheckError_grows mode) fun _ => Keeps.ite (Keeps.pure _) ?_
  refine Keeps.bind readInput_grows fun _ => Keeps.ite (Keeps.pure _) ?_
  exact Keeps.bind hact fun _ => Keeps.bind (setState_grows _) fun _ => Keeps.pure _

/-! ## The acts of the steps -/

/-- An act that puts one event on the bus; it may then wait for a status value. -/
structure Acts (e : BusEvent) (act : Prog IicDvfs Unit) : Prop where
  log : ∀ s, (act.run s).2.log = e :: s.log
  data : ∀ s, (act.run s).2.data = s.data

theorem Acts.grows (h : Acts e act) : Keeps LogGrows act := by
  intro s
  unfold LogGrows
  rw [h.log s]
  exact List.suffix_cons _ _

theorem run_readInput_nil (h : s.input = []) : readInput.run s = (none, s) := by
  rw [run_readInput, h]

theorem run_readInput_cons {v : UInt8} {l : List UInt8} (h : s.input = v :: l) :
    readInput.run s = (some v, { s with input := l }) := by
  rw [run_readInput, h]

theorem run_clearIcsr (v : UInt8) (s : IicDvfs) :
    (clearIcsr v).run s =
      (if s.input = [] then none else some (), { s with input := s.input.tail }) := by
  unfold clearIcsr
  rcases hi : s.input with _ | ⟨w, l⟩
  · rw [run_bind_of_none (run_readInput_nil hi), if_pos rfl, List.tail_nil, ← hi]
  · rw [run_bind_of_some (run_readInput_cons hi), if_neg (List.cons_ne_nil w l)]
    rfl

theorem acts_slave (v : UInt8) : Acts (.send v) (do maskDtee; writeIcdr v) :=
  ⟨fun _ => rfl, fun _ => rfl⟩

theorem acts_send (v : UInt8) :
    Acts (.send v) (do writeIcdr v; clearIcsr IIC_DVFS_BIT_ICSR_WAIT) := by
  constructor <;> intro s <;> unfold writeIcdr note <;> rw [run_bind_modify, run_clearIcsr]

theorem acts_control (v : UInt8) :
    Acts (.control v) (do writeIccr v; clearIcsr IIC_DVFS_BIT_ICSR_WAIT) := by
  constructor <;> intro s <;> unfold writeIccr note <;>
    rw [Prog.bind_assoc, run_bind_modify, run_bind_modify, run_clearIcsr]

theorem acts_control_unmask (v : UInt8) :
    Acts (.control v) (do writeIccr v; clearIcsr IIC_DVFS_BIT_ICSR_WAIT; unmaskDtee) := by
  have hrun : ∀ s, (do writeIccr v; clearIcsr IIC_DVFS_BIT_ICSR_WAIT; unmaskDtee :
      Prog IicDvfs Unit).run s = (clearIcsr IIC_DVFS_BIT_ICSR_WAIT >>= fun _ => unmaskDtee).run
        { s with iccr := v, log := .control v :: s.log } := fun s => rfl
  have hcases : ∀ s : IicDvfs, ∃ l icic, ((clearIcsr IIC_DVFS_BIT_ICSR_WAIT >>= fun _ =>
      unmaskDtee).run s).2 = { s with input := l, icic := icic } := by
    intro s
    rw [run_bind, run_clearIcsr]
    by_cases hi : s.input = []
    · rw [if_pos hi]
      exact ⟨s.input.tail, s.icic, rfl⟩
    · rw [if_neg hi]
      exact ⟨s.input.tail, s.icic ||| IIC_DVFS_BIT_ICIC_DTEE, rfl⟩
  constructor <;> intro s <;> rw [hrun] <;>
    obtain ⟨l, icic, h⟩ := hcases { s with iccr := v, log := .control v :: s.log } <;> rw [h]

/-! ## The error check -/

theorem run_awaitIdle (n : ℕ) (s : IicDvfs) :
    (∃ l, afterIdle n s.input = some l ∧ (awaitIdle n).run s = (some (), { s with input := l })) ∨
    (afterIdle n s.input = none ∧ ∃ l, (awaitIdle n).run s = (none, { s with input := l })) := by
  induction n generalizing s with
  | zero => exact .inr ⟨rfl, s.input, rfl⟩
  | succ n ih =>
    unfold awaitIdle
    rcases hi : s.input with _ | ⟨v, l⟩
    · rw [run_bind_of_none (run_readInput_nil hi)]
      exact .inr ⟨rfl, s.input, rfl⟩
    · rw [run_bind_of_some (run_readInput_cons hi), run_ite, afterIdle]
      split_ifs with hv
      · exact .inl ⟨l, rfl, rfl⟩
      · exact ih { s with input := l }

theorem run_retry (s : IicDvfs) :
    retry.run s = if s.err + 1 > DVFS_RETRY_MAX then (some DVFS_ERROR, { s with err := s.err + 1 })
      else (some DVFS_PROCESS, { s with err := s.err + 1, state := .start }) := by
  unfold retry setState
  rw [run_bind_modify, run_bind_get, run_ite]
  rfl

/-- What the error check does while a transfer is under way. -/
inductive Checked (s : IicDvfs) : Option ℤ × IicDvfs → Prop
  | stuck (t : IicDvfs) : phase t.log ≠ .violated → afterError s.input = none → Checked s (none, t)
  | clear (l : List UInt8) : afterError s.input = none →
      Checked s (some DVFS_PROCESS, { s with input := l })
  | recovered (t : IicDvfs) : s.err < DVFS_RETRY_MAX → afterError s.input = some t.input →
      t.state = .start → phase t.log = .off → t.iccr = 0 → Checked s (some DVFS_PROCESS, t)
  | failed (t : IicDvfs) : ¬ s.err < DVFS_RETRY_MAX → phase t.log = .off → DVFS_RETRY_MAX < t.err →
      Checked s (some DVFS_ERROR, t)

/-- The end of the recovery, from the write that ends the transfer on. -/
theorem released_checked (b : UInt8) (hu : phase u.log = .stopping) (herr : u.err = s.err)
    (hin : afterError s.input = afterIdle (IIC_DVFS_SET_BUSY_LOOP + 2) u.input.tail) :
    Checked s ((do
      clearIcsr b
      awaitIdle (IIC_DVFS_SET_BUSY_LOOP + 2)
      writeIccr 0
      retry : Prog IicDvfs ℤ).run u) := by
  have hlog : phase u.log ≠ .violated := by rw [hu]; decide
  rw [run_bind, run_clearIcsr]
  by_cases hi : u.input = []
  · rw [if_pos hi]
    refine .stuck _ hlog ?_
    rw [hin, hi]
    rfl
  rw [if_neg hi]
  rcases run_awaitIdle (IIC_DVFS_SET_BUSY_LOOP + 2) { u with input := u.input.tail } with
    ⟨l, hl, hrun⟩ | ⟨hl, l, hrun⟩
  · have hoff : phase (.control 0 :: u.log) = .off := by rw [phase, hu]; rfl
    simp only
    rw [run_bind_of_some hrun]
    unfold writeIccr note
    rw [Prog.bind_assoc, run_bind_modify, run_bind_modify, run_retry]
    by_cases he : u.err + 1 > DVFS_RETRY_MAX
    · rw [if_pos he]
      exact .failed _ (by omega) hoff he
    · rw [if_neg he]
      exact .recovered _ (by omega) (hin.trans hl) rfl hoff rfl
  · simp only
    rw [run_bind_of_none hrun]
    exact .stuck _ hlog (hin.trans hl)

theorem phase_stop {log : List BusEvent} (mode : UInt8) (h : phase log = .recovering) :
    phase (.control (if mode = DVFS_READ_MODE then IIC_DVFS_SET_ICCR_STOP_READ
      else IIC_DVFS_SET_ICCR_STOP) :: log) = .stopping := by
  rw [phase, h]
  split_ifs <;> rfl

/-- The recovery from a lost arbitration, from the wait on. -/
theorem arbitration_checked (mode : UInt8) (hu : phase u.log = .recovering) (herr : u.err = s.err)
    (hin : afterError s.input = afterIdle (IIC_DVFS_SET_BUSY_LOOP + 2)
      (u.input.dropWhile fun v => v &&& IIC_DVFS_BIT_ICSR_WAIT = 0).tail.tail) :
    Checked s ((do
      awaitWait
      writeIccr (if mode = DVFS_READ_MODE then IIC_DVFS_SET_ICCR_STOP_READ
        else IIC_DVFS_SET_ICCR_STOP)
      clearIcsr IIC_DVFS_BIT_ICSR_WAIT
      awaitIdle (IIC_DVFS_SET_BUSY_LOOP + 2)
      writeIccr 0
      retry : Prog IicDvfs ℤ).run u) := by
  rw [run_bind, run_awaitWait]
  rcases hw : u.input.dropWhile fun v => v &&& IIC_DVFS_BIT_ICSR_WAIT = 0 with _ | ⟨w, l⟩
  · refine .stuck _ (by simp only; rw [hu]; decide) ?_
    rw [hin, hw]
    rfl
  · simp only
    unfold writeIccr note
    rw [Prog.bind_assoc, run_bind_modify, run_bind_modify]
    refine released_checked _ (phase_stop mode hu) herr ?_
    rw [hin, hw]
    rfl

theorem dvfsCheckError_checked (mode : UInt8) (h : phase s.log = .transfer) :
    Checked s ((dvfsCheckError mode).run s) := by
  unfold dvfsCheckError
  rcases hi : s.input with _ | ⟨reg, l⟩
  · rw [run_bind_of_none (run_readInput_nil hi)]
    refine .stuck s (by rw [h]; decide) ?_
    rw [hi]
    rfl
  rw [run_bind_of_some (run_readInput_cons hi), run_ite]
  have hrec : phase (.detected :: s.log) = .recovering := by rw [phase, h]; rfl
  by_cases hclear : reg &&& IIC_DVFS_BIT_ICSR_AL = 0 ∧ reg &&& IIC_DVFS_BIT_ICSR_TACK = 0
  · rw [if_pos hclear]
    refine .clear l ?_
    rw [hi]
    unfold afterError
    rcases l with _ | ⟨c, l⟩
    · rfl
    · simp only [hclear.1, hclear.2, ne_eq, not_true, if_false]
  rw [if_neg hclear]
  unfold note
  rw [run_bind_modify, run_ite]
  by_cases hal : reg &&& IIC_DVFS_BIT_ICSR_AL = 0
  · have htack : reg &&& IIC_DVFS_BIT_ICSR_TACK ≠ 0 := fun ht => hclear ⟨hal, ht⟩
    rw [if_neg (not_not.mpr hal)]
    unfold writeIccr note
    rw [Prog.bind_assoc, run_bind_modify, run_bind_modify, run_bind_get]
    unfold writeIcic
    rw [run_bind_modify]
    refine released_checked _ (phase_stop mode hrec) rfl ?_
    rw [hi]
    unfold afterError
    rcases l with _ | ⟨c, l⟩
    · rfl
    · simp only [hal, htack, ne_eq, not_true, not_false_eq_true, if_false, if_true, List.tail_cons]
  · rw [if_pos hal, run_bind, run_clearIcsr]
    rcases l with _ | ⟨c, l⟩
    · refine .stuck _ (by simp only; rw [hrec]; decide) ?_
      rw [hi]
      rfl
    rw [if_neg (List.cons_ne_nil c l)]
    simp only
    rw [run_bind_get, run_ite]
    have hin : afterError s.input = afterIdle (IIC_DVFS_SET_BUSY_LOOP + 2)
        (l.dropWhile fun v => v &&& IIC_DVFS_BIT_ICSR_WAIT = 0).tail.tail := by
      rw [hi, afterError, if_pos hal]
    by_cases hs : s.state = .setSlave
    · rw [if_pos hs]
      unfold writeIcdr note
      rw [run_bind_modify]
      refine arbitration_checked (s := s) mode ?_ rfl hin
      rw [phase, hrec]
      rfl
    · rw [if_neg hs]
      exact arbitration_checked (s := s) mode hrec rfl hin

/-! ## A step -/

/-- What a step does that settles after an error. -/
inductive Stepped (after : DvfsState) (e : BusEvent) (s : IicDvfs) : Option ℤ × IicDvfs → Prop
  | stuck (t : IicDvfs) : phase t.log ≠ .violated → Stepped after e s (none, t)
  | wait (t : IicDvfs) : t.state = s.state → t.log = s.log → t.data = s.data →
      Stepped after e s (some DVFS_PROCESS, t)
  | acted (t : IicDvfs) : t.state = after → t.log = e :: s.log → t.data = s.data →
      Stepped after e s (some DVFS_PROCESS, t)
  | recovered (t : IicDvfs) : t.state = .start → phase t.log = .off → t.iccr = 0 →
      Stepped after e s (some DVFS_PROCESS, t)
  | failed (t : IicDvfs) : phase t.log = .off → DVFS_RETRY_MAX < t.err →
      Stepped after e s (some DVFS_ERROR, t)

theorem phase_transfer {log : List BusEvent} (h : phase log = .transfer) (he : e ≠ .detected) :
    phase (e :: log) = .transfer := by
  rw [phase, h]
  cases e with
  | detected => exact absurd rfl he
  | _ => rfl

theorem dvfsStep_stepped (hact : Acts e act) (he : e ≠ .detected) (h : phase s.log = .transfer)
    (hs : Settles bit s) : Stepped after e s ((dvfsStep mode bit act after).run s) := by
  have hlog : ∀ u : IicDvfs, phase u.log = .transfer → phase u.log ≠ .violated := by
    intro u hu
    rw [hu]
    decide
  unfold dvfsStep
  rw [run_bind]
  rcases hr : (dvfsCheckError mode).run s with ⟨x, t⟩
  have hc := dvfsCheckError_checked mode h
  rw [hr] at hc
  cases hc with
  | stuck _ hp _ => exact .stuck t hp
  | failed _ _ hp he => exact .failed t hp he
  | clear l _ =>
    simp only
    rw [run_ite, if_neg (by decide)]
    rcases l with _ | ⟨v, l⟩
    · rw [run_bind_of_none (run_readInput_nil rfl)]
      exact .stuck _ (hlog s h)
    rw [run_bind_of_some (run_readInput_cons rfl), run_ite]
    split_ifs with hv
    · exact .wait _ rfl rfl rfl
    rw [run_bind]
    have hl := hact.log { s with input := l }
    have hd := hact.data { s with input := l }
    rcases ha : act.run { s with input := l } with ⟨_ | _, u⟩ <;> rw [ha] at hl hd
    · refine .stuck u (hlog u ?_)
      simp only at hl
      rw [hl]
      exact phase_transfer h he
    · exact .acted { u with state := after } rfl hl hd
  | recovered _ hlt hin hst hp hic =>
    simp only
    rw [run_ite, if_neg (by decide)]
    rcases hi : t.input with _ | ⟨v, l⟩
    · rw [run_bind_of_none (run_readInput_nil hi)]
      exact .stuck t (by rw [hp]; decide)
    · have hv : v &&& bit ≠ bit := hs hlt t.input hin v (by rw [hi]; rfl)
      rw [run_bind_of_some (run_readInput_cons hi), run_ite, if_pos hv]
      exact .recovered { t with input := l } hst hp hic

/-- A step that does not settle puts its event on the bus while the module is off. -/
theorem dvfsStep_violated (hact : Acts e act) (he : Phase.next .off e = .violated)
    (h : phase s.log = .transfer) (hs : ¬ Settles bit s) :
    phase ((dvfsStep mode bit act after).run s).2.log = .violated := by
  unfold Settles at hs
  push Not at hs
  obtain ⟨hlt, l, hin, v, hv, hbit⟩ := hs
  unfold dvfsStep
  rw [run_bind]
  rcases hr : (dvfsCheckError mode).run s with ⟨x, t⟩
  have hc := dvfsCheckError_checked mode h
  rw [hr] at hc
  cases hc with
  | stuck _ _ hnone => simp [hnone] at hin
  | failed _ hge _ _ => exact absurd hlt hge
  | clear _ hnone => simp [hnone] at hin
  | recovered _ _ hin' _ hp _ =>
    obtain rfl : t.input = l := Option.some.inj (hin'.symm.trans hin)
    obtain ⟨l', hl'⟩ : ∃ l', t.input = v :: l' := by
      rcases hi : t.input with _ | ⟨w, l'⟩
      · rw [hi] at hv
        cases hv
      · rw [hi] at hv
        exact ⟨l', by rw [Option.mem_some_iff.mp hv]⟩
    simp only
    rw [run_ite, if_neg (by decide), run_bind_of_some (run_readInput_cons hl'), run_ite,
      if_neg (not_not.mpr hbit), run_bind]
    have hl := hact.log { t with input := l' }
    have hbad : phase (act.run { t with input := l' }).2.log = .violated := by
      rw [hl, phase]
      simp only [hp]
      exact he
    rcases ha : act.run { t with input := l' } with ⟨_ | _, u⟩ <;> rw [ha] at hbad
    · exact hbad
    · exact hbad

/-! ## The loop -/

variable {events : UInt8 → List BusEvent} {position : DvfsState → ℕ}

/-- Between two rounds: a state other than the first one has so many events of the transfer
behind it, and the first one starts it afresh. -/
def Between (events : UInt8 → List BusEvent) (position : DvfsState → ℕ) (s : IicDvfs) : Prop :=
  (s.state = .start ∧ (phase s.log = .transfer ∨ (phase s.log = .off ∧ s.iccr = 0))) ∨
  (0 < position s.state ∧ phase s.log = .transfer ∧
    ∃ earlier, s.log = ((events s.data).take (position s.state)).reverse ++ earlier)

theorem Between.phase (h : Between events position s) : phase s.log ≠ .violated := by
  rcases h with ⟨-, hp | ⟨hp, -⟩⟩ | ⟨-, hp, -⟩ <;> rw [hp] <;> decide

theorem Between.progress (h : Between events position s) (hs : s.state ≠ .start) :
    0 < position s.state ∧ Dvfs.phase s.log = .transfer ∧
      ∃ earlier, s.log = ((events s.data).take (position s.state)).reverse ++ earlier := by
  rcases h with ⟨hst, -⟩ | hprog
  · exact absurd hst hs
  · exact hprog

/-- What a round leaves behind: a state to go on from, or the end of a lawful transfer. -/
def Round (events : UInt8 → List BusEvent) (position : DvfsState → ℕ)
    (r : Option ℤ × IicDvfs) : Prop :=
  (r.1 = some DVFS_PROCESS ∧ Between events position r.2) ∨
  (r.1 ≠ some DVFS_PROCESS ∧ Lawful events r)

theorem Round.stuck (h : phase t.log ≠ .violated) : Round events position (none, t) :=
  .inr ⟨by simp, h, by simp⟩

/-- The steps of a transfer. -/
structure Engine (events : UInt8 → List BusEvent) (position : DvfsState → ℕ)
    (step : Prog IicDvfs ℤ) : Prop where
  round : ∀ s, Between events position s → (∀ bit ∈ awaited s.state, Settles bit s) →
    Round events position (step.run s)
  violated : ∀ s, Between events position s → ∀ bit ∈ awaited s.state, ¬ Settles bit s →
    phase (step.run s).2.log = .violated
  grows : Keeps LogGrows step

theorem again_grows (h : Keeps LogGrows step) (n : ℕ) : Keeps LogGrows (again step n) := by
  induction n with
  | zero => exact Keeps.stuck
  | succ n ih => exact Keeps.bind h fun _ => Keeps.ite ih (Keeps.pure _)

/-- By induction on the rounds: a round that settles leads to a state between two rounds, and after
one that does not the bus stays in violation. -/
theorem Engine.lawful_iff (h : Engine events position step) (n : ℕ) (s : IicDvfs)
    (hs : Between events position s) :
    Lawful events ((again step n).run s) ↔ SettledRun step n s := by
  induction n generalizing s with
  | zero => exact ⟨fun _ => trivial, fun _ => ⟨hs.phase, fun v hv => by cases hv⟩⟩
  | succ n ih =>
    unfold again SettledRun
    by_cases hset : ∀ bit ∈ awaited s.state, Settles bit s
    · have hround := h.round s hs hset
      rw [run_bind]
      rcases hr : step.run s with ⟨x, t⟩
      rw [hr] at hround
      rcases hround with ⟨hx, hb⟩ | ⟨hx, hl⟩
      · obtain rfl : x = some DVFS_PROCESS := hx
        change Lawful events ((again step n).run t) ↔ _
        rw [ih t hb]
        constructor
        · intro hn
          refine ⟨hset, fun u hu => ?_⟩
          obtain rfl : t = u := congrArg Prod.snd hu
          exact hn
        · intro hn
          exact hn.2 t rfl
      · have hrest : ∀ u, (x, t) ≠ (some DVFS_PROCESS, u) := by
          intro u hu
          exact hx (congrArg Prod.fst hu)
        constructor
        · intro _
          exact ⟨hset, fun u hu => absurd hu (hrest u)⟩
        · intro _
          rcases x with _ | v
          · exact hl
          · simp only
            rw [run_ite, if_neg (fun hv => hx (congrArg some hv))]
            exact hl
    · refine iff_of_false (fun hl => hl.1 ?_) (fun hn => hset hn.1)
      push Not at hset
      obtain ⟨bit, hbit, hns⟩ := hset
      have hbad := h.violated s hs bit hbit hns
      rw [run_bind]
      rcases hr : step.run s with ⟨_ | v, t⟩ <;> rw [hr] at hbad
      · exact hbad
      · have hgrow : Keeps LogGrows (if v = DVFS_PROCESS then again step n else pure v) :=
          Keeps.ite (again_grows h.grows n) (Keeps.pure v)
        exact phase_violated hbad (hgrow t)

/-! ## The steps of the two transfers -/

theorem run_dvfsStart (s : IicDvfs) : ∃ t, dvfsStart.run s = (some DVFS_PROCESS, t) ∧
    t.state = .setSlave ∧ t.data = s.data ∧ t.log = .control IIC_DVFS_SET_ICCR_START ::
      .control (s.iccr ||| IIC_DVFS_BIT_ICCR_ENABLE) :: s.log := by
  exact ⟨_, rfl, rfl, rfl, rfl⟩

theorem dvfsStart_round (hstart : position .start = 0) (hpos : 0 < position .setSlave)
    (hev : ∀ d, ((events d).take (position .setSlave)).reverse =
      [.control IIC_DVFS_SET_ICCR_START]) (hs : s.state = .start) (h : Between events position s) :
    Round events position (dvfsStart.run s) := by
  obtain ⟨t, ht, hstate, -, hlog⟩ := run_dvfsStart s
  rw [ht]
  refine .inl ⟨rfl, .inr ⟨by simpa only [hstate] using hpos, ?_,
    .control (s.iccr ||| IIC_DVFS_BIT_ICCR_ENABLE) :: s.log, ?_⟩⟩
  · change phase t.log = .transfer
    rcases h with ⟨-, hp | ⟨hp, hic⟩⟩ | ⟨hne, -⟩
    · rw [hlog, phase, phase, hp]
      rfl
    · rw [hlog, phase, phase, hp, hic]
      rfl
    · rw [hs, hstart] at hne
      cases hne
  · change t.log = _
    rw [hlog, hstate, hev]
    rfl

theorem dvfsDone_round (hpos : ∀ d, (events d).reverse =
      .control 0 :: ((events d).take (position .done)).reverse) (hs : s.state = .done)
    (h : Between events position s) : Round events position (dvfsDone.run s) := by
  obtain ⟨-, hp, earlier, hlog⟩ := h.progress (by rw [hs]; decide)
  unfold dvfsDone
  rcases run_awaitIdle IIC_DVFS_SET_BUSY_LOOP s with ⟨l, -, hrun⟩ | ⟨-, l, hrun⟩
  · rw [run_bind_of_some hrun]
    refine .inr ⟨by change some DVFS_COMPLETE ≠ _; decide, ?_, ?_⟩
    · change phase (.control 0 :: s.log) ≠ .violated
      rw [phase_transfer hp (by decide)]
      decide
    · rintro v ⟨rfl⟩
      refine .inl ⟨rfl, earlier, ?_⟩
      change .control 0 :: s.log = (events s.data).reverse ++ earlier
      rw [hpos, hlog, hs]
      rfl
  · rw [run_bind_of_none hrun]
    exact Round.stuck (t := { s with input := l }) h.phase

theorem dvfsRead_round (hdone : 0 < position .done) (hpos : ∀ d d', ((events d).take (position .done)).reverse =
      .receive d :: ((events d').take (position .read)).reverse) (hs : s.state = .read)
    (h : Between events position s) : Round events position (dvfsRead.run s) := by
  obtain ⟨-, hp, earlier, hlog⟩ := h.progress (by rw [hs]; decide)
  unfold dvfsRead
  rcases hi : s.input with _ | ⟨v, l⟩
  · rw [run_bind_of_none (run_readInput_nil hi)]
    exact Round.stuck h.phase
  rw [run_bind_of_some (run_readInput_cons hi), run_ite]
  split_ifs with hv
  · exact .inl ⟨rfl, h⟩
  unfold maskDtee
  rw [Prog.bind_assoc, run_bind_get]
  unfold writeIcic
  rw [run_bind_modify]
  rcases hl : l with _ | ⟨d, l'⟩
  · rw [run_bind_of_none (run_readInput_nil rfl)]
    exact Round.stuck h.phase
  rw [run_bind_of_some (run_readInput_cons rfl)]
  refine .inl ⟨rfl, .inr ⟨hdone, phase_transfer hp (by simp), earlier, ?_⟩⟩
  change .receive d :: s.log = ((events d).take (position .done)).reverse ++ earlier
  rw [hpos d s.data, hlog, hs]
  rfl

theorem Stepped.round {r : Option ℤ × IicDvfs} (hr : Stepped after e s r)
    (hpos : ((events s.data).take (position after)).reverse =
      e :: ((events s.data).take (position s.state)).reverse) (he : e ≠ .detected)
    (hs : s.state ≠ .start) (hafter : 0 < position after) (h : Between events position s) :
    Round events position r := by
  obtain ⟨hpo, hp, earlier, hlog⟩ := h.progress hs
  cases hr with
  | stuck t ht => exact Round.stuck ht
  | wait t hst hl hd =>
    refine .inl ⟨rfl, .inr ⟨?_, ?_, earlier, ?_⟩⟩
    · simpa only [hst] using hpo
    · simpa only [hl] using hp
    · simpa only [hst, hl, hd] using hlog
  | acted t hst hl hd =>
    refine .inl ⟨rfl, .inr ⟨?_, ?_, earlier, ?_⟩⟩
    · simpa only [hst] using hafter
    · simpa only [hl] using phase_transfer hp he
    · simp only [hst, hl, hd, hpos, hlog, List.cons_append]
  | recovered t hst hoff hic => exact .inl ⟨rfl, .inl ⟨hst, .inr ⟨hoff, hic⟩⟩⟩
  | failed t hoff herr =>
    refine .inr ⟨by simp only; decide, ?_, ?_⟩
    · simp only [hoff]
      decide
    · rintro v ⟨rfl⟩
      exact .inr ⟨rfl, hoff, herr⟩

/-- One round from a state: it is lawful if it settles, and a violation if it does not. -/
def Obeys (events : UInt8 → List BusEvent) (position : DvfsState → ℕ) (state : DvfsState)
    (x : Prog IicDvfs ℤ) (s : IicDvfs) : Prop :=
  ((∀ bit ∈ awaited state, Settles bit s) → Round events position (x.run s)) ∧
  ∀ bit ∈ awaited state, ¬ Settles bit s → phase (x.run s).2.log = .violated

theorem Round.obeys {state : DvfsState} (h : Round events position (step.run s))
    (hbit : awaited state = none) : Obeys events position state step s := by
  refine ⟨fun _ => h, fun bit hb => ?_⟩
  rw [hbit] at hb
  cases hb

theorem Obeys.congr {state : DvfsState} {x y : Prog IicDvfs ℤ}
    (h : Obeys events position state x s) (hx : y.run s = x.run s) :
    Obeys events position state y s := by
  unfold Obeys
  rw [hx]
  exact h

/-- The events of the steps that check for errors: a byte, or a control other than the one that
turns the module on. -/
def Breaks (e : BusEvent) : Prop := e ≠ .detected ∧ Phase.next .off e = .violated

theorem breaks_send (v : UInt8) : Breaks (.send v) := ⟨by simp, rfl⟩

theorem breaks_control {v : UInt8} (hv : v ≠ IIC_DVFS_BIT_ICCR_ENABLE) : Breaks (.control v) :=
  ⟨by simp, if_neg hv⟩

theorem dvfsStep_obeys {state : DvfsState} (hact : Acts e act) (he : Breaks e)
    (h : Between events position s) (hs : s.state = state) (hstate : state ≠ .start)
    (hbit : awaited state = some bit) (hafter : 0 < position after)
    (hpos : ∀ d, ((events d).take (position after)).reverse =
      e :: ((events d).take (position state)).reverse) :
    Obeys events position state (dvfsStep mode bit act after) s := by
  obtain rfl := hs
  have hp := (h.progress hstate).2.1
  constructor
  · intro hset
    have hset' : Settles bit s := hset bit (by rw [hbit]; rfl)
    exact (dvfsStep_stepped hact he.1 hp hset').round (hpos s.data) he.1 hstate hafter h
  · intro bit' hbit' hns
    rw [hbit] at hbit'
    obtain rfl := Option.mem_some_iff.mp hbit'
    exact dvfsStep_violated hact he.2 hp hns

def sendPosition : DvfsState → ℕ
  | .setSlave => 1
  | .writeAddr => 2
  | .writeData => 3
  | .stop => 4
  | .done => 5
  | _ => 0

def receivePosition : DvfsState → ℕ
  | .setSlave => 1
  | .writeAddr => 2
  | .retransmit => 3
  | .setSlaveRead => 4
  | .changeSendToRecieve => 5
  | .stopRead => 6
  | .read => 7
  | .done => 8
  | _ => 0

theorem dvfsStart_grows : Keeps LogGrows dvfsStart := by
  intro s
  obtain ⟨t, ht, -, -, hlog⟩ := run_dvfsStart s
  rw [ht]
  unfold LogGrows
  rw [hlog]
  exact (List.suffix_cons _ _).trans (List.suffix_cons _ _)

theorem dvfsDone_grows : Keeps LogGrows dvfsDone :=
  Keeps.bind (awaitIdle_grows _) fun _ => Keeps.bind (writeIccr_grows _) fun _ => Keeps.pure _

theorem dvfsRead_grows : Keeps LogGrows dvfsRead := by
  unfold dvfsRead maskDtee
  refine Keeps.bind readInput_grows fun _ => Keeps.ite (Keeps.pure _) ?_
  refine Keeps.bind (Keeps.bind Keeps.get fun _ => writeIcic_grows _) fun _ => ?_
  refine Keeps.bind readInput_grows fun _ => Keeps.bind (note_grows _) fun _ => ?_
  exact Keeps.bind (modify_grows fun _ => List.suffix_refl _) fun _ =>
    Keeps.bind (setState_grows _) fun _ => Keeps.pure _

/-- The function of each state of a `send`. -/
def sendAction (slave regAddr regData : UInt8) : DvfsState → Prog IicDvfs ℤ
  | .start => dvfsStart
  | .setSlave => dvfsSetSlave slave
  | .writeAddr => dvfsWriteAddr regAddr
  | .writeData => dvfsWriteData regData
  | .stop => dvfsStop
  | .done => dvfsDone
  | _ => Prog.stuck

/-- The function of each state of a `receive`. -/
def receiveAction (slave reg : UInt8) : DvfsState → Prog IicDvfs ℤ
  | .start => dvfsStart
  | .setSlave => dvfsSetSlave slave
  | .writeAddr => dvfsWriteRegAddrRead reg
  | .retransmit => dvfsRetransmit
  | .setSlaveRead => dvfsSetSlaveRead slave
  | .changeSendToRecieve => dvfsChangeSendToRecieve
  | .stopRead => dvfsStopRead
  | .read => dvfsRead
  | .done => dvfsDone
  | _ => Prog.stuck

theorem sendStep_obeys (slave regAddr regData : UInt8)
    (h : Between (fun _ => sendEvents slave regAddr regData) sendPosition s) :
    Obeys (fun _ => sendEvents slave regAddr regData) sendPosition s.state
      (sendStep slave regAddr regData) s := by
  have hrun : (sendStep slave regAddr regData).run s = (sendAction slave regAddr regData s.state).run s := rfl
  rcases hs : s.state <;> rw [hs] at hrun <;> refine Obeys.congr ?_ hrun
  case start =>
    exact (dvfsStart_round rfl (by decide) (fun _ => rfl) hs h).obeys rfl
  case setSlave =>
    exact dvfsStep_obeys (acts_slave _) (breaks_send _) h hs (by simp) rfl (by decide) fun _ => rfl
  case writeAddr =>
    exact dvfsStep_obeys (acts_send _) (breaks_send _) h hs (by simp) rfl (by decide) fun _ => rfl
  case writeData =>
    exact dvfsStep_obeys (acts_send _) (breaks_send _) h hs (by simp) rfl (by decide) fun _ => rfl
  case stop =>
    exact dvfsStep_obeys (acts_control _) (breaks_control (by decide)) h hs (by simp) rfl
      (by decide) fun _ => rfl
  case done => exact (dvfsDone_round (fun _ => rfl) hs h).obeys rfl
  -- the states of a `receive`
  all_goals
    have hpos := (h.progress (by simp [hs])).1
    rw [hs] at hpos
    cases hpos

theorem receiveStep_obeys (slave reg : UInt8)
    (h : Between (receiveEvents slave reg) receivePosition s) :
    Obeys (receiveEvents slave reg) receivePosition s.state (receiveStep slave reg) s := by
  have hrun : (receiveStep slave reg).run s = (receiveAction slave reg s.state).run s := rfl
  rcases hs : s.state <;> rw [hs] at hrun <;> refine Obeys.congr ?_ hrun
  case start =>
    exact (dvfsStart_round rfl (by decide) (fun _ => rfl) hs h).obeys rfl
  case setSlave =>
    exact dvfsStep_obeys (acts_slave _) (breaks_send _) h hs (by simp) rfl (by decide) fun _ => rfl
  case writeAddr =>
    exact dvfsStep_obeys (acts_send _) (breaks_send _) h hs (by simp) rfl (by decide) fun _ => rfl
  case retransmit =>
    exact dvfsStep_obeys (acts_control_unmask _) (breaks_control (by decide)) h hs (by simp) rfl
      (by decide) fun _ => rfl
  case setSlaveRead =>
    exact dvfsStep_obeys (acts_slave _) (breaks_send _) h hs (by simp) rfl (by decide) fun _ => rfl
  case changeSendToRecieve =>
    exact dvfsStep_obeys (acts_control _) (breaks_control (by decide)) h hs (by simp) rfl
      (by decide) fun _ => rfl
  case stopRead =>
    exact dvfsStep_obeys (acts_control_unmask _) (breaks_control (by decide)) h hs (by simp) rfl
      (by decide) fun _ => rfl
  case read => exact (dvfsRead_round (by decide) (fun _ _ => rfl) hs h).obeys rfl
  case done => exact (dvfsDone_round (fun _ => rfl) hs h).obeys rfl
  -- the states of a `send`
  all_goals
    have hpos := (h.progress (by simp [hs])).1
    rw [hs] at hpos
    cases hpos

theorem sendStep_grows (slave regAddr regData : UInt8) :
    Keeps LogGrows (sendStep slave regAddr regData) := by
  refine Keeps.bind Keeps.get fun s => ?_
  cases s.state with
  | start => exact dvfsStart_grows
  | setSlave => exact dvfsStep_grows (acts_slave _).grows
  | writeAddr => exact dvfsStep_grows (acts_send _).grows
  | writeData => exact dvfsStep_grows (acts_send _).grows
  | stop => exact dvfsStep_grows (acts_control _).grows
  | done => exact dvfsDone_grows
  | _ => exact Keeps.stuck

theorem receiveStep_grows (slave reg : UInt8) : Keeps LogGrows (receiveStep slave reg) := by
  refine Keeps.bind Keeps.get fun s => ?_
  cases s.state with
  | start => exact dvfsStart_grows
  | setSlave => exact dvfsStep_grows (acts_slave _).grows
  | writeAddr => exact dvfsStep_grows (acts_send _).grows
  | retransmit => exact dvfsStep_grows (acts_control_unmask _).grows
  | setSlaveRead => exact dvfsStep_grows (acts_slave _).grows
  | changeSendToRecieve => exact dvfsStep_grows (acts_control _).grows
  | stopRead => exact dvfsStep_grows (acts_control_unmask _).grows
  | read => exact dvfsRead_grows
  | done => exact dvfsDone_grows
  | _ => exact Keeps.stuck

theorem sendStep_engine (slave regAddr regData : UInt8) :
    Engine (fun _ => sendEvents slave regAddr regData) sendPosition
      (sendStep slave regAddr regData) where
  round _ h := (sendStep_obeys slave regAddr regData h).1
  violated _ h := (sendStep_obeys slave regAddr regData h).2
  grows := sendStep_grows slave regAddr regData

theorem receiveStep_engine (slave reg : UInt8) :
    Engine (receiveEvents slave reg) receivePosition (receiveStep slave reg) where
  round _ h := (receiveStep_obeys slave reg h).1
  violated _ h := (receiveStep_obeys slave reg h).2
  grows := receiveStep_grows slave reg

/-- The transfers on a bus with a log that starts here, for every sequence of values that the
status and data registers return: each is lawful exactly when every step of it settles. -/
theorem transfers_lawful_iff (s : IicDvfs) (slave reg data : UInt8) (n : ℕ) :
    (Lawful (fun _ => sendEvents slave reg data)
        ((rcarIicDvfsSend slave reg data n).run { s with log := [] }) ↔
      SettledRun (sendStep slave reg data) n (begin.run { s with log := [] }).2) ∧
    (Lawful (receiveEvents slave reg)
        ((rcarIicDvfsReceive slave reg n).run { s with log := [] }) ↔
      SettledRun (receiveStep slave reg) n (begin.run { s with log := [] }).2) := by
  constructor
  · exact (sendStep_engine slave reg data).lawful_iff n _ (.inl ⟨rfl, .inl rfl⟩)
  · exact (receiveStep_engine slave reg).lawful_iff n _ (.inl ⟨rfl, .inl rfl⟩)

/-- A bus on which the registers return these values. -/
def busReturning (input : List UInt8) : IicDvfs :=
  { input := input, iccr := 0, icic := 0, iccl := 0, icch := 0, prr := 0x5500, modemr := 0,
    log := [], state := .start, err := 0, data := 0 }

/-- A slave that does not acknowledge its address, and the wait bit set again right after the
recovery: the register address and the data byte are written with the module off, without a fresh
START, and the `send` succeeds. -/
theorem nacked_send_goes_on :
    let r := (rcarIicDvfsSend 0x30 0x02 0x51 6).run
      (busReturning [1, 1, 4, 4, 0, 2, 0, 0, 2, 0, 0, 2, 0, 0])
    r.1 = some DVFS_COMPLETE ∧
    r.2.log.reverse = [.control 0x01, .control 0x81, .control 0x94, .send 0x60, .detected,
      .control 0x90, .control 0x00, .send 0x02, .send 0x51, .control 0x90, .control 0x00] ∧
    ¬ Lawful (fun _ => sendEvents 0x30 0x02 0x51) r := by
  refine ⟨by decide +kernel, by decide +kernel, fun h => h.1 ?_⟩
  decide +kernel

end RCar.Dvfs
