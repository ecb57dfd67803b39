import RCarM3N.Lib.Runs
import RCarM3N.Model.UsbhsQueue

/-! The request queues over every sequence of calls and interrupts: each request is given back once for each time it was
accepted, requests finish in order, and a pipe that is running has a request. `usbhs_pkt_pop` leaves IS_RUNNING set, so the
last holds only where no request of a running pipe is taken away as the last one. -/

namespace RCar.Usbhsg

open QueueEvent

variable {s t : State} {c : Cont} {e p q req : ℕ} {f : Fifo} {type : PktType} {x : Pipe}

/-! ## The purpose -/

/-- The requests in the list of a pipe. -/
def reqs (s : State) : Option ℕ → List ℕ
  | none => []
  | some p => (s.pipe p).list.map Pkt.req

/-- The loop of `usbhsg_pipe_disable` is going on for the pipe. -/
def Cont.Takes (c : Cont) (p : ℕ) : Prop := c = .halt p ∨ ∃ e, c = .disable e p

def TakenDown (stack : List Cont) (p : ℕ) : Prop := ∃ c ∈ stack, c.Takes p

/-- What the queues promise in a state. -/
structure QueuesOk (s : State) : Prop where
  /-- no request has been given back more often than it was accepted -/
  atMostOnce : ∀ r, (completedItems s.log).count r ≤ (acceptedItems s.log).count r
  /-- a request in a list has not been given back since it was accepted -/
  queued : ∀ p, ∀ r ∈ reqs s p, (acceptedItems s.log).count r = (completedItems s.log).count r + 1
  /-- a request that has left its list has been -/
  exactlyOnce : ∀ r, (∀ p, r ∉ reqs s p) → (completedItems s.log).count r = (acceptedItems s.log).count r
  /-- what finishes with status 0 does so in the order of the queue -/
  inOrder : ∀ p, List.Sublist (finishedAt 0 s.log (some p)) (acceptedAt s.log (some p))
  /-- a pipe that is running has a request, unless a call is just emptying its list -/
  running : ∀ p, (s.pipe p).isRunning = true → (s.pipe p).list ≠ [] ∨ TakenDown s.stack p

/-- A request that is queued on an idle pipe is given back at once, or the pipe is running. -/
def StartsTransfer (s : State) (a : Action) (t : State) : Prop :=
  ∀ e req length zero f p, a = .queue e req length zero true f → s.uep e = some p → (s.pipe p).list = [] →
    ¬TakenDown s.stack p → (t.pipe p).isRunning = true ∨ (t.pipe p).list = []

/-- What the callers keep to: a request that is queued is not queued again, and only requests of an endpoint are dequeued
from it. -/
def Allowed (s : State) : Action → Prop
  | .queue _ req _ _ _ _ => ∀ p, req ∉ reqs s p
  | .dequeue e req => ∃ p, s.uep e = some p ∧ req ∈ reqs s (some p)
  | _ => True

inductive Step : State → Action → State → Prop
  | mk {s : State} {a : Action} {t : State} (hallowed : Allowed s a) (h : s.step a = some t) : Step s a t

/-- After the start of the gadget: nothing is queued. -/
structure Fresh (s : State) : Prop where
  list : ∀ p, (s.pipe p).list = []
  running : ∀ p, (s.pipe p).isRunning = false
  uep : ∀ e p, s.uep e = some p → (s.pipe p).isUsed = true ∧ (s.pipe p).modPrivate = some e
  stack : s.stack = []
  log : s.log = []

/-- The last request of a pipe may go without the flag being cleared. -/
def MayEmpty (s : State) (stack : List Cont) (p : ℕ) : Prop := (s.pipe p).isRunning = false ∨ TakenDown stack p

/-- A control stage end that is the last request of its pipe finds the pipe not running. -/
def EndsIdle (s : State) (p : ℕ) : Prop :=
  ∀ pkt, (s.pipe p).list = [pkt] → pkt.handler = .usbhsCtrlStageEnd → MayEmpty s s.stack p

/-- The condition on a step: the last request of a pipe is dequeued, halted or ended as a control stage only while the
pipe is not running; and no endpoint is disabled in a callback of its own `usbhsg_ep_disable`. -/
def Meets (s : State) : Action → Prop
  | .dequeue e req => ∀ p, s.uep e = some p → reqs s (some p) = [req] → MayEmpty s s.stack p
  | .disable e => ∀ p, .disable e p ∉ s.stack
  | .irq p _ => EndsIdle s p
  | .resume _ =>
    match s.stack with
    | .start p :: _ => EndsIdle s p
    | .halt p :: l => (s.pipe p).list = [] → MayEmpty s l p
    | _ => True
  | _ => True

/-- Where a request is queued, its handler is known and the FIFO is free. -/
def FifoFree (s : State) : Action → Prop
  | .queue e _ _ _ _ f => f.busy = false ∧ f.selected = true ∧
      ∀ p, s.uep e = some p → ∃ h, (s.pipe p).handler = some h ∧ h ≠ .usbhsfNull
  | _ => True

/-! ## The handlers -/

section Handlers

variable {maxp : ℕ} {run : Bool} {pkt : Pkt}

theorem func_req (h : Handler) : (h.func type maxp run pkt f).pkt.req = pkt.req := by
  cases type <;> cases h <;>
    simp only [Handler.func, Handler.prepare, Handler.tryRun, usbhsfNullHandle, usbhsfPioPreparePush, usbhsfPioTryPush,
      usbhsfPreparePop, usbhsfPioTryPop, usbhsfCtrlStageEnd, usbhsfDmaPreparePush, usbhsfDmaTryPop] <;>
    split_ifs <;> rfl

theorem pioTryPush_running (h : (usbhsfPioTryPush maxp run pkt f).isDone = true) :
    (usbhsfPioTryPush maxp run pkt f).running = false := by
  unfold usbhsfPioTryPush at h ⊢
  by_cases h1 : (!f.selected) = true
  · simp [h1] at h
  · by_cases h2 : (!f.accessible || !f.ready) = true
    · simp [h1, h2] at h
    · simp only [h1, h2, if_false, Bool.false_eq_true] at h ⊢
      rw [h]
      rfl

theorem pioTryPop_running (h : (usbhsfPioTryPop maxp run pkt f).isDone = true) :
    (usbhsfPioTryPop maxp run pkt f).running = false := by
  unfold usbhsfPioTryPop at h ⊢
  by_cases h1 : (!f.selected || !f.ready) = true
  · simp [h1] at h
  · simp only [h1, if_false, Bool.false_eq_true] at h ⊢
    by_cases h2 : pkt.actual + min (pkt.length - pkt.actual) f.rcvLen = pkt.length ∨
        min (pkt.length - pkt.actual) f.rcvLen < maxp
    · rw [if_pos h2]
    · rw [if_neg h2] at h
      cases h

/-- A handler that is done has cleared the flag, unless it ends a control stage. -/
theorem func_done {h : Handler} (hdone : (h.func type maxp run pkt f).isDone = true) :
    (h.func type maxp run pkt f).running = false ∨
      h = .usbhsCtrlStageEnd ∧ (h.func type maxp run pkt f).running = run := by
  have hprepare : ∀ pkt : Pkt, (usbhsfPioPreparePush maxp run pkt f).isDone = true →
      (usbhsfPioPreparePush maxp run pkt f).running = false := by
    intro pkt h
    unfold usbhsfPioPreparePush at h ⊢
    split_ifs at h ⊢
    exact pioTryPush_running h
  have hpop : (usbhsfPreparePop run pkt f).isDone = false := by
    unfold usbhsfPreparePop
    split_ifs <;> rfl
  cases h with
  | usbhsCtrlStageEnd => cases type <;> exact .inr ⟨rfl, rfl⟩
  | usbhsfNull => cases type <;> cases hdone
  | usbhsFifoPioPush =>
    cases type with
    | USBHSF_PKT_PREPARE => exact .inl (hprepare pkt hdone)
    | USBHSF_PKT_TRY_RUN => exact .inl (pioTryPush_running hdone)
  | usbhsFifoPioPop =>
    cases type with
    | USBHSF_PKT_PREPARE => exact absurd (hpop.symm.trans hdone) Bool.false_ne_true
    | USBHSF_PKT_TRY_RUN => exact .inl (pioTryPop_running hdone)
  | usbhsFifoDmaPush =>
    cases type with
    | USBHSF_PKT_PREPARE =>
      left
      simp only [Handler.func, Handler.prepare, usbhsfDmaPreparePush] at hdone ⊢
      split_ifs at hdone ⊢
      exact hprepare _ hdone
    | USBHSF_PKT_TRY_RUN => cases hdone
  | usbhsFifoDmaPop =>
    cases type with
    | USBHSF_PKT_PREPARE => exact absurd (hpop.symm.trans hdone) Bool.false_ne_true
    | USBHSF_PKT_TRY_RUN =>
      left
      simp only [Handler.func, Handler.tryRun, usbhsfDmaTryPop] at hdone ⊢
      split_ifs at hdone ⊢
      exact pioTryPop_running hdone

/-- A request that is prepared on an idle pipe with a free FIFO is done or keeps the pipe running. -/
theorem prepare_starts {h : Handler} (hnull : h ≠ .usbhsfNull) (hbusy : f.busy = false) (hsel : f.selected = true) :
    (h.prepare maxp false pkt f).running = true ∨ (h.prepare maxp false pkt f).isDone = true := by
  have hpush : ∀ pkt : Pkt, (usbhsfPioTryPush maxp false pkt f).running = true ∨
      (usbhsfPioTryPush maxp false pkt f).isDone = true := by
    intro pkt
    unfold usbhsfPioTryPush
    by_cases h2 : (!f.accessible || !f.ready) = true
    · simp [hsel, h2]
    · simp only [hsel, h2, Bool.not_true, Bool.false_eq_true, if_false]
      exact (by decide : ∀ b : Bool, (!b) = true ∨ b = true) _
  cases h with
  | usbhsfNull => exact absurd rfl hnull
  | usbhsFifoPioPush => exact hpush pkt
  | usbhsFifoPioPop => simp [Handler.prepare, usbhsfPreparePop, hbusy]
  | usbhsCtrlStageEnd => exact .inr rfl
  | usbhsFifoDmaPush => simpa [Handler.prepare, usbhsfDmaPreparePush, usbhsfPioPreparePush, hbusy] using hpush _
  | usbhsFifoDmaPop => simp [Handler.prepare, usbhsfPreparePop, hbusy]

end Handlers

/-! ## What a state keeps -/

/-- Endpoints and pipes belong together, and only the pipe of an endpoint has requests. -/
structure Links (s : State) : Prop where
  uep : ∀ e p, s.uep e = some p → (s.pipe p).isUsed = true ∧ (s.pipe p).modPrivate = some e
  list : ∀ p, (s.pipe p).list ≠ [] → ∃ e, s.uep e = some p
  disabling : ∀ e p, .disable e p ∈ s.stack → s.uep e = some p
  once : (s.stack.filterMap fun | .disable e _ => some e | _ => none).Nodup

structure Inv (s : State) : Prop where
  links : Links s
  books : Books 0 (reqs s) s.log
  running : ∀ p, (s.pipe p).isRunning = true → (s.pipe p).list ≠ [] ∨ TakenDown s.stack p

theorem Inv.queuesOk (h : Inv s) : QueuesOk s where
  atMostOnce r := h.books.completed_le r
  queued p r hr := h.books.queued p r hr
  exactlyOnce r hr := (h.books.gone r hr).symm
  inOrder p := h.books.finished_sublist (some p)
  running := h.running

theorem reqs_setPipe (s : State) (p : ℕ) (x : Pipe) :
    reqs (s.setPipe p x) = Function.update (reqs s) (some p) (x.list.map Pkt.req) := by
  funext k
  cases k with
  | none => rfl
  | some q =>
    by_cases hq : q = p
    · subst hq
      simp [reqs, State.setPipe]
    · simp [reqs, State.setPipe, hq]

theorem pipe_setPipe (s : State) (p q : ℕ) (x : Pipe) :
    (s.setPipe p x).pipe q = if q = p then x else s.pipe q := by
  by_cases hq : q = p
  · subst hq
    simp [State.setPipe]
  · simp [State.setPipe, hq]

/-- A pipe changes and stays with its endpoint. -/
theorem Links.setPipe (h : Links s) (hused : x.isUsed = (s.pipe p).isUsed)
    (hprivate : x.modPrivate = (s.pipe p).modPrivate) (hlist : x.list ≠ [] → ∃ e, s.uep e = some p) :
    Links (s.setPipe p x) := by
  refine ⟨fun e q hq => ?_, fun q hq => ?_, h.disabling, h.once⟩
  · rw [pipe_setPipe]
    split_ifs with hqp
    · subst hqp
      rw [hused, hprivate]
      exact h.uep e q hq
    · exact h.uep e q hq
  · rw [pipe_setPipe] at hq
    split_ifs at hq with hqp
    · subst hqp
      exact hlist hq
    · exact h.list q hq

/-- The last request of a pipe may go. -/
theorem running_setPipe (h : ∀ q, (s.pipe q).isRunning = true → (s.pipe q).list ≠ [] ∨ TakenDown s.stack q)
    (hx : x.isRunning = true → x.list ≠ [] ∨ TakenDown s.stack p) (q : ℕ) :
    ((s.setPipe p x).pipe q).isRunning = true → ((s.setPipe p x).pipe q).list ≠ [] ∨ TakenDown s.stack q := by
  rw [pipe_setPipe]
  split_ifs with hq
  · subst hq
    exact hx
  · exact h q

theorem takenDown_start {stack : List Cont} : TakenDown (.start q :: stack) p ↔ TakenDown stack p := by
  simp [TakenDown, Cont.Takes]

theorem takenDown_cons {stack : List Cont} : TakenDown (c :: stack) q ↔ c.Takes q ∨ TakenDown stack q := by
  simp [TakenDown]

/-! ## The packet handler -/

section Handler

variable {pkt : Pkt} {rest : List Pkt}

/-- What the handler of the first packet does. -/
def outcome (s : State) (type : PktType) (p : ℕ) (pkt : Pkt) (f : Fifo) : Outcome :=
  pkt.handler.func type (s.pipe p).maxp (s.pipe p).isRunning pkt f

theorem pktHandler_nil (h : (s.pipe p).list = []) : usbhsfPktHandler type p f s = s := by
  simp only [usbhsfPktHandler, h]

theorem pktHandler_more (h : (s.pipe p).list = pkt :: rest) (hdone : (outcome s type p pkt f).isDone = false) :
    usbhsfPktHandler type p f s = s.setPipe p { s.pipe p with
      list := (outcome s type p pkt f).pkt :: rest
      isRunning := (outcome s type p pkt f).running } := by
  unfold outcome at *
  simp only [usbhsfPktHandler, h, hdone, Bool.false_eq_true, if_false]

/-- The endpoint of a pipe with a request is still there. -/
theorem pktHandler_done (hlinks : Links s) (h : (s.pipe p).list = pkt :: rest)
    (hdone : (outcome s type p pkt f).isDone = true) :
    usbhsfPktHandler type p f s = ((s.setPipe p { s.pipe p with
      list := rest
      isRunning := (outcome s type p pkt f).running }).giveBack (some p) pkt.req 0).push (.start p) := by
  obtain ⟨e, he⟩ := hlinks.list p (by simp [h])
  have hprivate := (hlinks.uep e p he).2
  have hreq : (outcome s type p pkt f).pkt.req = pkt.req := func_req _
  unfold outcome at *
  simp only [usbhsfPktHandler, h, hdone, if_true, usbhsgQueueDone, pipe_setPipe, hprivate, hreq]

theorem Inv.pktHandler (h : Inv s) (hends : EndsIdle s p) : Inv (usbhsfPktHandler type p f s) := by
  cases hlist : (s.pipe p).list with
  | nil =>
    rw [pktHandler_nil hlist]
    exact h
  | cons pkt rest =>
    have howner : ∃ e, s.uep e = some p := h.links.list p (by simp [hlist])
    have hq : reqs s (some p) = pkt.req :: rest.map Pkt.req := by simp [reqs, hlist]
    cases hdone : (outcome s type p pkt f).isDone with
    | false =>
      rw [pktHandler_more hlist hdone]
      have hreq : (outcome s type p pkt f).pkt.req = pkt.req := func_req _
      refine ⟨h.links.setPipe rfl rfl fun _ => howner, ?_, fun q => running_setPipe h.running (fun _ => .inl (by simp)) q⟩
      rw [reqs_setPipe, List.map_cons, hreq, ← hq, Function.update_eq_self]
      exact h.books
    | true =>
      rw [pktHandler_done h.links hlist hdone]
      have hrunning : (outcome s type p pkt f).running = true → rest ≠ [] ∨ TakenDown s.stack p := by
        intro hrun
        rcases func_done hdone with hoff | ⟨hend, hsame⟩
        · exact absurd (hoff.symm.trans hrun) Bool.false_ne_true
        · by_cases hrest : rest = []
          · subst hrest
            exact .inr ((hends pkt hlist hend).resolve_left fun hoff =>
              Bool.false_ne_true ((hsame.trans hoff).symm.trans hrun))
          · exact .inl hrest
      have hlinks := h.links.setPipe (p := p) (x := { s.pipe p with
        list := rest
        isRunning := (outcome s type p pkt f).running }) rfl rfl fun _ => howner
      refine ⟨⟨hlinks.uep, hlinks.list, fun e q he => ?_, hlinks.once⟩, ?_, fun q hr => ?_⟩
      · exact hlinks.disabling e q ((List.mem_cons.mp he).resolve_left (by simp))
      · have hbooks := h.books.complete (k := some p) (a := pkt.req) 0 (by simp [hq]) fun _ => by simp [hq]
        rw [hq, List.erase_cons_head] at hbooks
        change Books 0 (reqs (s.setPipe p _)) _
        rw [reqs_setPipe]
        exact hbooks
      · change _ ∨ TakenDown (.start p :: s.stack) q
        rw [takenDown_start]
        exact running_setPipe h.running hrunning q hr

end Handler

/-! ## The calls -/

theorem listDel_eq (h : ∀ p, req ∉ reqs s p) : s.listDel req = s := by
  have hpipe : ∀ p, { s.pipe p with list := (s.pipe p).list.filter fun pkt => pkt.req ≠ req } = s.pipe p := by
    intro p
    have hfilter : (s.pipe p).list.filter (fun pkt => pkt.req ≠ req) = (s.pipe p).list := by
      rw [List.filter_eq_self]
      intro pkt hpkt
      refine decide_eq_true ?_
      rintro rfl
      exact h (some p) (List.mem_map_of_mem hpkt)
    rw [hfilter]
  unfold State.listDel
  rw [funext hpipe]

theorem Inv.mayEmpty (h : Inv s) (hlist : (s.pipe p).list = []) : MayEmpty s s.stack p := by
  cases hrun : (s.pipe p).isRunning with
  | false => exact .inl hrun
  | true => exact .inr ((h.running p hrun).resolve_left (by simp [hlist]))

theorem Inv.pktPush (h : Inv s) (hnew : ∀ p, req ∉ reqs s p) (hp : s.uep e = some p) (length : ℕ) (zero : Bool) :
    Inv (usbhsPktPush p req length zero s) := by
  unfold usbhsPktPush
  simp only [listDel_eq hnew]
  have hlinks := h.links.setPipe (p := p) (x := { s.pipe p with
    list := (s.pipe p).list ++ [⟨req, (s.pipe p).handler.getD .usbhsfNull, length, zero, 0⟩]
    handler := some ((s.pipe p).handler.getD .usbhsfNull) }) rfl rfl fun _ => ⟨e, hp⟩
  refine ⟨⟨hlinks.uep, hlinks.list, hlinks.disabling, hlinks.once⟩, ?_, fun q => running_setPipe h.running (fun _ => .inl (by simp)) q⟩
  have hbooks := h.books.accept hnew (some p)
  change Books 0 (reqs (s.setPipe p _)) _
  rw [reqs_setPipe, List.map_append]
  exact hbooks

theorem endsIdle_push (h : Inv s) (hnew : ∀ p, req ∉ reqs s p) (length : ℕ) (zero : Bool) :
    EndsIdle (usbhsPktPush p req length zero s) p := by
  unfold usbhsPktPush
  simp only [listDel_eq hnew]
  intro pkt hlist _
  have hlist' : (s.pipe p).list ++ [⟨req, (s.pipe p).handler.getD .usbhsfNull, length, zero, 0⟩] = [pkt] := by
    simpa [State.setPipe] using hlist
  have hnil : (s.pipe p).list = [] := by
    have hlen := congrArg List.length hlist'
    simp only [List.length_append, List.length_singleton] at hlen
    exact List.eq_nil_of_length_eq_zero (by omega)
  simpa [MayEmpty, State.setPipe] using h.mayEmpty hnil

theorem Inv.epQueue (h : Inv s) (hnew : ∀ p, req ∉ reqs s p) (length : ℕ) (zero connected : Bool) :
    Inv (usbhsgEpQueue e req length zero connected f s) := by
  unfold usbhsgEpQueue
  cases hp : s.uep e with
  | none => exact h
  | some p =>
    cases connected with
    | false => exact h
    | true => exact (h.pktPush hnew hp length zero).pktHandler (endsIdle_push h hnew length zero)

theorem mem_listDel {pkt : Pkt} : pkt ∈ ((s.listDel req).pipe p).list ↔ pkt ∈ (s.pipe p).list ∧ pkt.req ≠ req := by
  simp [State.listDel]

/-- The request leaves its own list, and no other list changes. -/
theorem reqs_listDel (h : Inv s) (hreq : req ∈ reqs s (some p)) :
    reqs (s.listDel req) = Function.update (reqs s) (some p) ((reqs s (some p)).erase req) := by
  have hfilter : ∀ q, reqs (s.listDel req) (some q) = (reqs s (some q)).filter fun r => r ≠ req := by
    intro q
    simp only [reqs, State.listDel, List.filter_map]
    rfl
  funext k
  cases k with
  | none => rfl
  | some q =>
    rw [hfilter]
    by_cases hq : q = p
    · subst hq
      rw [Function.update_self, (h.books.nodup _).erase_eq_filter]
      refine List.filter_congr fun r _ => ?_
      by_cases hr : r = req <;> simp [hr]
    · rw [Function.update_of_ne (by simpa using hq), List.filter_eq_self]
      intro r hr
      refine decide_eq_true ?_
      rintro rfl
      exact hq (Option.some.inj (h.books.apart _ _ _ hr hreq))

theorem Inv.epDequeue (h : Inv s) (hp : s.uep e = some p) (hreq : req ∈ reqs s (some p))
    (hlast : reqs s (some p) = [req] → MayEmpty s s.stack p) : Inv (usbhsgEpDequeue e req s) := by
  have heq : usbhsgEpDequeue e req s = (s.listDel req).giveBack (some p) req (-ECONNRESET) := by
    simp only [usbhsgEpDequeue, hp]
  rw [heq]
  have hsub : ∀ q, ((s.listDel req).pipe q).list ≠ [] → (s.pipe q).list ≠ [] := by
    intro q hq hnil
    obtain ⟨pkt, hpkt⟩ := List.exists_mem_of_ne_nil _ hq
    have hmem := (mem_listDel.mp hpkt).1
    rw [hnil] at hmem
    cases hmem
  refine ⟨⟨fun e q hq => h.links.uep e q hq, fun q hq => h.links.list q (hsub q hq), h.links.disabling, h.links.once⟩,
    ?_, fun q hrun => ?_⟩
  · have hbooks := h.books.complete (k := some p) (a := req) (-ECONNRESET) hreq fun h0 => absurd h0 (by decide)
    change Books 0 (reqs (s.listDel req)) _
    rw [reqs_listDel h hreq]
    exact hbooks
  · have hrun' : (s.pipe q).isRunning = true := hrun
    rcases h.running q hrun' with hlist | htaken
    · by_cases hempty : ((s.listDel req).pipe q).list = []
      · -- the request was the only one of the pipe
        have hreqs : reqs (s.listDel req) (some q) = [] := by simp [reqs, hempty]
        rw [reqs_listDel h hreq] at hreqs
        have hq : q = p := by
          by_contra hq
          rw [Function.update_of_ne (by simpa using hq)] at hreqs
          exact hlist (List.map_eq_nil_iff.mp hreqs)
        subst hq
        rw [Function.update_self, List.erase_eq_nil_iff] at hreqs
        rcases hreqs with hreqs | hreqs
        · exact absurd (List.map_eq_nil_iff.mp hreqs) hlist
        · exact .inr ((hlast hreqs).resolve_left (by simp [hrun']))
      · exact .inl hempty
    · exact .inr htaken

/-! ## Emptying a list -/

theorem Inv.popHalt (h : Inv (s.push (.halt p))) (hend : MayEmpty s s.stack p) : Inv s := by
  refine ⟨⟨h.links.uep, h.links.list, fun e q hq => h.links.disabling e q (.tail _ hq), h.links.once⟩, h.books,
    fun q hrun => ?_⟩
  rcases h.running q hrun with hlist | htaken
  · exact .inl hlist
  · rcases takenDown_cons.mp htaken with hq | htaken
    · have hqp : p = q := by simpa [Cont.Takes] using hq
      subst hqp
      exact .inr (hend.resolve_left (by simpa [State.push] using hrun))
    · exact .inr htaken

theorem finish_disable (hp : s.uep e = some p) : (Cont.disable e p).finish s =
    some { s.setPipe p { s.pipe p with isUsed := false, isRunning := false, modPrivate := none } with
      uep := Function.update s.uep e none } := by
  simp [Cont.finish, State.setPipe, hp]

/-- The endpoint gives its pipe up. -/
theorem Inv.popDisable (h : Inv (s.push (.disable e p))) (hlist : (s.pipe p).list = [])
    (hstep : (Cont.disable e p).finish s = some t) : Inv t := by
  have hp : s.uep e = some p := h.links.disabling e p (.head _)
  rw [finish_disable hp, Option.some.injEq] at hstep
  subst hstep
  have honce := h.links.once
  simp only [State.push, List.filterMap_cons, List.nodup_cons] at honce
  have hother : ∀ e' q, .disable e' q ∈ s.stack → e' ≠ e := by
    rintro e' q hmem rfl
    exact honce.1 (List.mem_filterMap.mpr ⟨_, hmem, rfl⟩)
  have hne : ∀ e' q, e' ≠ e → s.uep e' = some q → q ≠ p := by
    rintro e' q he hq rfl
    have h1 := (h.links.uep e' q hq).2
    have h2 := (h.links.uep e q hp).2
    exact he (Option.some.inj (h1.symm.trans h2))
  refine ⟨⟨fun e' q hq => ?_, fun q hq => ?_, fun e' q hmem => ?_, honce.2⟩, ?_, fun q hrun => ?_⟩
  · by_cases he : e' = e
    · subst he
      simp at hq
    · simp only [Function.update_of_ne he] at hq
      change ((s.setPipe p _).pipe q).isUsed = true ∧ ((s.setPipe p _).pipe q).modPrivate = some e'
      rw [pipe_setPipe, if_neg (hne e' q he hq)]
      exact h.links.uep e' q hq
  · change ((s.setPipe p _).pipe q).list ≠ [] at hq
    rw [pipe_setPipe] at hq
    split_ifs at hq with hqp
    · exact absurd hlist hq
    · obtain ⟨e', he'⟩ := h.links.list q hq
      have he : e' ≠ e := by
        rintro rfl
        exact hqp (Option.some.inj (he'.symm.trans hp))
      exact ⟨e', (Function.update_of_ne he none s.uep).trans he'⟩
  · exact (Function.update_of_ne (hother e' q hmem) none s.uep).trans (h.links.disabling e' q (.tail _ hmem))
  · have hreqs : reqs (s.setPipe p { s.pipe p with isUsed := false, isRunning := false, modPrivate := none }) = reqs s := by
      rw [reqs_setPipe]
      exact Function.update_eq_self _ _
    change Books 0 (reqs (s.setPipe p _)) _
    rw [hreqs]
    exact h.books
  · change ((s.setPipe p _).pipe q).isRunning = true at hrun
    change ((s.setPipe p _).pipe q).list ≠ [] ∨ _
    rw [pipe_setPipe] at hrun ⊢
    split_ifs at hrun ⊢ with hqp
    rcases h.running q hrun with hq | htaken
    · exact .inl hq
    · refine .inr ((takenDown_cons.mp htaken).resolve_left ?_)
      simpa [Cont.Takes] using Ne.symm hqp

theorem Inv.pipeDisable (h : Inv (s.push c)) (hc : c.Takes p)
    (hend : (s.pipe p).list = [] → c = .halt p → MayEmpty s s.stack p) (hstep : usbhsgPipeDisable c p s = some t) :
    Inv t := by
  cases hlist : (s.pipe p).list with
  | nil =>
    simp only [usbhsgPipeDisable, hlist] at hstep
    rcases hc with rfl | ⟨e, rfl⟩
    · simp only [Cont.finish, Option.some.injEq] at hstep
      subst hstep
      exact h.popHalt (hend hlist rfl)
    · exact h.popDisable hlist hstep
  | cons pkt rest =>
    simp only [usbhsgPipeDisable, hlist, Option.some.injEq] at hstep
    subst hstep
    have hlist' : ((s.push c).pipe p).list = pkt :: rest := hlist
    have hq : reqs (s.push c) (some p) = pkt.req :: rest.map Pkt.req := by simp [reqs, hlist']
    have howner := h.links.list p (by simp [hlist'])
    have hlinks := h.links.setPipe (p := p) (x := { s.pipe p with list := rest }) rfl rfl fun _ => howner
    have htaken : TakenDown (c :: s.stack) p := takenDown_cons.mpr (.inl hc)
    refine ⟨⟨hlinks.uep, hlinks.list, hlinks.disabling, hlinks.once⟩, ?_,
      fun q => running_setPipe h.running (fun _ => .inr htaken) q⟩
    have hbooks := h.books.complete (k := some p) (a := pkt.req) (-ESHUTDOWN) (by simp [hq])
      fun h0 => absurd h0 (by decide)
    rw [hq, List.erase_cons_head] at hbooks
    change Books 0 (reqs ((s.push c).setPipe p _)) _
    rw [reqs_setPipe]
    exact hbooks

theorem Inv.epDisable (h : Inv s) (honce : ∀ p, .disable e p ∉ s.stack) (hstep : usbhsgEpDisable e s = some t) :
    Inv t := by
  unfold usbhsgEpDisable at hstep
  cases hp : s.uep e with
  | none =>
    simp only [hp, Option.some.injEq] at hstep
    subst hstep
    exact h
  | some p =>
    simp only [hp] at hstep
    refine Inv.pipeDisable ⟨⟨h.links.uep, h.links.list, fun e' q hmem => ?_, ?_⟩, h.books, fun q hrun => ?_⟩
      (.inr ⟨e, rfl⟩) (fun _ h0 => nomatch h0) hstep
    · rcases List.mem_cons.mp hmem with heq | hmem
      · cases heq
        exact hp
      · exact h.links.disabling e' q hmem
    · simp only [State.push, List.filterMap_cons, List.nodup_cons]
      refine ⟨fun hmem => ?_, h.links.once⟩
      obtain ⟨c, hc, heq⟩ := List.mem_filterMap.mp hmem
      cases c with
      | disable e' q =>
        obtain rfl := Option.some.inj heq
        exact honce q hc
      | start q => cases heq
      | halt q => cases heq
    · exact (h.running q hrun).imp_right fun h => takenDown_cons.mpr (.inr h)

theorem Inv.epSetHalt (h : Inv s) (hstep : usbhsgEpSetHalt e s = some t) : Inv t := by
  unfold usbhsgEpSetHalt at hstep
  cases hp : s.uep e with
  | none => simp [hp] at hstep
  | some p =>
    simp only [hp] at hstep
    refine Inv.pipeDisable (c := .halt p) ⟨⟨h.links.uep, h.links.list, fun e' q hmem => ?_, h.links.once⟩, h.books,
      fun q hrun => ?_⟩
      (.inl rfl) (fun hlist _ => h.mayEmpty hlist) hstep
    · exact h.links.disabling e' q ((List.mem_cons.mp hmem).resolve_left (by simp))
    · exact (h.running q hrun).imp_right fun h => takenDown_cons.mpr (.inr h)

/-! ## Enabling -/

theorem getPipe_free {type : ℕ} (h : usbhspGetPipe type s = some p) : (s.pipe p).isUsed = false := by
  have hp := List.find?_some h
  simp only [Bool.and_eq_true, Bool.not_eq_true'] at hp
  exact hp.2

/-- A pipe that is not used has no request and no endpoint. -/
theorem Inv.unused (h : Inv s) (hp : (s.pipe p).isUsed = false) :
    (s.pipe p).list = [] ∧ ∀ e q, s.uep e = some q → q ≠ p := by
  have hne : ∀ e q, s.uep e = some q → q ≠ p := by
    rintro e q hq rfl
    exact Bool.false_ne_true (hp.symm.trans (h.links.uep e q hq).1)
  refine ⟨?_, hne⟩
  by_contra hlist
  obtain ⟨e, he⟩ := h.links.list p hlist
  exact hne e p he rfl

theorem Inv.epEnable (h : Inv s) (e type : ℕ) (dirIn : Bool) (maxp : ℕ) (barrier : Bool) :
    Inv (usbhsgEpEnable e type dirIn maxp barrier s) := by
  unfold usbhsgEpEnable
  cases he : s.uep e with
  | some _ => exact h
  | none =>
    cases hget : usbhspGetPipe type s with
    | none => exact h
    | some p =>
      obtain ⟨hlist, hne⟩ := h.unused (getPipe_free hget)
      -- whatever becomes of the free pipe, the others stay as they are
      have hother : ∀ (x : Pipe) e' q, s.uep e' = some q →
          ((s.setPipe p x).pipe q).isUsed = true ∧ ((s.setPipe p x).pipe q).modPrivate = some e' := by
        intro x e' q hq
        rw [pipe_setPipe, if_neg (hne e' q hq)]
        exact h.links.uep e' q hq
      have hlists : ∀ x : Pipe, x.list = [] → ∀ q, ((s.setPipe p x).pipe q).list ≠ [] → ∃ e', s.uep e' = some q := by
        intro x hx q hq
        rw [pipe_setPipe] at hq
        split_ifs at hq with hqp
        · exact absurd hx hq
        · exact h.links.list q hq
      have hbooks : ∀ x : Pipe, x.list = [] → Books 0 (reqs (s.setPipe p x)) s.log := by
        intro x hx
        have hnil : reqs s (some p) = x.list.map Pkt.req := by simp [reqs, hlist, hx]
        rw [reqs_setPipe, ← hnil, Function.update_eq_self]
        exact h.books
      have hrun : ∀ x : Pipe, x.isRunning = false → ∀ q, ((s.setPipe p x).pipe q).isRunning = true →
          ((s.setPipe p x).pipe q).list ≠ [] ∨ TakenDown s.stack q :=
        fun x hx q => running_setPipe h.running (fun hr => absurd (hx.symm.trans hr) Bool.false_ne_true) q
      simp only
      cases barrier with
      | false => exact ⟨⟨hother _, hlists _ rfl, h.links.disabling, h.links.once⟩, hbooks _ rfl, hrun _ rfl⟩
      | true =>
        have hupdate : ∀ e', e' ≠ e → Function.update s.uep e (some p) e' = s.uep e' :=
          fun e' he' => Function.update_of_ne he' _ _
        simp only [Bool.not_true, Bool.false_eq_true, if_false]
        refine ⟨⟨fun e' q hq => ?_, fun q hq => ?_, fun e' q hmem => ?_, h.links.once⟩, hbooks _ rfl, hrun _ rfl⟩
        · by_cases he' : e' = e
          · subst he'
            obtain rfl : p = q := by simpa using hq
            simp [State.setPipe]
          · exact hother _ e' q ((hupdate e' he').symm.trans hq)
        · obtain ⟨e', he'⟩ := hlists _ rfl q hq
          refine ⟨e', (hupdate e' ?_).trans he'⟩
          rintro rfl
          rw [he] at he'
          cases he'
        · have hq := h.links.disabling e' q hmem
          refine (hupdate e' ?_).trans hq
          rintro rfl
          rw [he] at hq
          cases hq

theorem Inv.ctrlStage (h : Inv s) (p : ℕ) (handler : Option Handler) :
    Inv (s.setPipe p { s.pipe p with handler := handler }) := by
  refine ⟨h.links.setPipe rfl rfl (h.links.list p), ?_, fun q =>
    running_setPipe (x := { s.pipe p with handler := handler }) h.running (h.running p) q⟩
  rw [reqs_setPipe]
  exact (Function.update_eq_self (some p) (reqs s)).symm ▸ h.books

/-! ## The steps -/

theorem Inv.popStart {l : List Cont} (h : Inv s) (hs : s.stack = .start p :: l) : Inv { s with stack := l } := by
  have honce := h.links.once
  rw [hs] at honce
  refine ⟨⟨h.links.uep, h.links.list, fun e q hmem => h.links.disabling e q ?_, honce⟩, h.books, fun q hrun => ?_⟩
  · rw [hs]
    exact .tail _ hmem
  · have hr := h.running q hrun
    rwa [hs, takenDown_start] at hr

theorem Inv.resume (h : Inv s) (hmeets : Meets s (.resume f)) (hstep : s.step (.resume f) = some t) : Inv t := by
  cases hs : s.stack with
  | nil => simp [State.step, hs] at hstep
  | cons c l =>
    have hpush : ({ s with stack := l } : State).push c = s := by simp [State.push, ← hs]
    cases c with
    | start p =>
      simp only [State.step, hs, Option.some.injEq] at hstep
      subst hstep
      simp only [Meets, hs] at hmeets
      refine (h.popStart hs).pktHandler fun pkt hlist hend => ?_
      have hidle := hmeets pkt hlist hend
      rw [MayEmpty, hs, takenDown_start] at hidle
      exact hidle
    | disable e p =>
      simp only [State.step, hs] at hstep
      exact Inv.pipeDisable (hpush.symm ▸ h) (.inr ⟨e, rfl⟩) (fun _ h0 => nomatch h0) hstep
    | halt p =>
      simp only [State.step, hs] at hstep
      simp only [Meets, hs] at hmeets
      exact Inv.pipeDisable (s := { s with stack := l }) (hpush.symm ▸ h) (.inl rfl) (fun hlist _ => hmeets hlist) hstep

theorem Inv.step {a : Action} (h : Inv s) (hmeets : Meets s a) (hstep : Step s a t) : Inv t := by
  obtain ⟨hallowed, hstep⟩ := hstep
  cases a with
  | queue e req length zero connected f =>
    obtain rfl := Option.some.inj hstep
    exact h.epQueue hallowed length zero connected
  | dequeue e req =>
    obtain ⟨p, hp, hreq⟩ := hallowed
    obtain rfl := Option.some.inj hstep
    exact h.epDequeue hp hreq (hmeets p hp)
  | disable e => exact h.epDisable hmeets hstep
  | setHalt e => exact h.epSetHalt hstep
  | enable e type dirIn maxp barrier =>
    obtain rfl := Option.some.inj hstep
    exact h.epEnable e type dirIn maxp barrier
  | irq p f =>
    obtain rfl := Option.some.inj hstep
    exact h.pktHandler hmeets
  | ctrlStage stage =>
    cases hp : s.uep 0 with
    | none => simp [State.step, hp] at hstep
    | some p =>
      simp only [State.step, hp, Option.some.injEq] at hstep
      subst hstep
      exact h.ctrlStage p _
  | resume f => exact h.resume hmeets hstep

/-- On an idle pipe IS_RUNNING does not keep the handler from starting. -/
theorem Inv.starts {a : Action} (h : Inv s) (hstep : Step s a t) (hfree : FifoFree s a) : StartsTransfer s a t := by
  rintro e req length zero f p rfl hp hlist htaken
  obtain ⟨hallowed, hstep⟩ := hstep
  obtain rfl := Option.some.inj hstep
  obtain ⟨hbusy, hsel, hhandler⟩ := hfree
  obtain ⟨handler, hsome, hnull⟩ := hhandler p hp
  have hidle : (s.pipe p).isRunning = false := (h.mayEmpty hlist).resolve_right htaken
  have hqueue : usbhsgEpQueue e req length zero true f s =
      usbhsfPktHandler .USBHSF_PKT_PREPARE p f (usbhsPktPush p req length zero s) := by
    simp only [usbhsgEpQueue, hp, Bool.not_true, Bool.false_eq_true, if_false]
  have hlinks := (h.pktPush hallowed hp length zero).links
  have hpipe : (usbhsPktPush p req length zero s).pipe p =
      { s.pipe p with list := [⟨req, handler, length, zero, 0⟩], handler := some handler } := by
    simp [usbhsPktPush, listDel_eq hallowed, State.setPipe, hlist, hsome]
  have hlist' : ((usbhsPktPush p req length zero s).pipe p).list = [⟨req, handler, length, zero, 0⟩] := by
    rw [hpipe]
  have hout : outcome (usbhsPktPush p req length zero s) .USBHSF_PKT_PREPARE p ⟨req, handler, length, zero, 0⟩ f =
      handler.prepare (s.pipe p).maxp false ⟨req, handler, length, zero, 0⟩ f := by
    rw [outcome, hpipe, hidle]
    rfl
  rw [hqueue]
  cases hdone : (outcome (usbhsPktPush p req length zero s) .USBHSF_PKT_PREPARE p ⟨req, handler, length, zero, 0⟩ f).isDone with
  | true =>
    right
    rw [pktHandler_done hlinks hlist' hdone]
    simp [State.push, State.giveBack, State.setPipe]
  | false =>
    left
    rw [pktHandler_more hlist' hdone, pipe_setPipe, if_pos rfl, hout]
    rw [hout] at hdone
    exact (prepare_starts hnull hbusy hsel).resolve_right (by simp [hdone])

/-! ## The runs -/

theorem Fresh.inv (h : Fresh s) : Inv s := by
  have hreqs : reqs s = fun _ => [] := by
    funext k
    cases k with
    | none => rfl
    | some p => simp [reqs, h.list p]
  refine ⟨⟨h.uep, fun p hp => absurd (h.list p) hp, fun e p hmem => ?_, ?_⟩, ?_, fun p hrun => ?_⟩
  · rw [h.stack] at hmem
    cases hmem
  · rw [h.stack]
    exact .nil
  · rw [hreqs, h.log]
    exact Books.nil 0
  · exact absurd ((h.running p).symm.trans hrun) Bool.false_ne_true

theorem Inv.run {l : List (State × Action × State)} (h : Inv s) (hrun : Runs Step s l t)
    (hmeets : ∀ x ∈ l, Meets x.1 x.2.1) :
    Inv t ∧ ∀ x ∈ l, Inv x.1 ∧ (FifoFree x.1 x.2.1 → StartsTransfer x.1 x.2.1 x.2.2) := by
  induction hrun with
  | nil s => exact ⟨h, by simp⟩
  | cons hstep _ ih =>
    obtain ⟨hfirst, hall⟩ := List.forall_mem_cons.mp hmeets
    obtain ⟨ht, hrest⟩ := ih (h.step hfirst hstep) hall
    exact ⟨ht, List.forall_mem_cons.mpr ⟨⟨h, h.starts hstep⟩, hrest⟩⟩

/-- In a run whose steps all meet the condition the queues keep what they promise in every state, and every request that
is queued on an idle pipe is started if the FIFO is free. -/
theorem run_queues {l : List (State × Action × State)} (hs : Fresh s) (h : Runs Step s l t)
    (hmeets : ∀ x ∈ l, Meets x.1 x.2.1) :
    QueuesOk t ∧ ∀ x ∈ l, QueuesOk x.1 ∧ (FifoFree x.1 x.2.1 → StartsTransfer x.1 x.2.1 x.2.2) := by
  obtain ⟨ht, hall⟩ := hs.inv.run h hmeets
  exact ⟨ht.queuesOk, fun x hx => ⟨(hall x hx).1.queuesOk, (hall x hx).2⟩⟩

/-- A control pipe and a bulk pipe, and no endpoint enabled. -/
def idleGadget : State where
  size := 2
  pipe p := ⟨if p = 0 then 0 else 2, [], false, false, none, none, 64⟩
  uep _ := none
  stack := []
  log := []

theorem idleGadget_fresh : Fresh idleGadget :=
  ⟨fun _ => rfl, fun _ => rfl, fun _ _ h => (nomatch h), rfl, rfl⟩

/-- The FIFO is free, and a packet of 64 bytes is there. -/
def freeFifo : Fifo := ⟨false, true, true, true, 64⟩

theorem enabled_empty (dirIn : Bool) (k : Option ℕ) : reqs (usbhsgEpEnable 1 2 dirIn 512 true idleGadget) k = [] := by
  cases k with
  | none => rfl
  | some p =>
    change List.map Pkt.req (Function.update idleGadget.pipe 1 _ p).list = []
    by_cases hp : p = 1
    · subst hp
      rw [Function.update_self]
      rfl
    · rw [Function.update_of_ne hp]
      rfl

/-- A request of one byte is sent and given back. -/
theorem oneByte_queues : ∃ t, QueuesOk t ∧ t.log = [.accepted (some 1) 7, .completed (some 1) 7 0] ∧ t.stack = [] := by
  have hnew : ∀ p, 7 ∉ reqs (usbhsgEpEnable 1 2 true 512 true idleGadget) p := by
    intro p
    rw [enabled_empty]
    exact List.not_mem_nil
  have h : Runs Step idleGadget _ _ :=
    .cons (.mk (a := .enable 1 2 true 512 true) trivial rfl) <|
    .cons (.mk (a := .queue 1 7 1 false true freeFifo) hnew rfl) <|
    .cons (.mk (a := .resume freeFifo) trivial rfl) <| .nil _
  refine ⟨_, (run_queues idleGadget_fresh h ?_).1, rfl, rfl⟩
  simp only [List.forall_mem_cons, List.not_mem_nil, false_imp_iff, implies_true, and_true]
  refine ⟨trivial, trivial, ?_⟩
  rintro pkt hlist
  cases hlist

/-- The only request of a running pipe is dequeued, and the pipe stays running. -/
theorem dequeue_leaves_running :
    ¬∀ s t (l : List (State × Action × State)), Fresh s → Runs Step s l t → QueuesOk t := by
  intro hall
  have hnew : ∀ p, 7 ∉ reqs (usbhsgEpEnable 1 2 false 512 true idleGadget) p := by
    intro p
    rw [enabled_empty]
    exact List.not_mem_nil
  have h : Runs Step idleGadget _ _ :=
    .cons (.mk (a := .enable 1 2 false 512 true) trivial rfl) <|
    .cons (.mk (a := .queue 1 7 64 false true freeFifo) hnew rfl) <|
    .cons (.mk (a := .dequeue 1 7) ⟨1, rfl, .head _⟩ rfl) <| .nil _
  rcases (hall _ _ _ idleGadget_fresh h).running 1 rfl with hlist | ⟨c, hc, -⟩
  · exact hlist rfl
  · cases hc

end RCar.Usbhsg
