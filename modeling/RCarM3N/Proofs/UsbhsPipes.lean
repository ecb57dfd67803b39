import RCarM3N.Lib.Holders
import RCarM3N.Lib.Traces
import RCarM3N.Model.UsbhsPipes

/-! Who has which pipe. As long as every enable that finds a pipe gets over the barrier and the DCP stays with its
endpoint, a pipe is in use exactly if an endpoint has it. -/

namespace RCar.Usbhsg

variable {s t : State} {e p : ℕ} {c : EpCall}

/-- The marks of the pipes, the endpoints and the back pointers agree. -/
structure Owned (s : State) : Prop where
  used : ∀ p < s.size, (s.pipe p).isUsed = true ↔ p = 0 ∨ ∃! e, s.uep e = some p
  apart : ∀ e e' p, s.uep e = some p → s.uep e' = some p → e = e'
  back : ∀ e p, s.uep e = some p → (s.pipe p).modPrivate = some e

/-- An enable fails only where others hold all pipes of the type, or at the barrier. -/
def FailsRightly (s : State) : EpCall → Prop
  | .epEnable e type _ _ barrier =>
    usbhsgEpEnableRet e type barrier s ≠ 0 →
      (∀ p < s.size, (s.pipe p).pipeType = type → ∃ e' ≠ e, s.uep e' = some p) ∨ barrier = false
  | .epDisable _ => True

/-- A call returns, fails for a reason only, and leaves the pipes owned. -/
def CallRight (s : State) (c : EpCall) : Prop := FailsRightly s c ∧ ∃ t, s.call c = some t ∧ Owned t

/-- The barrier holds where a pipe was found, and the DCP stays with its endpoint. -/
def Kept (s : State) : EpCall → Prop
  | .epEnable e type _ _ barrier => barrier = true ∨ s.uep e ≠ none ∨ usbhspGetPipe type s = none
  | .epDisable e => s.uep e ≠ some 0

/-- What every state of a run has. -/
structure PipesInv (s : State) : Prop where
  holding : Holding s.uep (fun p => (s.pipe p).modPrivate) (fun p => (s.pipe p).isUsed)
  dcp : s.uep 0 = some 0
  size_pos : 0 < s.size
  empty : ∀ p, (s.pipe p).list = []

theorem PipesInv.owned (h : PipesInv s) : Owned s where
  used := by
    intro p _
    rw [h.holding.used_iff_unique]
    refine ⟨Or.inr, fun hp => ?_⟩
    rcases hp with rfl | hp
    · exact ⟨0, h.dcp, fun e he => h.holding.apart he h.dcp⟩
    · exact hp
  apart := fun _ _ _ => h.holding.apart
  back := h.holding.back_eq

theorem setPipe_self (s : State) (p : ℕ) (x : Pipe) : (s.setPipe p x).pipe p = x := Function.update_self _ _ _

theorem setPipe_field {β : Type} (f : Pipe → β) (s : State) (p : ℕ) (x : Pipe) :
    (fun q => f ((s.setPipe p x).pipe q)) = Function.update (fun q => f (s.pipe q)) p (f x) := by
  funext q
  change f (Function.update s.pipe p x q) = _
  by_cases hq : q = p
  · rw [hq, Function.update_self, Function.update_self]
  · rw [Function.update_of_ne hq, Function.update_of_ne hq]

theorem getPipe_some {type : ℕ} (h : usbhspGetPipe type s = some p) :
    p < s.size ∧ (s.pipe p).pipeType = type ∧ (s.pipe p).isUsed = false := by
  have hmem := List.mem_of_find?_eq_some h
  have hpipe := List.find?_some h
  simp at hmem hpipe
  exact ⟨hmem, hpipe⟩

theorem getPipe_none {type : ℕ} (h : usbhspGetPipe type s = none) (hp : p < s.size) (htype : (s.pipe p).pipeType = type) :
    (s.pipe p).isUsed = true := by
  have hnot := List.find?_eq_none.mp h p (List.mem_range.mpr hp)
  simpa [htype] using hnot

theorem PipesInv.failsRightly (h : PipesInv s) (c : EpCall) : FailsRightly s c := by
  cases c with
  | epDisable e => trivial
  | epEnable e type dirIn maxp barrier =>
    intro hret
    unfold usbhsgEpEnableRet at hret
    cases he : s.uep e with
    | some p => simp [he] at hret
    | none =>
      cases hget : usbhspGetPipe type s with
      | some p => exact Or.inr (by simpa [he, hget, EIO] using hret)
      | none =>
        refine Or.inl fun p hp htype => ?_
        obtain ⟨e', he'⟩ := (h.holding.used_iff p).mp (getPipe_none hget hp htype)
        refine ⟨e', ?_, he'⟩
        rintro rfl
        rw [he] at he'
        cases he'

/-- An enable that gets over the barrier takes a free pipe. -/
theorem PipesInv.enable (h : PipesInv s) {type maxp : ℕ} {dirIn : Bool} (he : s.uep e = none)
    (hget : usbhspGetPipe type s = some p) : PipesInv (usbhsgEpEnable e type dirIn maxp true s) := by
  obtain ⟨-, -, hfree⟩ := getPipe_some hget
  have htake := h.holding.take he hfree
  have hne : (0 : ℕ) ≠ e := by
    rintro rfl
    rw [h.dcp] at he
    cases he
  simp only [usbhsgEpEnable, he, hget, Bool.not_true, Bool.false_eq_true, if_false]
  refine ⟨?_, ?_, h.size_pos, fun q => ?_⟩
  · rw [setPipe_field Pipe.modPrivate, setPipe_field Pipe.isUsed]
    exact htake
  · exact (Function.update_of_ne hne _ _).trans h.dcp
  · rw [congrFun (setPipe_field Pipe.list s p _) q, funext h.empty, Function.update_apply]
    split_ifs <;> rfl

theorem epDisable_eq (h : PipesInv s) (he : s.uep e = some p) : ∃ t, usbhsgEpDisable e s = some t ∧
    t.size = s.size ∧ t.uep = Function.update s.uep e none ∧
    (fun q => (t.pipe q).modPrivate) = Function.update (fun q => (s.pipe q).modPrivate) p none ∧
    (fun q => (t.pipe q).isUsed) = Function.update (fun q => (s.pipe q).isUsed) p false ∧
    ∀ q, (t.pipe q).list = [] := by
  let r := s.setPipe p { s.pipe p with isUsed := false, isRunning := false }
  have hr : r.pipe p = { s.pipe p with isUsed := false, isRunning := false } := setPipe_self _ _ _
  refine ⟨{ r.setPipe p { r.pipe p with modPrivate := none } with uep := Function.update s.uep e none }, ?_, rfl, rfl, ?_, ?_,
    fun q => ?_⟩
  · have hfinish : usbhsgEpDisable e s = Cont.finish s (.disable e p) := by
      simp only [usbhsgEpDisable, he, usbhsgPipeDisable, h.empty p]
    have hr' : r.uep e = some p := he
    rw [hfinish, Cont.finish]
    dsimp only
    rw [hr']
    rfl
  · change (fun q => Pipe.modPrivate ((r.setPipe p _).pipe q)) = _
    rw [setPipe_field Pipe.modPrivate, setPipe_field Pipe.modPrivate, Function.update_idem]
  · change (fun q => Pipe.isUsed ((r.setPipe p _).pipe q)) = _
    rw [setPipe_field Pipe.isUsed, setPipe_field Pipe.isUsed, hr, Function.update_idem]
  · change Pipe.list ((r.setPipe p _).pipe q) = _
    rw [congrFun (setPipe_field Pipe.list r p _) q, setPipe_field Pipe.list s p _, hr, Function.update_idem, funext h.empty,
      Function.update_apply]
    split_ifs
    · exact h.empty p
    · rfl

theorem PipesInv.disable (h : PipesInv s) (he : s.uep e = some p) (hdcp : p ≠ 0) :
    ∃ t, usbhsgEpDisable e s = some t ∧ PipesInv t := by
  obtain ⟨t, ht, hsize, huep, hback, hused, hlist⟩ := epDisable_eq h he
  have hne : (0 : ℕ) ≠ e := by
    rintro rfl
    exact hdcp (Option.some_inj.mp (he.symm.trans h.dcp))
  refine ⟨t, ht, ?_, ?_, hsize ▸ h.size_pos, hlist⟩
  · rw [huep, hback, hused]
    exact h.holding.release he
  · rw [huep, Function.update_of_ne hne, h.dcp]

/-- A call that keeps the condition keeps the invariant. -/
theorem PipesInv.call (h : PipesInv s) (hc : Kept s c) : ∃ t, s.call c = some t ∧ PipesInv t := by
  cases c with
  | epEnable e type dirIn maxp barrier =>
    refine ⟨_, rfl, ?_⟩
    cases he : s.uep e with
    | some p =>
      simp only [usbhsgEpEnable, he]
      exact h
    | none =>
      cases hget : usbhspGetPipe type s with
      | none =>
        simp only [usbhsgEpEnable, he, hget]
        exact h
      | some p =>
        rcases hc with rfl | hc | hc
        · exact h.enable he hget
        · exact absurd he hc
        · rw [hget] at hc
          cases hc
  | epDisable e =>
    cases he : s.uep e with
    | none => exact ⟨s, by simp [State.call, usbhsgEpDisable, he], h⟩
    | some p => exact h.disable he fun hp => hc (hp ▸ he)

/-- A call that breaks it leaves a pipe marked that nobody has, or the DCP unmarked. -/
theorem PipesInv.broken (h : PipesInv s) (hc : ¬ Kept s c) (ht : s.call c = some t) : ¬ Owned t := by
  intro howned
  cases c with
  | epEnable e type dirIn maxp barrier =>
    simp only [Kept, not_or, ne_eq, not_not, Bool.not_eq_true] at hc
    obtain ⟨rfl, he, hget⟩ := hc
    obtain ⟨p, hp⟩ := Option.ne_none_iff_exists'.mp hget
    obtain ⟨hlt, -, hfree⟩ := getPipe_some hp
    have hnobody : ¬ ∃ e, s.uep e = some p := by
      rw [← h.holding.used_iff p, hfree]
      simp
    simp only [State.call, usbhsgEpEnable, he, hp] at ht
    obtain rfl := Option.some_inj.mp ht
    rcases (howned.used p hlt).mp (congrFun (setPipe_field Pipe.isUsed s p _) p |>.trans (Function.update_self _ _ _))
      with rfl | ⟨e', he', -⟩
    · exact hnobody ⟨0, h.dcp⟩
    · exact hnobody ⟨e', he'⟩
  | epDisable e =>
    have he : s.uep e = some 0 := not_not.mp hc
    obtain ⟨t', ht', hsize, -, -, hused, -⟩ := epDisable_eq h he
    obtain rfl := Option.some_inj.mp (ht'.symm.trans ht)
    have hfree : (t'.pipe 0).isUsed = false := (congrFun hused 0).trans (Function.update_self _ _ _)
    have hmarked := (howned.used 0 (hsize ▸ h.size_pos)).mpr (Or.inl rfl)
    rw [hfree] at hmarked
    cases hmarked

theorem getPipe_dcp (hsize : 0 < s.size) (htype : (s.pipe 0).pipeType = USB_ENDPOINT_XFER_CONTROL)
    (hfree : (s.pipe 0).isUsed = false) : usbhspGetPipe USB_ENDPOINT_XFER_CONTROL s = some 0 := by
  obtain ⟨n, hn⟩ := Nat.exists_eq_succ_of_ne_zero hsize.ne'
  rw [usbhspGetPipe, hn, List.range_succ_eq_map]
  exact List.find?_cons_of_pos (by simp [htype, hfree])

theorem pipeInit_free (s : State) (p : ℕ) (hp : p < s.size) :
    ((usbhsPipeInit s).pipe p).isUsed = false ∧ ((usbhsPipeInit s).pipe p).list = [] ∧
      ((usbhsPipeInit s).pipe p).pipeType = (s.pipe p).pipeType := by
  simp [usbhsPipeInit, hp]

/-- A start gives the first pipe to the endpoint of the DCP, and no other pipe is used. -/
theorem tryStart_inv (hsize : 0 < s.size) (htype : (s.pipe 0).pipeType = USB_ENDPOINT_XFER_CONTROL)
    (hout : ∀ p, s.size ≤ p → (s.pipe p).isUsed = false ∧ (s.pipe p).list = []) (huep : ∀ e ≠ 0, s.uep e = none) :
    ∃ t, usbhsgTryStart s = some t ∧ PipesInv t := by
  obtain ⟨hfree, -, htype'⟩ := pipeInit_free s 0 hsize
  have hget := getPipe_dcp (s := usbhsPipeInit s) hsize (htype'.trans htype) hfree
  have hused : ∀ p, ((usbhsPipeInit s).pipe p).isUsed = false ∧ ((usbhsPipeInit s).pipe p).list = [] := by
    intro p
    by_cases hp : p < s.size
    · exact ⟨(pipeInit_free s p hp).1, (pipeInit_free s p hp).2.1⟩
    · simpa [usbhsPipeInit, hp] using hout p (not_lt.mp hp)
  have hnone : Holding (Function.update s.uep 0 none) (Function.update (fun p => ((usbhsPipeInit s).pipe p).modPrivate) 0 none)
      (fun p => ((usbhsPipeInit s).pipe p).isUsed) := by
    have hempty : Function.update s.uep 0 none = fun _ => none := by
      funext e
      by_cases he : e = 0
      · rw [he, Function.update_self]
      · rw [Function.update_of_ne he, huep e he]
    rw [hempty]
    exact ⟨fun p => by simp [(hused p).1], fun e p he => by cases he⟩
  have htake := hnone.take (e := 0) (k := 0) (Function.update_self _ _ _) hfree
  rw [Function.update_idem, Function.update_idem] at htake
  let r := (usbhsPipeInit s).setPipe 0 { (usbhsPipeInit s).pipe 0 with isUsed := true, isRunning := false, list := [] }
  have hr : r.pipe 0 = { (usbhsPipeInit s).pipe 0 with isUsed := true, isRunning := false, list := [] } :=
    setPipe_self _ _ _
  refine ⟨{ r.setPipe 0 { r.pipe 0 with modPrivate := some 0, maxp := 64 } with uep := Function.update s.uep 0 (some 0) },
    ?_, ?_, ?_, hsize, fun p => ?_⟩
  · simp only [usbhsgTryStart, usbhsDcpMalloc, hget]
    rfl
  · change Holding _ (fun p => Pipe.modPrivate ((r.setPipe 0 _).pipe p)) fun p => Pipe.isUsed ((r.setPipe 0 _).pipe p)
    rw [setPipe_field Pipe.modPrivate, setPipe_field Pipe.modPrivate, setPipe_field Pipe.isUsed, setPipe_field Pipe.isUsed,
      Function.update_idem, Function.update_idem, hr]
    exact htake
  · change Function.update s.uep 0 (some 0) 0 = some 0
    exact Function.update_self _ _ _
  · change Pipe.list ((r.setPipe 0 _).pipe p) = _
    rw [congrFun (setPipe_field Pipe.list r 0 _) p, setPipe_field Pipe.list _ 0 _, hr, Function.update_idem,
      Function.update_apply]
    split_ifs
    · rfl
    · exact (hused p).2

theorem started_inv {pipeConfigs : List ℕ} (hs : usbhsgStarted pipeConfigs = some s) : PipesInv s := by
  cases pipeConfigs with
  | nil => cases hs
  | cons type types =>
    rw [usbhsgStarted, usbhsProbe] at hs
    split_ifs at hs with htype
    · cases hs
    · obtain ⟨t, ht, hinv⟩ := tryStart_inv
        (s := ⟨(type :: types).length,
          fun i => ⟨(type :: types).getD i 0 &&& USB_ENDPOINT_XFERTYPE_MASK, [], false, false, none, none, 0⟩,
          fun _ => none, [], []⟩)
        (Nat.succ_pos _) (by simp [not_not.mp htype, USB_ENDPOINT_XFER_CONTROL]) (fun p _ => ⟨rfl, rfl⟩) fun e _ => rfl
      rw [Option.bind_some, ht] at hs
      exact Option.some_inj.mp hs ▸ hinv

/-- After the gadget was started, whatever endpoints are enabled and disabled, the pipes are owned and an enable fails for a
reason only, as long as every enable that finds a pipe gets over the barrier and the DCP stays with its endpoint; with the
first call that breaks this, they are not. -/
theorem epCalls_right_iff (pipeConfigs : List ℕ) (s : State) (hs : usbhsgStarted pipeConfigs = some s) (cs : List EpCall) :
    (Owned s ∧ ∀ x ∈ trace State.call s cs, CallRight x.1 x.2) ↔ ∀ x ∈ trace State.call s cs, Kept x.1 x.2 := by
  have hinv := started_inv hs
  rw [and_iff_right hinv.owned]
  refine trace_right_iff (fun s c h hc => ?_) (fun s c h hright => ?_) hinv cs
  · obtain ⟨t, ht, hinv⟩ := h.call hc
    exact ⟨⟨h.failsRightly c, t, ht, hinv.owned⟩, t, ht, hinv⟩
  · obtain ⟨-, t, ht, howned⟩ := hright
    by_contra hc
    exact h.broken hc ht howned

theorem epCalls_right_bulk : ∃ s, usbhsgStarted [0, 2, 2] = some s ∧ Owned s ∧
    ∀ x ∈ trace State.call s [.epEnable 1 2 true 512 true, .epEnable 2 2 false 512 true], CallRight x.1 x.2 := by
  refine ⟨_, rfl, (epCalls_right_iff [0, 2, 2] _ rfl _).mpr ?_⟩
  simp [trace, State.call, Kept]

/-- After a barrier that fails the only bulk pipe stays marked, and the next enable finds none. -/
theorem epEnable_leaks : ¬ ∃ s, usbhsgStarted [0, 2] = some s ∧ Owned s ∧
    ∀ x ∈ trace State.call s [.epEnable 1 2 true 512 false, .epEnable 1 2 true 512 true], CallRight x.1 x.2 := by
  rintro ⟨s, hs, -, hall⟩
  obtain ⟨-, t, ht, howned⟩ := hall _ List.mem_cons_self
  have hbroken := (started_inv hs).broken (c := .epEnable 1 2 true 512 false) (t := t)
  cases hs
  refine hbroken ?_ ht howned
  simp only [Kept, not_or]
  exact ⟨Bool.false_ne_true, not_not.mpr rfl, fun h => by cases h⟩

end RCar.Usbhsg
