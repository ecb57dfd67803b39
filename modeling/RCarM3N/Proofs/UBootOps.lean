import RCarM3N.Lib.Runs
import RCarM3N.Proofs.UBootLoad

/-! The operations of U-Boot as edits of the normalised metadata, when every access succeeds. -/

namespace RCar.UBoot

variable {s s' t : State} {d d' : AvbABData} {v : Verifier}

/-! ## The flow -/

/-- What the flow returns and what it leaves in memory, after the slots are validated. -/
def selectOutcome (l : Locals) : (FlowResult × Option SlotVerifyData) × AvbABData :=
  match avbGetBootableSlot l.abData with
  | none => ((.errorNoBootableSlots, none), l.abData)
  | some c => ((if l.sawAndAllowedVerificationError then .okWithVerificationError else .ok,
      l.slotData c), decrementTries l.abData c)

/-- The same for loaded metadata `d`. -/
def flowOutcome (v : Verifier) (d : AvbABData) : (FlowResult × Option SlotVerifyData) × AvbABData :=
  match validateSlot v 0 ⟨d, fun _ => none, false⟩ with
  | (some ret, l) => ((ret, none), l.abData)
  | (none, l) =>
    match validateSlot v 1 l with
    | (some ret, l) => ((ret, none), l.abData)
    | (none, l) => selectOutcome l

theorem run_updateRollback (h : AllOk s) (slotData : Slot → Option SlotVerifyData) (l : List ℕ) :
    ∃ s', (updateRollback slotData l).run s = (some none, s') ∧ s'.misc = s.misc ∧ s'.io = s.io := by
  induction l generalizing s with
  | nil => exact ⟨s, rfl, rfl, rfl⟩
  | cons n l ih =>
    unfold updateRollback
    by_cases hv : rollbackIndexValue slotData n = 0
    · simp only [hv, ne_eq, not_true_eq_false, if_false]
      exact ih h
    · have hread : (readRollbackIndex n).run s =
          (some (.ok, s.rollback n), { s with pos := s.pos + 1 }) := by
        unfold readRollbackIndex
        rw [Prog.run_bind_of_some (run_access s), (h s.pos).1]
        rfl
      simp only [ne_eq, hv, not_false_eq_true, if_true]
      rw [Prog.run_bind_of_some hread]
      simp only [ioError, reduceCtorEq, if_false, ne_eq, not_true_eq_false]
      by_cases hc : s.rollback n = rollbackIndexValue slotData n
      · simp only [hc, not_true_eq_false, if_false]
        exact ih (s := { s with pos := s.pos + 1 }) h
      · have hwrite : (writeRollbackIndex n (rollbackIndexValue slotData n)).run
            { s with pos := s.pos + 1 } = (some .ok, { s with
              pos := s.pos + 2
              rollback := Function.update s.rollback n (rollbackIndexValue slotData n) }) := by
          unfold writeRollbackIndex
          rw [Prog.run_bind_of_some (run_access _)]
          simp only [(h (s.pos + 1)).1, if_true]
          rfl
        simp only [hc, not_false_eq_true, if_true]
        rw [Prog.run_bind_of_some hwrite]
        simp only [reduceCtorEq, if_false, not_true_eq_false]
        exact ih (s := { s with
          pos := s.pos + 2
          rollback := Function.update s.rollback n (rollbackIndexValue slotData n) }) h

theorem run_out (h : AllOk s) {orig : AvbABData} (ho : abData s = orig.sealed) (d : AvbABData)
    (ret : FlowResult) (data : Option SlotVerifyData) :
    ∃ s', (out ret d orig data).run s = (some (ret, data), s') ∧ Disk s s' d.sealed (virtMsg s) := by
  obtain ⟨s', hsave, hd⟩ := run_saveMetadataIfChanged h ho d
  refine ⟨s', ?_, hd⟩
  unfold out
  rw [Prog.run_bind_of_some hsave]
  rfl

theorem run_selectSlot (h : AllOk s) {orig : AvbABData} (ho : abData s = orig.sealed) (l : Locals) :
    ∃ s', (selectSlot l orig).run s = (some (selectOutcome l).1, s') ∧
      Disk s s' (selectOutcome l).2.sealed (virtMsg s) := by
  unfold selectSlot selectOutcome
  rcases avbGetBootableSlot l.abData with _ | c
  · exact run_out h ho l.abData .errorNoBootableSlots none
  · obtain ⟨t, hroll, ht, hio⟩ := run_updateRollback h l.slotData
      (List.range AVB_MAX_NUMBER_OF_ROLLBACK_INDEX_LOCATIONS)
    have hdisk := (Disk.refl s).trans_eq ht hio
    obtain ⟨s', hrun, hd⟩ := run_out (h.of_disk hdisk) (hdisk.abData_eq.trans ho)
      (decrementTries l.abData c)
      (if l.sawAndAllowedVerificationError then .okWithVerificationError else .ok) (l.slotData c)
    refine ⟨s', ?_, hdisk.trans_data hd⟩
    simp only
    rw [Prog.run_bind_of_some hroll]
    exact hrun

theorem run_avbAbFlow (h : AllOk s) (depth : ℕ) (v : Verifier) (a o : AvbABData)
    (hm : (∃ c, ((loaded (abData s)).slots c).exhausted = true) →
      Settles (loaded (abData s)) (virtMsg s)) :
    ∃ m s', (avbAbFlow (depth + 1) v a o).run s =
        (some (flowOutcome v (normalize (decoded (abData s)))).1, s') ∧
      (m.isValid = true ∨ m = virtMsg s) ∧
      Disk s s' (flowOutcome v (normalize (decoded (abData s)))).2.sealed m := by
  obtain ⟨m, t, hload, hmsg, ht⟩ := run_loadMetadata h depth a o hm
  have hok := h.of_disk ht
  have ho : abData t = (decoded (abData s)).sealed := by rw [ht.abData_eq, sealed_decoded]
  suffices hrest : ∃ s', (avbAbFlow (depth + 1) v a o).run s =
        (some (flowOutcome v (normalize (decoded (abData s)))).1, s') ∧
      Disk t s' (flowOutcome v (normalize (decoded (abData s)))).2.sealed (virtMsg t) by
    obtain ⟨s', hrun, hd⟩ := hrest
    exact ⟨m, s', hrun, hmsg, ht.trans_data hd⟩
  unfold avbAbFlow
  rw [Prog.run_bind_of_some hload]
  simp only [ioError, reduceCtorEq, if_false, ne_eq, not_true_eq_false]
  unfold flowOutcome
  generalize normalize (decoded (abData s)) = d
  rcases validateSlot v 0 ⟨d, fun _ => none, false⟩ with ⟨_ | ret, l⟩
  · rcases h1 : validateSlot v 1 l with ⟨_ | ret, l'⟩
    · simp only [h1]
      exact run_selectSlot hok ho l'
    · simp only [h1]
      exact run_out hok ho l'.abData ret none
  · exact run_out hok ho l.abData ret none

/-! ## Edits -/

/-- The slots of `m` set unbootable. -/
def clear (m : Slot → Bool) (d : AvbABData) : AvbABData :=
  { d with slots := fun c => if m c then (d.slots c).setUnbootable else d.slots c }

@[simp] theorem slots_clear (m : Slot → Bool) (d : AvbABData) (c : Slot) :
    (clear m d).slots c = if m c then (d.slots c).setUnbootable else d.slots c := rfl

theorem clear_clear (m m' : Slot → Bool) (d : AvbABData) :
    clear m (clear m' d) = clear (fun c => m c || m' c) d := by
  refine AvbABData.ext rfl rfl rfl rfl (funext fun c => ?_) rfl rfl
  simp only [slots_clear]
  cases m c <;> cases m' c <;> rfl

theorem setSlot_setUnbootable (d : AvbABData) (n : Slot) :
    d.setSlot n (d.slots n).setUnbootable = clear (fun c => c = n) d := by
  refine AvbABData.ext rfl rfl rfl rfl (funext fun c => ?_) rfl rfl
  by_cases hc : c = n
  · simp [hc]
  · simp [hc]

/-- The verification of a slot ends in its being set unbootable. -/
def Fails (v : Verifier) (c : Slot) : Prop := ∃ allowed, verifySlot v c = .ok (true, allowed)

/-- What the flow may make of normalised metadata: slots whose verification fails are set
unbootable, and the slot that boots uses up a try. -/
inductive FlowEdit (v : Verifier) (d : AvbABData) : AvbABData → Prop
  | validated {m : Slot → Bool} (hm : ∀ c, m c = true → Fails v c) : FlowEdit v d (clear m d)
  | booted {m : Slot → Bool} (hm : ∀ c, m c = true → Fails v c) {c : Slot}
      (hc : avbGetBootableSlot (clear m d) = some c) : FlowEdit v d (decrementTries (clear m d) c)

/-- The validation of a slot may set this slot unbootable. -/
theorem validateSlot_clear (v : Verifier) (n : Slot) (l : Locals) :
    ∃ m : Slot → Bool, (∀ c, m c = true → Fails v c) ∧
      (validateSlot v n l).2.abData = clear m l.abData := by
  unfold validateSlot
  split
  · simp only
    split
    · exact ⟨fun _ => false, fun _ h => absurd h Bool.false_ne_true, rfl⟩
    · rename_i setSlotUnbootable allowed hv
      cases setSlotUnbootable
      · exact ⟨fun _ => false, fun _ h => absurd h Bool.false_ne_true, rfl⟩
      · refine ⟨fun c => c = n, fun c hc => ⟨allowed, ?_⟩, setSlot_setUnbootable _ _⟩
        rw [of_decide_eq_true hc]
        exact hv
  · exact ⟨fun _ => false, fun _ h => absurd h Bool.false_ne_true, rfl⟩

theorem selectOutcome_edit {l : Locals} {m : Slot → Bool} (hm : ∀ c, m c = true → Fails v c)
    (hl : l.abData = clear m d) : FlowEdit v d (selectOutcome l).2 := by
  unfold selectOutcome
  split
  · rw [hl]
    exact .validated hm
  · rename_i c hc
    rw [hl] at hc ⊢
    exact .booted hm hc

/-- Both validations together. -/
theorem validate_clear {l : Locals} (h0 : validateSlot v 0 ⟨d, fun _ => none, false⟩ = (none, l)) :
    ∃ m : Slot → Bool, (∀ c, m c = true → Fails v c) ∧
      (validateSlot v 1 l).2.abData = clear m d := by
  obtain ⟨m0, hm0, hd0⟩ := validateSlot_clear v 0 ⟨d, fun _ => none, false⟩
  obtain ⟨m1, hm1, hd1⟩ := validateSlot_clear v 1 l
  rw [h0] at hd0
  simp only at hd0
  refine ⟨fun c => m1 c || m0 c, fun c hc => ?_, by rw [hd1, hd0, clear_clear]⟩
  rcases (Bool.or_eq_true _ _).mp hc with hc | hc
  · exact hm1 c hc
  · exact hm0 c hc

theorem flowOutcome_edit (v : Verifier) (d : AvbABData) : FlowEdit v d (flowOutcome v d).2 := by
  unfold flowOutcome
  rcases hv0 : validateSlot v 0 ⟨d, fun _ => none, false⟩ with ⟨_ | ret, l⟩
  · obtain ⟨m, hm, h1⟩ := validate_clear hv0
    rcases hv1 : validateSlot v 1 l with ⟨_ | ret, l'⟩ <;> rw [hv1] at h1 <;> simp only [hv1]
    · exact selectOutcome_edit hm h1
    · rw [h1]
      exact .validated hm
  · obtain ⟨m, hm, h0⟩ := validateSlot_clear v 0 ⟨d, fun _ => none, false⟩
    rw [hv0] at h0
    simp only at h0 ⊢
    rw [h0]
    exact .validated hm

end RCar.UBoot
