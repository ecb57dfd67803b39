import RCarM3N.Proofs.SlotChain
import RCarM3N.Proofs.UBootRollback

/-! The A/B flow over the verification of the slots: what it boots carries a chain of trust. -/

namespace RCar.SlotVerify

open UBoot (FlowResult Locals SlotVerifyData Verifier VerifyResult)
open AvbRsa VbMeta

variable {v : Verifier}

/-- A slot that neither ends the flow nor is set unbootable nor needs an error to be allowed has verified. -/
theorem verifySlot_ok {n : Slot} {unbootable allowed : Bool} (h : UBoot.verifySlot v n = .ok (unbootable, allowed))
    (hunbootable : unbootable = false) (hallowed : allowed = false) : (v.verify n).1 = .ok := by
  subst hunbootable hallowed
  unfold UBoot.verifySlot at h
  cases hv : (v.verify n).1 with
  | ok => rfl
  | errorVerification | errorRollbackIndex | errorPublicKeyRejected =>
    rw [hv] at h
    simp only at h
    split at h <;> cases h
  | errorOom | errorIo | errorInvalidMetadata | errorUnsupportedVersion | errorInvalidArgument =>
    rw [hv] at h
    cases h

/-- A slot that can still boot after its validation, where no error was allowed. -/
theorem validateSlot_ok {n : Slot} {l l' : Locals} (hrun : UBoot.validateSlot v n l = (none, l'))
    (hsaw : l'.sawAndAllowedVerificationError = false) : l.sawAndAllowedVerificationError = false ∧
      ((l'.abData.slots n).isBootable = true → v.verify n = (.ok, l'.slotData n)) := by
  unfold UBoot.validateSlot at hrun
  split at hrun
  · rcases hver : UBoot.verifySlot v n with e | ⟨unbootable, allowed⟩
    · rw [hver] at hrun
      cases hrun
    rw [hver] at hrun
    cases hu : unbootable with
    | true =>
      rw [hu] at hrun
      cases hrun
      refine ⟨(Bool.or_eq_false_iff.mp hsaw).1, fun hboots => ?_⟩
      simp only [AvbABData.slots_setSlot_same, AvbABSlotData.isBootable_setUnbootable] at hboots
      cases hboots
    | false =>
      rw [hu] at hrun hver
      cases hrun
      have hsaw := Bool.or_eq_false_iff.mp hsaw
      refine ⟨hsaw.1, fun _ => Prod.ext (verifySlot_ok hver rfl hsaw.2) ?_⟩
      exact (Function.update_self (f := l.slotData) n (v.verify n).2).symm
  · rename_i hnot
    cases hrun
    exact ⟨hsaw, fun hboots => absurd hboots hnot⟩

theorem validateSlot_error {n : Slot} {l l' : Locals} {ret : FlowResult} (hrun : UBoot.validateSlot v n l = (some ret, l')) :
    ret ≠ .ok := by
  have herror : ∀ {e}, UBoot.verifySlot v n = .error e → e ≠ .ok := by
    intro e he
    unfold UBoot.verifySlot at he
    split at he
    all_goals first | (cases he; exact FlowResult.noConfusion) | (split at he <;> cases he) | cases he
  unfold UBoot.validateSlot at hrun
  split at hrun
  · rcases hver : UBoot.verifySlot v n with e | ⟨unbootable, allowed⟩
    · rw [hver] at hrun
      cases hrun
      exact herror hver
    · rw [hver] at hrun
      cases unbootable <;> cases hrun
  · cases hrun

/-- The flow comes to the label with `ok` only with what a slot that verified has handed over. -/
def Verified (v : Verifier) (e : UBoot.AtOut) : Prop := e.ret = .ok → ∃ n, v.verify n = (.ok, e.data)

theorem validateToOut_ok (v : Verifier) (abData abDataOrig : AvbABData) :
    Prog.Triple (fun _ => True) (UBoot.validateToOut v abData abDataOrig) (fun e _ => Verified v e) fun _ => True := by
  unfold UBoot.validateToOut
  rcases h0 : UBoot.validateSlot v 0 ⟨abData, fun _ => none, false⟩ with ⟨_ | ret, l⟩
  swap
  · exact fun _ _ h => absurd h (validateSlot_error h0)
  simp only
  rcases h1 : UBoot.validateSlot v 1 l with ⟨_ | ret, l'⟩
  swap
  · exact fun _ _ h => absurd h (validateSlot_error h1)
  simp only [UBoot.selectToOut]
  rcases hslot : UBoot.avbGetBootableSlot l'.abData with - | c
  · exact fun _ _ h => by cases h
  refine Prog.Triple.bind (UBoot.updateRollback_exit _ _) fun r => ?_
  rcases r with - | ret
  swap
  · exact fun _ hne h => absurd (congrArg some h) hne
  intro s _ hret
  have hsaw : l'.sawAndAllowedVerificationError = false := by
    by_contra hsaw
    rw [Bool.not_eq_false] at hsaw
    simp only [hsaw, if_true] at hret
    cases hret
  have hboots := UBoot.isBootable_of_avbGetBootableSlot hslot
  obtain ⟨hsaw0, hok1⟩ := validateSlot_ok h1 hsaw
  obtain ⟨-, hok0⟩ := validateSlot_ok h0 hsaw0
  refine ⟨c, ?_⟩
  rcases c.eq_zero_or_one with rfl | rfl
  · -- the validation of the other slot leaves the first one alone
    have hother := UBoot.validateSlot_other (v := v) (n := 1) (c := 0) (by decide) l
    rw [h1] at hother
    rw [hother.1] at hboots
    exact (hok0 hboots).trans (congrArg _ hother.2.symm)
  · exact hok1 hboots

/-- A flow that returns `ok` hands over the data of a slot that has verified. -/
theorem avbAbFlow_ok (depth : ℕ) (v : Verifier) (abData abDataOrig : AvbABData) :
    Prog.Triple (fun _ => True) (UBoot.avbAbFlow depth v abData abDataOrig)
      (fun r _ => r.1 = .ok → ∃ n, v.verify n = (.ok, r.2)) fun _ => True := by
  rw [UBoot.avbAbFlow_eq]
  refine Prog.Triple.bind (R := fun e _ => Verified v e) ?_ fun e s hs => ?_
  · refine Prog.Triple.bind (Prog.Triple.top _) fun r => ?_
    rcases r with ⟨ioRet, d, orig⟩
    rcases hio : UBoot.ioError ioRet with - | ret
    · simp only [hio]
      exact validateToOut_ok v d orig
    · simp only [hio]
      exact fun _ _ h => absurd (hio.trans (congrArg some h)) UBoot.ioError_ne_ok
  · -- a save that fails turns the result into an error
    have hout : Prog.Triple (fun _ => True) (UBoot.out e.ret e.abData e.abDataOrig e.data)
        (fun r _ => r.1 = .ok → ∃ n, v.verify n = (.ok, r.2)) fun _ => True := by
      refine Prog.Triple.bind (Prog.Triple.top _) fun ioRet => ?_
      rcases hio : UBoot.ioError ioRet with - | ret
      · exact fun _ _ => hs
      · exact fun _ _ h => absurd (hio.trans (congrArg some h)) UBoot.ioError_ne_ok
    exact hout s trivial

theorem avbSlotVerify_failing (n : Slot) :
    ((avbSlotVerify zeroHashes failingOps 3 [text "boot"] (text (slotSuffix n)) ⟨false, false⟩ .restart).run
      ⟨0, .zero, 0, []⟩).1 = some (.errorIo, none) := by
  rcases n.eq_zero_or_one with rfl | rfl <;> rfl

end RCar.SlotVerify
