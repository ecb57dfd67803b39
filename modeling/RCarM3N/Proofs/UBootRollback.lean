import RCarM3N.Proofs.UBootInvariant

/-! The rollback indexes over one call of the flow on a locked device, whatever fails: what the
loop may store, and which slots the saved metadata presents after it. -/

namespace RCar.UBoot

variable {s s' t : State} {a o d orig : AvbABData} {depth : ℕ} {v : Verifier}

/-! ## Loading the metadata -/

/-- Everything but the rollback indexes may change. -/
def SameRollback (s s' : State) : Prop := s'.rollback = s.rollback

instance : IsPreorder State SameRollback where
  refl _ := rfl
  trans _ _ _ h h' := h'.trans h

theorem access_rollback : Prog.Keeps SameRollback access := fun _ => rfl

theorem avbOpsAlloc_rollback : Prog.Keeps SameRollback avbOpsAlloc :=
  access_rollback.bind fun _ => .pure _

theorem readFromPartition_rollback (off n : ℕ) :
    Prog.Keeps SameRollback (readFromPartition off n) :=
  access_rollback.bind fun _ => .bind .get fun _ => .pure _

theorem avbAbDataWrite_rollback (d : AvbABData) : Prog.Keeps SameRollback (avbAbDataWrite d) := by
  intro s
  rw [run_avbAbDataWrite_eq]
  rfl

theorem saveMetadataIfChanged_rollback (d o : AvbABData) :
    Prog.Keeps SameRollback (saveMetadataIfChanged d o) :=
  .ite (avbAbDataWrite_rollback d) (.pure _)

theorem avbAbDataRead_rollback (d : AvbABData) : Prog.Keeps SameRollback (avbAbDataRead d) := by
  unfold avbAbDataRead
  refine (readFromPartition_rollback _ _).bind fun r => .ite (.pure _) (.ite (.pure _) ?_)
  refine Prog.Keeps.bind (fun _ => rfl) fun _ => ?_
  cases avbAbDataVerifyAndByteswap (AvbABData.ofMem r.2.2 0) with
  | some d => exact .pure _
  | none => exact (avbAbDataWrite_rollback _).bind fun _ => .pure _

theorem saveVirtualAbMsg_rollback (m : MiscVirtABMsg) :
    Prog.Keeps SameRollback (saveVirtualAbMsg m) := by
  unfold saveVirtualAbMsg writeToPart
  refine .ite (.pure _) (avbOpsAlloc_rollback.bind fun _ => .ite (.pure _) ?_)
  refine Prog.Keeps.bind ?_ fun _ => .pure _
  exact access_rollback.bind fun _ => .bind (fun _ => rfl) fun _ => .pure _

section Load

variable {load : Prog State (IoResult × AvbABData × AvbABData)}
  (hload : Prog.Keeps SameRollback load)
include hload

theorem avbGetSlotIndexWith_rollback : Prog.Keeps SameRollback (avbGetSlotIndexWith load) := by
  have hmark : Prog.Keeps SameRollback (avbAbMarkSlotActiveWith load 0) :=
    hload.bind fun r => .ite (.pure _) (saveMetadataIfChanged_rollback _ _)
  have hrest : Prog.Keeps SameRollback
      (avbAbMarkSlotActiveWith load 0 >>= fun _ => pure 0 : Prog State UInt8) :=
    hmark.bind fun _ => .pure _
  unfold avbGetSlotIndexWith
  refine avbOpsAlloc_rollback.bind fun _ => .ite (.pure _) ?_
  refine (avbAbDataRead_rollback _).bind fun r => .ite ?_ hrest
  cases avbGetBootableSlot r.2 with
  | none => exact hrest
  | some c => exact .pure _

theorem loadVirtualAbMsgWith_rollback : Prog.Keeps SameRollback (loadVirtualAbMsgWith load) := by
  unfold loadVirtualAbMsgWith readFromPart initVirtualAbMsgWith
  refine Prog.Keeps.bind (avbOpsAlloc_rollback.bind fun _ => .ite (.pure _) ?_) fun r => ?_
  · exact (readFromPartition_rollback _ _).bind fun _ => .pure _
  · refine .ite (.pure _) (.ite ?_ (.pure _))
    refine Prog.Keeps.bind ((avbGetSlotIndexWith_rollback hload).bind fun _ => .pure _) fun m => ?_
    exact (saveVirtualAbMsg_rollback m).bind fun _ => .pure _

theorem slotNormalizeWith_rollback (x : AvbABSlotData) (c : Slot) :
    Prog.Keeps SameRollback (slotNormalizeWith load x c) := by
  unfold slotNormalizeWith
  refine .ite ((loadVirtualAbMsgWith_rollback hload).bind fun msg => ?_) (.pure _)
  cases msg with
  | none => exact .pure _
  | some m => exact .ite ((saveVirtualAbMsg_rollback _).bind fun _ => .pure _) (.pure _)

theorem loadMetadataWith_rollback (a o : AvbABData) :
    Prog.Keeps SameRollback (loadMetadataWith load a o) := by
  unfold loadMetadataWith
  refine (avbAbDataRead_rollback a).bind fun _ => .ite (.pure _) ?_
  refine (slotNormalizeWith_rollback hload _ _).bind fun _ => ?_
  exact (slotNormalizeWith_rollback hload _ _).bind fun _ => .pure _

end Load

theorem loadMetadata_rollback (depth : ℕ) (a o : AvbABData) :
    Prog.Keeps SameRollback (loadMetadata depth a o) := by
  induction depth generalizing a o with
  | zero => exact .stuck
  | succ depth ih => exact loadMetadataWith_rollback (ih unused unused) a o

/-- A load that succeeds has decoded the stored block and normalised it; the block is touched only
where a slot has used up its tries. -/
theorem loaded_of_ok (hv : (abData s).Valid)
    (h : (loadMetadata depth a o).run s = (some (.ok, d, orig), t)) :
    orig = decoded (abData s) ∧ d = normalize orig ∧ t.rollback = s.rollback ∧
      ((∀ c, (orig.slots c).exhausted = false) → t.misc = s.misc) := by
  have hroll : t.rollback = s.rollback := by
    have := loadMetadata_rollback depth a o s
    rwa [h] at this
  have hd : d = normalize orig := (loadMetadata_value depth a o).some trivial h rfl
  cases depth with
  | zero => cases h
  | succ depth =>
    rw [loadMetadata, loadMetadataWith] at h
    by_cases hfull : FullRead s
    · have hread := run_avbAbDataRead_of_full hfull a
      rw [if_pos hv] at hread
      rw [Prog.run_bind_of_some hread] at h
      simp only [ne_eq, not_true_eq_false, if_false] at h
      obtain ⟨x, u, hx, h⟩ := Prog.run_bind_eq_some h
      obtain ⟨y, w, hy, h⟩ := Prog.run_bind_eq_some h
      cases h
      refine ⟨(decoded_of_valid hv).symm, hd, hroll, fun hex => ?_⟩
      unfold slotNormalizeWith at hx hy
      rw [hex 0] at hx
      rw [hex 1] at hy
      cases hx
      cases hy
      rfl
    · rw [Prog.run_bind_of_some (run_avbAbDataRead_of_not_full hfull a)] at h
      simp only [ne_eq, readError_ne_ok, not_false_eq_true, if_true] at h
      exact absurd (congrArg (·.1) (Option.some.inj (congrArg Prod.fst h))) (readError_ne_ok _)

/-! ## The rollback loop -/

/-- An index is kept, or set to the value of its location. -/
def Advances (value : ℕ → UInt64) (s s' : State) : Prop :=
  ∀ n, s'.rollback n = s.rollback n ∨
    n < AVB_MAX_NUMBER_OF_ROLLBACK_INDEX_LOCATIONS ∧ value n ≠ 0 ∧ s'.rollback n = value n

instance (value : ℕ → UInt64) : IsPreorder State (Advances value) where
  refl _ _ := .inl rfl
  trans s t u h h' n := by
    rcases h' n with h2 | h2
    · rw [h2]
      exact h n
    · exact .inr h2

theorem Advances.of_sameRollback {value : ℕ → UInt64} (h : SameRollback s s') : Advances value s s' :=
  fun n => .inl (congrFun h n)

theorem writeRollbackIndex_advances {value : ℕ → UInt64} {n : ℕ}
    (hn : n < AVB_MAX_NUMBER_OF_ROLLBACK_INDEX_LOCATIONS) (hv : value n ≠ 0) :
    Prog.Keeps (Advances value) (writeRollbackIndex n (value n)) := by
  unfold writeRollbackIndex
  refine Prog.Keeps.bind (fun _ => .of_sameRollback rfl) fun r => .ite ?_ (.pure _)
  refine Prog.Keeps.bind (fun s m => ?_) fun _ => .pure _
  by_cases hm : m = n
  · subst hm
    exact .inr ⟨hn, hv, Function.update_self ..⟩
  · exact .inl (Function.update_of_ne hm ..)

def SameMisc (s s' : State) : Prop := s'.misc = s.misc

instance : IsPreorder State SameMisc where
  refl _ := rfl
  trans _ _ _ h h' := h'.trans h

section Loop

variable (slotData : Slot → Option SlotVerifyData) {l : List ℕ}

theorem updateRollback_advances (hl : ∀ n ∈ l, n < AVB_MAX_NUMBER_OF_ROLLBACK_INDEX_LOCATIONS) :
    Prog.Keeps (Advances (rollbackIndexValue slotData)) (updateRollback slotData l) := by
  induction l with
  | nil => exact .pure _
  | cons n l ih =>
    obtain ⟨hn, hl⟩ := List.forall_mem_cons.mp hl
    unfold updateRollback
    refine if hv : rollbackIndexValue slotData n = 0 then ?_ else ?_
    · simp only [hv, ne_eq, not_true_eq_false, if_false]
      exact ih hl
    · simp only [ne_eq, hv, not_false_eq_true, if_true]
      refine Prog.Keeps.bind (fun _ => .of_sameRollback rfl) fun r => ?_
      cases ioError r.1 with
      | some ret => exact .pure _
      | none =>
        refine .ite ((writeRollbackIndex_advances hn hv).bind fun r => ?_) (ih hl)
        cases ioError r with
        | some ret => exact .pure _
        | none => exact ih hl

theorem updateRollback_misc (l : List ℕ) : Prog.Keeps SameMisc (updateRollback slotData l) := by
  have hwrite : ∀ n value, Prog.Keeps SameMisc (writeRollbackIndex n value) := by
    intro n value
    have haccess : Prog.Keeps SameMisc access := fun _ => rfl
    have hset : ∀ f : State → ℕ → UInt64,
        Prog.Keeps SameMisc (Prog.modify fun s => { s with rollback := f s }) := fun _ _ => rfl
    exact haccess.bind fun _ => .ite ((hset _).bind fun _ => .pure _) (.pure _)
  have hread : ∀ n, Prog.Keeps SameMisc (readRollbackIndex n) := fun _ _ => rfl
  induction l with
  | nil => exact .pure _
  | cons n l ih =>
    unfold updateRollback
    refine .ite ((hread n).bind fun r => ?_) ih
    obtain ⟨ioRet, current⟩ := r
    simp only
    cases ioError ioRet with
    | some ret => exact .pure _
    | none =>
      refine .ite ((hwrite _ _).bind fun r => ?_) ih
      cases ioError r with
      | some ret => exact .pure _
      | none => exact ih

theorem ioError_ne_ok {r : IoResult} : ioError r ≠ some .ok := by
  cases r <;> decide

/-- A jump from the loop to `out` is one of an error. -/
theorem updateRollback_exit (l : List ℕ) :
    Prog.Triple (fun _ => True) (updateRollback slotData l) (fun ret _ => ret ≠ some .ok)
      fun _ => True := by
  induction l with
  | nil => exact fun _ _ h => nomatch h
  | cons n l ih =>
    unfold updateRollback
    refine .ite (fun _ => Prog.Triple.bind (.top _) fun r => ?_) fun _ => ih
    obtain ⟨ioRet, current⟩ := r
    simp only
    cases hr : ioError ioRet with
    | some ret =>
      exact fun _ _ h => ioError_ne_ok (hr.trans h)
    | none =>
      refine .ite (fun _ => Prog.Triple.bind (.top _) fun r => ?_) fun _ => ih
      cases hr : ioError r with
      | some ret => exact fun _ _ h => ioError_ne_ok (hr.trans h)
      | none => exact ih

theorem ioError_eq_none {r : IoResult} : ioError r = none ↔ r = .ok := by
  cases r <;> decide

/-- A loop that ends without an error has stored the value of every location. -/
theorem updateRollback_completes
    (hl : ∀ n ∈ l, n < AVB_MAX_NUMBER_OF_ROLLBACK_INDEX_LOCATIONS)
    (h : (updateRollback slotData l).run s = (some none, s')) {n : ℕ} (hn : n ∈ l)
    (hv : rollbackIndexValue slotData n ≠ 0) : s'.rollback n = rollbackIndexValue slotData n := by
  induction l generalizing s with
  | nil => exact absurd hn List.not_mem_nil
  | cons k l ih =>
    obtain ⟨hk, hls⟩ := List.forall_mem_cons.mp hl
    -- what the first location has been set to stays
    have hrest : ∀ t : State, t.rollback k = rollbackIndexValue slotData k ∨
        rollbackIndexValue slotData k = 0 → (updateRollback slotData l).run t = (some none, s') →
          s'.rollback n = rollbackIndexValue slotData n := by
      intro t ht hrun
      rcases List.mem_cons.mp hn with rfl | hn
      · have hadv := updateRollback_advances slotData hls t n
        rw [hrun] at hadv
        rcases hadv with h | ⟨-, -, h⟩
        · exact h.trans (ht.resolve_right hv)
        · exact h
      · exact ih hls hrun hn
    unfold updateRollback at h
    by_cases hz : rollbackIndexValue slotData k = 0
    · simp only [hz, ne_eq, not_true_eq_false, if_false] at h
      exact hrest s (.inr hz) h
    · simp only [ne_eq, hz, not_false_eq_true, if_true] at h
      obtain ⟨r, t, hread, h⟩ := Prog.run_bind_eq_some h
      obtain ⟨rfl, rfl⟩ : r = ((s.io s.pos).ret, s.rollback k) ∧ t = { s with pos := s.pos + 1 } := by
        cases hread
        exact ⟨rfl, rfl⟩
      cases hio : ioError (s.io s.pos).ret with
      | some ret =>
        rw [hio] at h
        cases h
      | none =>
        simp only [hio] at h
        by_cases hc : s.rollback k = rollbackIndexValue slotData k
        · simp only [hc, not_true_eq_false, if_false] at h
          exact hrest { s with pos := s.pos + 1 } (.inl hc) h
        · simp only [hc, not_false_eq_true, if_true] at h
          obtain ⟨w, u, hwrite, h⟩ := Prog.run_bind_eq_some h
          cases hw : ioError w with
          | some ret =>
            rw [hw] at h
            cases h
          | none =>
            simp only [hw] at h
            refine hrest u (.inl ?_) h
            have hok := ioError_eq_none.mp hw
            unfold writeRollbackIndex at hwrite
            obtain ⟨x, y, hacc, hwrite⟩ := Prog.run_bind_eq_some hwrite
            by_cases hx : x.ret = .ok
            · rw [if_pos hx] at hwrite
              cases hwrite
              exact Function.update_self ..
            · rw [if_neg hx] at hwrite
              cases hwrite
              exact absurd hok hx

end Loop

/-! ## The locked device -/

/-- `avb_slot_verify` without the flag that allows errors, for images with these rollback indexes:
success gives the indexes of the image, none of them below the stored one, and an error no data. -/
structure Locked (v : Verifier) (image : Slot → ℕ → UInt64) (rollback : ℕ → UInt64) : Prop where
  flag : v.allowVerificationError = false
  ok : ∀ c, (v.verify c).1 = .ok → ∃ data, (v.verify c).2 = some data ∧ data.rollbackIndexes = image c
  stored : ∀ c, (v.verify c).1 = .ok → ∀ n < AVB_MAX_NUMBER_OF_ROLLBACK_INDEX_LOCATIONS,
    rollback n ≤ image c n
  error : ∀ c, (v.verify c).1 ≠ .ok → (v.verify c).2 = none

/-- The slots of `d` that verify. -/
def VerifiedIn (v : Verifier) (d : AvbABData) (c : Slot) : Prop :=
  (d.slots c).isBootable = true ∧ (v.verify c).1 = .ok

/-- The rollback indexes of these slots at a location. -/
def indexesAt (v : Verifier) (d : AvbABData) (image : Slot → ℕ → UInt64) (n : ℕ) : Set UInt64 :=
  { x | ∃ c, VerifiedIn v d c ∧ image c n = x }

variable {image : Slot → ℕ → UInt64} {rollback : ℕ → UInt64}

/-- A slot that is not validated yet. -/
structure SlotOpen (d : AvbABData) (l : Locals) (c : Slot) : Prop where
  slot : l.abData.slots c = d.slots c
  data : l.slotData c = none

/-- A slot after its validation: it boots exactly if it verifies, and then has its data. -/
structure SlotDone (v : Verifier) (d : AvbABData) (l : Locals) (c : Slot) : Prop where
  boots : (l.abData.slots c).isBootable = true ↔ VerifiedIn v d c
  data : VerifiedIn v d c → l.slotData c = (v.verify c).2
  noData : ¬ VerifiedIn v d c → l.slotData c = none

theorem verifySlot_locked (h : Locked v image rollback) (n : Slot) :
    (∃ ret, verifySlot v n = .error ret ∧ ret ≠ .ok) ∨
      ((v.verify n).1 = .ok ∧ verifySlot v n = .ok (false, false)) ∨
      ((v.verify n).1 ≠ .ok ∧ verifySlot v n = .ok (true, false)) := by
  unfold verifySlot
  cases hv : (v.verify n).1 <;> simp [h.flag]

theorem validateSlot_exit (h : Locked v image rollback) {n : Slot} {l l' : Locals} {ret : FlowResult}
    (hrun : validateSlot v n l = (some ret, l')) : ret ≠ .ok := by
  unfold validateSlot at hrun
  split at hrun
  · rcases verifySlot_locked h n with ⟨r, hr, hne⟩ | ⟨-, hr⟩ | ⟨-, hr⟩
    · rw [hr] at hrun
      cases hrun
      exact hne
    · rw [hr] at hrun
      cases hrun
    · rw [hr] at hrun
      cases hrun
  · cases hrun

theorem validateSlot_other {n c : Slot} (hc : c ≠ n) (l : Locals) :
    (validateSlot v n l).2.abData.slots c = l.abData.slots c ∧
      (validateSlot v n l).2.slotData c = l.slotData c := by
  unfold validateSlot
  split
  · simp only
    split
    · exact ⟨rfl, Function.update_of_ne hc ..⟩
    · split
      · exact ⟨AvbABData.slots_setSlot_ne _ _ hc, Function.update_of_ne hc ..⟩
      · exact ⟨rfl, Function.update_of_ne hc ..⟩
  · exact ⟨rfl, rfl⟩

theorem validateSlot_done (h : Locked v image rollback) {n : Slot} {l l' : Locals}
    (hl : SlotOpen d l n) (hrun : validateSlot v n l = (none, l')) : SlotDone v d l' n := by
  unfold validateSlot at hrun
  rw [hl.slot] at hrun
  by_cases hb : (d.slots n).isBootable = true
  · rw [if_pos hb] at hrun
    rcases verifySlot_locked h n with ⟨r, hr, -⟩ | ⟨hok, hr⟩ | ⟨hne, hr⟩
    · rw [hr] at hrun
      cases hrun
    · rw [hr] at hrun
      cases hrun
      have hver : VerifiedIn v d n := ⟨hb, hok⟩
      refine ⟨?_, fun _ => Function.update_self .., fun hno => absurd hver hno⟩
      simp only [hl.slot, hb, true_iff]
      exact hver
    · rw [hr] at hrun
      cases hrun
      refine ⟨?_, fun hver => absurd hver.2 hne, fun _ => ?_⟩
      · simp only [AvbABData.slots_setSlot_same, AvbABSlotData.isBootable_setUnbootable,
          Bool.false_eq_true, false_iff]
        exact fun hver => hne hver.2
      · exact (Function.update_self ..).trans (h.error n hne)
  · rw [if_neg hb] at hrun
    cases hrun
    refine ⟨?_, fun hver => absurd hver.1 hb, fun _ => hl.data⟩
    rw [hl.slot]
    exact ⟨fun h => absurd h hb, fun hver => hver.1⟩

/-- When neither slot jumps to `out`, both are done. -/
theorem validate_done (h : Locked v image rollback) {l l' : Locals}
    (h0 : validateSlot v 0 ⟨d, fun _ => none, false⟩ = (none, l))
    (h1 : validateSlot v 1 l = (none, l')) (c : Slot) : SlotDone v d l' c := by
  have hopen : SlotOpen d l 1 := by
    have hother := validateSlot_other (v := v) (n := 0) (c := 1) (by decide) ⟨d, fun _ => none, false⟩
    rw [h0] at hother
    exact ⟨hother.1, hother.2⟩
  rcases c.eq_zero_or_one with rfl | rfl
  · have hdone := validateSlot_done h ⟨rfl, rfl⟩ h0
    have hother := validateSlot_other (v := v) (n := 1) (c := 0) (by decide) l
    rw [h1] at hother
    refine ⟨?_, fun hver => ?_, fun hno => ?_⟩
    · rw [hother.1]
      exact hdone.boots
    · rw [hother.2]
      exact hdone.data hver
    · rw [hother.2]
      exact hdone.noData hno
  · exact validateSlot_done h hopen h1

section Done

variable {l : Locals} (h : Locked v image rollback) (hl : ∀ c, SlotDone v d l c)
include h hl

/-- The value of a location is the least index of the slots that verified. -/
theorem rollbackIndexValue_isLeast {c : Slot} (hc : VerifiedIn v d c) (n : ℕ) :
    IsLeast (indexesAt v d image n) (rollbackIndexValue l.slotData n) := by
  have hdata : ∀ c, VerifiedIn v d c →
      ∃ data, l.slotData c = some data ∧ data.rollbackIndexes = image c := by
    intro c hc
    obtain ⟨data, hdata, himage⟩ := h.ok c hc.2
    exact ⟨data, ((hl c).data hc).trans hdata, himage⟩
  have hsingle : ∀ c, VerifiedIn v d c → ¬ VerifiedIn v d c.other →
      IsLeast (indexesAt v d image n) (image c n) := by
    refine fun c hc hno => ⟨⟨c, hc, rfl⟩, ?_⟩
    rintro x ⟨c', hc', rfl⟩
    by_cases hcc : c = c'
    · rw [hcc]
      exact UInt64.le_refl _
    · rw [Slot.other_eq_of_ne hcc] at hno
      exact absurd hc' hno
  by_cases h0 : VerifiedIn v d 0
  · obtain ⟨x, hx, hximage⟩ := hdata 0 h0
    by_cases h1 : VerifiedIn v d 1
    · obtain ⟨y, hy, hyimage⟩ := hdata 1 h1
      have hmem : ∀ z ∈ indexesAt v d image n, z = image 0 n ∨ z = image 1 n := by
        rintro z ⟨c', -, rfl⟩
        rcases c'.eq_zero_or_one with rfl | rfl
        · exact .inl rfl
        · exact .inr rfl
      rw [rollbackIndexValue, hx, hy]
      simp only [hximage, hyimage]
      split
      · rename_i hlt
        refine ⟨⟨0, h0, rfl⟩, fun z hz => ?_⟩
        rcases hmem z hz with rfl | rfl
        · exact UInt64.le_refl _
        · exact UInt64.le_of_lt hlt
      · rename_i hlt
        refine ⟨⟨1, h1, rfl⟩, fun z hz => ?_⟩
        rcases hmem z hz with rfl | rfl
        · exact UInt64.not_lt.mp hlt
        · exact UInt64.le_refl _
    · rw [rollbackIndexValue, hx, (hl 1).noData h1]
      simp only [hximage]
      exact hsingle 0 h0 h1
  · have h1 : VerifiedIn v d 1 := by
      rcases c.eq_zero_or_one with rfl | rfl
      · exact absurd hc h0
      · exact hc
    obtain ⟨y, hy, hyimage⟩ := hdata 1 h1
    rw [rollbackIndexValue, (hl 0).noData h0, hy]
    simp only [hyimage]
    exact hsingle 1 h1 h0

end Done

theorem exists_verified_of_value {l : Locals} (hl : ∀ c, SlotDone v d l c) {n : ℕ}
    (hv : rollbackIndexValue l.slotData n ≠ 0) : ∃ c, VerifiedIn v d c := by
  by_contra hno
  rw [not_exists] at hno
  rw [rollbackIndexValue, (hl 0).noData (hno 0), (hl 1).noData (hno 1)] at hv
  exact hv rfl

/-! ## The way to `out` -/

/-- What stands in the local variables of the flow at the label `out`. -/
structure AtOut where
  ret : FlowResult
  abData : AvbABData
  abDataOrig : AvbABData
  data : Option SlotVerifyData

/-- `selectSlot` up to the label. -/
def selectToOut (l : Locals) (abDataOrig : AvbABData) : Prog State AtOut :=
  match avbGetBootableSlot l.abData with
  | none => return ⟨.errorNoBootableSlots, l.abData, abDataOrig, none⟩
  | some slotIndexToBoot => do
    match ← updateRollback l.slotData (List.range AVB_MAX_NUMBER_OF_ROLLBACK_INDEX_LOCATIONS) with
    | some ret => return ⟨ret, l.abData, abDataOrig, none⟩
    | none =>
      let ret : FlowResult :=
        if l.sawAndAllowedVerificationError then .okWithVerificationError else .ok
      return ⟨ret, decrementTries l.abData slotIndexToBoot, abDataOrig, l.slotData slotIndexToBoot⟩

/-- The flow after the load, up to the label. -/
def validateToOut (v : Verifier) (abData abDataOrig : AvbABData) : Prog State AtOut :=
  match validateSlot v 0 ⟨abData, fun _ => none, false⟩ with
  | (some ret, l) => return ⟨ret, l.abData, abDataOrig, none⟩
  | (none, l) =>
    match validateSlot v 1 l with
    | (some ret, l) => return ⟨ret, l.abData, abDataOrig, none⟩
    | (none, l) => selectToOut l abDataOrig

/-- The flow up to the label. -/
def toOut (depth : ℕ) (v : Verifier) (abData abDataOrig : AvbABData) : Prog State AtOut := do
  let (ioRet, abData, abDataOrig) ← loadMetadata depth abData abDataOrig
  match ioError ioRet with
  | some ret => return ⟨ret, abData, abDataOrig, none⟩
  | none => validateToOut v abData abDataOrig

theorem selectSlot_eq (l : Locals) (o : AvbABData) :
    selectSlot l o = selectToOut l o >>= fun e => out e.ret e.abData e.abDataOrig e.data := by
  unfold selectSlot selectToOut
  cases avbGetBootableSlot l.abData with
  | none => rfl
  | some c =>
    simp only
    rw [Prog.bind_assoc]
    congr 1
    funext ret
    cases ret <;> rfl

/-- The flow goes to the label, and saves the metadata there. -/
theorem avbAbFlow_eq (depth : ℕ) (v : Verifier) (a o : AvbABData) :
    avbAbFlow depth v a o =
      toOut depth v a o >>= fun e => out e.ret e.abData e.abDataOrig e.data := by
  unfold avbAbFlow toOut
  rw [Prog.bind_assoc]
  congr 1
  funext r
  obtain ⟨ret, d, orig⟩ := r
  simp only
  cases ioError ret with
  | some ret => rfl
  | none =>
    simp only [validateToOut]
    rcases validateSlot v 0 ⟨d, fun _ => none, false⟩ with ⟨_ | ret, l⟩
    · simp only
      rcases validateSlot v 1 l with ⟨_ | ret, l'⟩
      · exact selectSlot_eq l' orig
      · rfl
    · rfl

variable {e : AtOut} {r : FlowResult × Option SlotVerifyData}

/-- What a run up to the label has done: the metadata are those that were loaded, edited, and the
indexes are kept, or moved to the least ones of the slots that still boot. -/
structure Reached (v : Verifier) (image : Slot → ℕ → UInt64) (s t : State) (e : AtOut) : Prop where
  edit : FlowEdit v (normalize (decoded (abData s))) e.abData
  orig : e.abDataOrig = decoded (abData s)
  misc : (∀ c, ((decoded (abData s)).slots c).exhausted = false) → t.misc = s.misc
  indexes : ∀ n, t.rollback n = s.rollback n ∨ n < AVB_MAX_NUMBER_OF_ROLLBACK_INDEX_LOCATIONS ∧
    IsLeast (indexesAt v (normalize (decoded (abData s))) image n) (t.rollback n)
  boots : t.rollback = s.rollback ∨
    ∀ c, (e.abData.slots c).isBootable = true → VerifiedIn v (normalize (decoded (abData s))) c
  complete : e.ret = .ok → ∀ n < AVB_MAX_NUMBER_OF_ROLLBACK_INDEX_LOCATIONS,
    ∀ m, IsLeast (indexesAt v (normalize (decoded (abData s))) image n) m → m ≠ 0 → t.rollback n = m

theorem isLeast_unique {x y : UInt64} {S : Set UInt64} (hx : IsLeast S x) (hy : IsLeast S y) : x = y :=
  UInt64.le_antisymm (hx.2 hy.1) (hy.2 hx.1)

/-- A run that leaves before the loop. -/
theorem Reached.of_exit {l : Locals} {ret : FlowResult} (hret : ret ≠ .ok)
    (hedit : FlowEdit v (normalize (decoded (abData s))) l.abData)
    (hmisc : (∀ c, ((decoded (abData s)).slots c).exhausted = false) → t.misc = s.misc)
    (hroll : t.rollback = s.rollback) :
    Reached v image s t ⟨ret, l.abData, decoded (abData s), none⟩ :=
  ⟨hedit, rfl, hmisc, fun n => .inl (congrFun hroll n), .inl hroll, fun h => absurd h hret⟩

/-- A load that fails ends the flow with the indexes as they were. -/
theorem toOut_of_not_loaded {ret : IoResult} (hret : ret ≠ .ok)
    (hload : (loadMetadata depth a o).run s = (some (ret, d, orig), t))
    (hrun : (toOut depth v a o).run s = (some e, s')) : s'.rollback = s.rollback ∧ e.ret ≠ .ok := by
  have hroll := loadMetadata_rollback depth a o s
  rw [hload] at hroll
  unfold toOut at hrun
  rw [Prog.run_bind_of_some hload] at hrun
  cases ret <;> first | exact absurd rfl hret | (cases hrun; exact ⟨hroll, by simp⟩)

/-- The loop, when the value of a location is the least index of the slots that boot. -/
theorem reached_loop (h : Locked v image s.rollback) {l : Locals} {ret : Option FlowResult} {u : State}
    (hl : ∀ c, SlotDone v (normalize (decoded (abData s))) l c) (hroll : t.rollback = s.rollback)
    (hloop : (updateRollback l.slotData (List.range AVB_MAX_NUMBER_OF_ROLLBACK_INDEX_LOCATIONS)).run t =
      (some ret, u)) :
    (∀ n, u.rollback n = s.rollback n ∨ n < AVB_MAX_NUMBER_OF_ROLLBACK_INDEX_LOCATIONS ∧
      IsLeast (indexesAt v (normalize (decoded (abData s))) image n) (u.rollback n)) ∧
    (ret = none → ∀ n < AVB_MAX_NUMBER_OF_ROLLBACK_INDEX_LOCATIONS, ∀ m,
      IsLeast (indexesAt v (normalize (decoded (abData s))) image n) m → m ≠ 0 → u.rollback n = m) := by
  have hrange : ∀ n ∈ List.range AVB_MAX_NUMBER_OF_ROLLBACK_INDEX_LOCATIONS,
      n < AVB_MAX_NUMBER_OF_ROLLBACK_INDEX_LOCATIONS := fun n hn => List.mem_range.mp hn
  refine ⟨fun n => ?_, ?_⟩
  · have hadv := updateRollback_advances l.slotData hrange t n
    rw [hloop] at hadv
    rcases hadv with hkept | ⟨hn, hv, hset⟩
    · exact .inl (hkept.trans (congrFun hroll n))
    · obtain ⟨c, hc⟩ := exists_verified_of_value hl hv
      refine .inr ⟨hn, ?_⟩
      rw [hset]
      exact rollbackIndexValue_isLeast h hl hc n
  · rintro rfl n hn m hm hz
    obtain ⟨c, hc, -⟩ := hm.1
    have hvalue := isLeast_unique hm (rollbackIndexValue_isLeast h hl hc n)
    rw [hvalue] at hz ⊢
    exact updateRollback_completes l.slotData hrange hloop (List.mem_range.mpr hn) hz

theorem decrementTries_priority (d : AvbABData) (c c' : Slot) :
    ((decrementTries d c).slots c').priority = (d.slots c').priority := by
  simp only [decrementTries]
  split
  · by_cases hc : c' = c
    · rw [hc, AvbABData.slots_setSlot_same]
    · rw [AvbABData.slots_setSlot_ne _ _ hc]
  · rfl

theorem selectToOut_reached (h : Locked v image s.rollback) {l : Locals}
    (hl : ∀ c, SlotDone v (normalize (decoded (abData s))) l c)
    {m : Slot → Bool} (hm : ∀ c, m c = true → Fails v c)
    (hclear : l.abData = clear m (normalize (decoded (abData s)))) (hroll : t.rollback = s.rollback)
    (hmisc : (∀ c, ((decoded (abData s)).slots c).exhausted = false) → t.misc = s.misc)
    (hrun : (selectToOut l (decoded (abData s))).run t = (some e, s')) : Reached v image s s' e := by
  unfold selectToOut at hrun
  cases hboot : avbGetBootableSlot l.abData with
  | none =>
    rw [hboot] at hrun
    cases hrun
    refine Reached.of_exit (by decide) ?_ hmisc hroll
    rw [hclear]
    exact .validated hm
  | some c =>
    rw [hboot] at hrun
    obtain ⟨ret, u, hloop, hrun⟩ := Prog.run_bind_eq_some hrun
    obtain ⟨hleast, hcomplete⟩ := reached_loop h hl hroll hloop
    have hmisc' : (∀ c, ((decoded (abData s)).slots c).exhausted = false) → u.misc = s.misc := by
      intro hex
      have := updateRollback_misc l.slotData (List.range AVB_MAX_NUMBER_OF_ROLLBACK_INDEX_LOCATIONS) t
      rw [hloop] at this
      exact this.trans (hmisc hex)
    cases ret with
    | some ret =>
      cases hrun
      refine ⟨?_, rfl, hmisc', hleast, .inr fun c hb => ((hl c).boots).mp hb, fun hret => ?_⟩
      · rw [hclear]
        exact .validated hm
      · exact absurd (congrArg some hret) ((updateRollback_exit l.slotData _).some trivial hloop)
    | none =>
      cases hrun
      refine ⟨?_, rfl, hmisc', hleast, .inr fun c hb => ?_, fun _ => hcomplete rfl⟩
      · rw [hclear] at hboot ⊢
        exact .booted hm hboot
      · exact ((hl c).boots).mp (isBootable_decrementTries hb)

theorem toOut_reached (hv : (abData s).Valid) (h : Locked v image s.rollback)
    (hload : (loadMetadata depth a o).run s = (some (.ok, d, orig), t))
    (hrun : (toOut depth v a o).run s = (some e, s')) : Reached v image s s' e := by
  obtain ⟨rfl, rfl, hroll, hmisc⟩ := loaded_of_ok hv hload
  unfold toOut at hrun
  rw [Prog.run_bind_of_some hload] at hrun
  have hrun : (validateToOut v (normalize (decoded (abData s))) (decoded (abData s))).run t =
      (some e, s') := hrun
  unfold validateToOut at hrun
  rcases h0 : validateSlot v 0 ⟨normalize (decoded (abData s)), fun _ => none, false⟩ with ⟨_ | ret, l⟩
  · obtain ⟨m, hm, hclear⟩ := validate_clear h0
    rw [h0] at hrun
    simp only at hrun
    rcases h1 : validateSlot v 1 l with ⟨_ | ret, l'⟩ <;> rw [h1] at hrun hclear <;>
      simp only at hrun hclear
    · exact selectToOut_reached h (validate_done h h0 h1) hm hclear hroll hmisc hrun
    · cases hrun
      refine Reached.of_exit (validateSlot_exit h h1) ?_ hmisc hroll
      rw [hclear]
      exact .validated hm
  · obtain ⟨m, hm, hclear⟩ := validateSlot_clear v 0 ⟨normalize (decoded (abData s)), fun _ => none, false⟩
    rw [h0] at hrun hclear
    cases hrun
    refine Reached.of_exit (validateSlot_exit h h0) ?_ hmisc hroll
    rw [hclear]
    exact .validated hm

/-! ## Rollback protection -/

/-- `load_metadata` succeeds. -/
def Loads (depth : ℕ) (a o : AvbABData) (s : State) : Prop :=
  ∃ d orig t, (loadMetadata depth a o).run s = (some (.ok, d, orig), t)

/-- `save_metadata_if_changed` at the label `out` succeeds. -/
def Saves (depth : ℕ) (v : Verifier) (a o : AvbABData) (s : State) : Prop :=
  ∃ e t s', (toOut depth v a o).run s = (some e, t) ∧
    (saveMetadataIfChanged e.abData e.abDataOrig).run t = (some .ok, s')

/-- The slots that the stored metadata presents as bootable. -/
def Presents (s : State) (c : Slot) : Prop := ((decoded (abData s)).slots c).isBootable = true

theorem FlowEdit.priority (he : FlowEdit v d d') {c : Slot} (h : (d.slots c).priority = 0) :
    (d'.slots c).priority = 0 := by
  have hclear : ∀ m : Slot → Bool, ((clear m d).slots c).priority = 0 := by
    intro m
    rw [slots_clear]
    cases m c
    · exact h
    · rfl
  cases he with
  | validated hm => exact hclear _
  | booted hm hc => exact (decrementTries_priority _ _ _).trans (hclear _)

/-- Metadata that need no save are stored as they are. -/
theorem Reached.unchanged (h : Reached v image s t e) (hv : (abData s).Valid)
    (heq : e.abData = e.abDataOrig) : abData t = e.abData.sealed := by
  have hstored : (decoded (abData s)).sealed = abData s := by
    rw [sealed_decoded, loaded, if_pos hv]
  have hmisc : t.misc = s.misc := by
    refine h.misc fun c => Bool.eq_false_iff.mpr fun hex => ?_
    have hzero : ((normalize (decoded (abData s))).slots c).priority = 0 := by
      rw [slots_normalize, normalizeSlot_of_exhausted hex]
      rfl
    have hkept := h.edit.priority hzero
    rw [heq, h.orig] at hkept
    have hpos := ((AvbABSlotData.exhausted_iff _).mp hex).1
    rw [hkept] at hpos
    exact absurd hpos (by decide)
  rw [heq, h.orig, hstored, abData, hmisc]
  rfl

/-- The slots of the flow's metadata are those that the saved block presents. -/
theorem Reached.presents (h : Reached v image s t e) (hv : (abData s).Valid)
    (hsave : (saveMetadataIfChanged e.abData e.abDataOrig).run t = (some .ok, s')) (c : Slot) :
    Presents s' c ↔ (e.abData.slots c).isBootable = true := by
  have hdata : abData s' = e.abData.sealed := by
    unfold saveMetadataIfChanged at hsave
    by_cases heq : e.abData = e.abDataOrig
    · rw [if_neg (not_not.mpr heq)] at hsave
      cases hsave
      exact h.unchanged hv heq
    · rw [if_pos heq] at hsave
      exact abData_of_write hsave
  have hheader := h.edit.header
  have hvalid : e.abData.sealed.Valid := by
    refine AvbABData.valid_sealed ?_ ?_
    · rw [hheader.1]
      exact (valid_decoded _).1
    · rw [hheader.2]
      exact (valid_decoded _).2
  rw [Presents, hdata, decoded_of_valid hvalid]
  rfl

/-- The label changes no index, and answers with success only if it was reached with it. -/
theorem out_run {ret : FlowResult} {data : Option SlotVerifyData}
    (hrun : (out ret d orig data).run t = (some r, s')) :
    s'.rollback = t.rollback ∧ (r.1 = .ok → ret = .ok) ∧
      ∀ u, (saveMetadataIfChanged d orig).run t = (some .ok, u) → u = s' := by
  obtain ⟨ret', u, hsave, hrun⟩ := Prog.run_bind_eq_some hrun
  have hroll := saveMetadataIfChanged_rollback d orig t
  rw [hsave] at hroll
  have hu : u = s' ∧ (r.1 = .ok → ret = .ok) := by
    cases hio : ioError ret' with
    | some x =>
      rw [hio] at hrun
      cases hrun
      exact ⟨rfl, fun h => absurd (hio.trans (congrArg some h)) ioError_ne_ok⟩
    | none =>
      rw [hio] at hrun
      cases hrun
      exact ⟨rfl, id⟩
  obtain ⟨rfl, hok⟩ := hu
  exact ⟨hroll, hok, fun w hw => (Prog.run_unique hw hsave).2⟩

/-- Whatever fails, no index decreases; a success leaves the least indexes of the slots that
verified; and once the metadata are loaded and saved, no slot that they present is below an index
that it was not below before. -/
theorem rollback_protected (hv : (abData s).Valid) (h : Locked v image s.rollback)
    (hrun : (avbAbFlow depth v a o).run s = (some r, s')) :
    (∀ n, s.rollback n ≤ s'.rollback n) ∧
      (r.1 = .ok → ∀ n < AVB_MAX_NUMBER_OF_ROLLBACK_INDEX_LOCATIONS, ∀ m,
        IsLeast (indexesAt v (normalize (decoded (abData s))) image n) m → m ≠ 0 →
          s'.rollback n = m) ∧
      (Loads depth a o s → Saves depth v a o s → ∀ c, Presents s' c →
        ∀ n < AVB_MAX_NUMBER_OF_ROLLBACK_INDEX_LOCATIONS,
          image c n < s'.rollback n → image c n < s.rollback n) := by
  rw [avbAbFlow_eq] at hrun
  obtain ⟨e, t, hto, hout⟩ := Prog.run_bind_eq_some hrun
  obtain ⟨hroll, hok, hsaved⟩ := out_run hout
  obtain ⟨⟨ioRet, d, orig⟩, u, hload, -⟩ := Prog.run_bind_eq_some hto
  by_cases hio : ioRet = .ok
  · subst hio
    have hreach := toOut_reached hv h hload hto
    refine ⟨fun n => ?_, fun hr n hn m hm hz => ?_, fun _ hsave c hc n hn hlt => ?_⟩
    · rw [hroll]
      rcases hreach.indexes n with hkept | ⟨hn, ⟨c, hc, hindex⟩, -⟩
      · rw [hkept]
        exact UInt64.le_refl _
      · rw [← hindex]
        exact h.stored c hc.2 n hn
    · rw [hroll]
      exact hreach.complete (hok hr) n hn m hm hz
    · obtain ⟨e', t', w, hto', hsave⟩ := hsave
      obtain ⟨rfl, rfl⟩ := Prog.run_unique hto' hto
      obtain rfl := hsaved w hsave
      rw [hroll] at hlt
      rcases hreach.boots with hkept | hboots
      · rwa [← hkept]
      · rcases hreach.indexes n with hkept | ⟨-, hleast⟩
        · rwa [← hkept]
        · -- the index is the least one of the slots that verified, and `c` is one of them
          have hver := hboots c ((hreach.presents hv hsave c).mp hc)
          exact absurd hlt (UInt64.not_lt.mpr (hleast.2 ⟨c, hver, rfl⟩))
  · obtain ⟨hkept, hret⟩ := toOut_of_not_loaded hio hload hto
    have hsame := hroll.trans hkept
    refine ⟨fun n => ?_, fun hr => absurd (hok hr) hret, fun hl => ?_⟩
    · rw [hsame]
      exact UInt64.le_refl _
    · obtain ⟨d', orig', t', hload'⟩ := hl
      exact absurd (congrArg (·.1) (Prog.run_unique hload hload').1) hio

/-! ## Devices -/

/-- Indexes at the first location only. -/
def imagesAt (x y : UInt64) : Slot → ℕ → UInt64 :=
  ![fun n => if n = 0 then x else 0, fun n => if n = 0 then y else 0]

/-- A new device with the index 5 at the first location. -/
def raisedDevice (io : ℕ → Access) : State :=
  { newDevice with io := io, rollback := fun n => if n = 0 then 5 else 0 }

theorem valid_raisedDevice (io : ℕ → Access) : (abData (raisedDevice io)).Valid := by
  have : abData (raisedDevice io) = blockOf ⟨15, 7, 0, 0⟩ ⟨14, 7, 0, 0⟩ := abData_device _ _ io
  rw [this]
  exact valid_blockOf _ _

/-- Slot A verifies with the index 7, slot B does not verify. -/
def onlyA : Verifier where
  verify := ![(.ok, some ⟨("_a" : String), imagesAt 7 6 0⟩), (.errorVerification, none)]
  allowVerificationError := false

theorem locked_onlyA (io : ℕ → Access) : Locked onlyA (imagesAt 7 6) (raisedDevice io).rollback where
  flag := rfl
  ok c hc := by
    rcases c.eq_zero_or_one with rfl | rfl
    · exact ⟨_, rfl, rfl⟩
    · cases hc
  stored c hc n _ := by
    rcases c.eq_zero_or_one with rfl | rfl
    · by_cases hn : n = 0
      · subst hn
        change (5 : UInt64) ≤ 7
        decide
      · simp [raisedDevice, imagesAt, hn]
    · cases hc
  error c hc := by
    rcases c.eq_zero_or_one with rfl | rfl
    · exact absurd rfl hc
    · rfl

/-- A success leaves the index of slot A. -/
theorem onlyA_protected :
    ∃ r s', (avbAbFlow 1 onlyA unused unused).run (raisedDevice fun _ => whole) = (some r, s') ∧
      r.1 = .ok ∧ s'.rollback 0 = 7 := by
  have hok : AllOk (raisedDevice fun _ => whole) := fun _ => ⟨rfl, le_rfl⟩
  have hfull : ¬ ∃ c, ((loaded (abData (raisedDevice fun _ => whole))).slots c).exhausted = true := by
    rw [not_exists, Fin.forall_fin_two]
    decide +kernel
  obtain ⟨m, s', hrun, -, -⟩ := run_avbAbFlow hok 0 onlyA unused unused fun h => absurd h hfull
  have hr : (flowOutcome onlyA (normalize (decoded (abData (raisedDevice fun _ => whole))))).1.1 = .ok := by
    decide +kernel
  have hboots : ((normalize (decoded (abData (raisedDevice fun _ => whole)))).slots 0).isBootable = true := by
    decide +kernel
  have hleast : IsLeast (indexesAt onlyA (normalize (decoded (abData (raisedDevice fun _ => whole))))
      (imagesAt 7 6) 0) 7 := by
    refine ⟨⟨0, ⟨hboots, rfl⟩, rfl⟩, ?_⟩
    rintro x ⟨c, hc, rfl⟩
    rcases c.eq_zero_or_one with rfl | rfl
    · exact UInt64.le_refl _
    · cases hc.2
  have hprotected := rollback_protected (valid_raisedDevice fun _ => whole)
    (locked_onlyA fun _ => whole) hrun
  exact ⟨_, s', hrun, hr, hprotected.2.1 hr 0 (by decide) 7 hleast (by decide)⟩

/-- No stored index is above that of a slot that the stored metadata presents. -/
def NotLockedOut (image : Slot → ℕ → UInt64) (s : State) : Prop :=
  ∀ c, Presents s c → ∀ n < AVB_MAX_NUMBER_OF_ROLLBACK_INDEX_LOCATIONS, s.rollback n ≤ image c n

/-- The fourth access, the write of the metadata, fails. -/
def saveFails : ℕ → Access := fun n => if n = 3 then ⟨.errorIo, 0⟩ else whole

/-- Slot A does not verify, and slot B cannot be read. -/
def noneVerified : Verifier where
  verify := ![(.errorVerification, none), (.errorIo, none)]
  allowVerificationError := false

theorem locked_noneVerified (image : Slot → ℕ → UInt64) (rollback : ℕ → UInt64) :
    Locked noneVerified image rollback where
  flag := rfl
  ok c hc := by rcases c.eq_zero_or_one with rfl | rfl <;> cases hc
  stored c hc := by rcases c.eq_zero_or_one with rfl | rfl <;> cases hc
  error c _ := by rcases c.eq_zero_or_one with rfl | rfl <;> rfl

theorem run_of_isSome {σ α : Type} {x : Prog σ α} {s : σ} (h : (x.run s).1.isSome = true) :
    ∃ r, x.run s = (some r, (x.run s).2) := by
  rcases hx : x.run s with ⟨_ | r, s'⟩
  · rw [hx] at h
    cases h
  · exact ⟨r, rfl⟩

/-- Slot B fails and slot A raises the index, but the metadata cannot be saved; and a slot that was
below the stored index keeps its place, because it cannot be read. -/
theorem slot_stays_locked_out :
    (Locked onlyA (imagesAt 7 6) (raisedDevice saveFails).rollback ∧
      ∃ r s', (avbAbFlow 1 onlyA unused unused).run (raisedDevice saveFails) = (some r, s') ∧
        NotLockedOut (imagesAt 7 6) (raisedDevice saveFails) ∧ ¬ NotLockedOut (imagesAt 7 6) s') ∧
    Locked noneVerified (imagesAt 7 3) (raisedDevice fun _ => whole).rollback ∧
      ∃ r s', (avbAbFlow 1 noneVerified unused unused).run (raisedDevice fun _ => whole) =
        (some r, s') ∧ ¬ NotLockedOut (imagesAt 7 3) s' := by
  refine ⟨⟨locked_onlyA saveFails, ?_⟩, locked_noneVerified _ _, ?_⟩
  · obtain ⟨r, hrun⟩ := run_of_isSome (x := avbAbFlow 1 onlyA unused unused) (s := raisedDevice saveFails)
      (by decide +kernel)
    refine ⟨r, _, hrun, ?_, fun h => ?_⟩
    · intro c _ n _
      by_cases hn : n = 0
      · rcases c.eq_zero_or_one with rfl | rfl <;> rw [hn] <;> decide
      · simp [raisedDevice, hn]
    · have hlocked := h 1 (by unfold Presents; decide +kernel) 0 (by decide)
      exact absurd hlocked (by decide +kernel)
  · obtain ⟨r, hrun⟩ := run_of_isSome (x := avbAbFlow 1 noneVerified unused unused)
      (s := raisedDevice fun _ => whole) (by decide +kernel)
    refine ⟨r, _, hrun, fun h => ?_⟩
    have hlocked := h 1 (by unfold Presents; decide +kernel) 0 (by decide)
    exact absurd hlocked (by decide +kernel)

end RCar.UBoot
