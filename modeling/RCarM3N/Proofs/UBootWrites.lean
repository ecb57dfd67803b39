import RCarM3N.Proofs.UBootInvariant

/-! Where the blocks come from that U-Boot writes to the A/B area, whatever fails: the log of
each operation is followed from its reads to its writes. -/

namespace RCar.UBoot

variable {s s' t : State} {d d' a o : AvbABData} {op : Op} {L : List Event} {w x : AvbABData}

/-! ## Justified writes -/

/-- What an operation makes of the metadata it has loaded. -/
def OwnEdit : Op → AvbABData → AvbABData → Prop
  | .flow v _ _, d, d' => FlowEdit v d d'
  | op, d, d' => d' = op.edit d

/-- A block `w` that may be written after `x` has been read: the default in place of an invalid
one, the loaded metadata normalised and edited, or these with slot A marked active, when the
initialisation of the message has done so. -/
inductive Allowed (op : Op) (x w : AvbABData) : Prop
  | init (h : ¬ x.Valid) (hw : w = avbAbDataInit.sealed)
  | own (d : AvbABData) (h : OwnEdit op (normalize (decoded x)) d) (hw : w = d.sealed)
  | message (hw : w = (markActive (normalize (decoded x)) AVB_AB_SLOT_A).sealed)

/-- Every write follows a read that allows it. -/
def Justified (op : Op) (log : List Event) : Prop :=
  ∀ pre w post, log = pre ++ .write w :: post → ∃ x, .read x ∈ pre ∧ Allowed op x w

theorem justified_nil (op : Op) : Justified op [] := by
  intro pre w post h
  exact absurd h.symm (by simp)

theorem Justified.append_read {log : List Event} (h : Justified op log) (x : AvbABData) :
    Justified op (log ++ [.read x]) := by
  intro pre w post heq
  rcases List.eq_nil_or_concat post with rfl | ⟨post', e, rfl⟩
  · have := (List.append_inj' heq rfl).2
    simp at this
  · rw [List.concat_eq_append, ← List.cons_append, ← List.append_assoc] at heq
    exact h pre w post' (List.append_inj' heq rfl).1

theorem Justified.append_write {log : List Event} (h : Justified op log)
    (hw : ∃ x, .read x ∈ log ∧ Allowed op x w) : Justified op (log ++ [.write w]) := by
  intro pre w' post heq
  rcases List.eq_nil_or_concat post with rfl | ⟨post', e, rfl⟩
  · obtain ⟨hlog, hw'⟩ := List.append_inj' heq rfl
    rw [← hlog]
    simp only [List.cons.injEq, Event.write.injEq, and_true] at hw'
    rwa [← hw']
  · rw [List.concat_eq_append, ← List.cons_append, ← List.append_assoc] at heq
    exact h pre w' post' (List.append_inj' heq rfl).1

/-- The log so far is justified, and holds the events of `L`. -/
def Logged (op : Op) (L : List Event) (s : State) : Prop := Justified op s.log ∧ L ⊆ s.log

/-! ## Accesses that leave the log alone -/

def SameLog (s s' : State) : Prop := s'.log = s.log

instance : IsPreorder State SameLog where
  refl _ := rfl
  trans _ _ _ h h' := h'.trans h

theorem Logged.of_sameLog (h : Logged op L s) (hs : SameLog s s') : Logged op L s' := by
  unfold Logged
  rw [hs]
  exact h

theorem access_sameLog : Prog.Keeps SameLog access := fun _ => rfl

theorem avbOpsAlloc_sameLog : Prog.Keeps SameLog avbOpsAlloc :=
  access_sameLog.bind fun _ => .pure _

theorem readFromPart_sameLog (n off : ℕ) : Prog.Keeps SameLog (readFromPart n off) := by
  unfold readFromPart
  refine avbOpsAlloc_sameLog.bind fun _ => .ite (.pure _) (Prog.Keeps.bind ?_ fun _ => .pure _)
  exact access_sameLog.bind fun _ => .bind .get fun _ => .pure _

theorem saveVirtualAbMsg_sameLog (v : MiscVirtABMsg) :
    Prog.Keeps SameLog (saveVirtualAbMsg v) := by
  unfold saveVirtualAbMsg writeToPart
  refine .ite (.pure _) (avbOpsAlloc_sameLog.bind fun _ => .ite (.pure _) ?_)
  refine Prog.Keeps.bind ?_ fun _ => .pure _
  exact access_sameLog.bind fun _ => .bind (fun _ => rfl) fun _ => .pure _

theorem updateRollback_sameLog (slotData : Slot → Option SlotVerifyData) (l : List ℕ) :
    Prog.Keeps SameLog (updateRollback slotData l) := by
  induction l with
  | nil => exact .pure _
  | cons n l ih =>
    have hwrite : ∀ value, Prog.Keeps SameLog (writeRollbackIndex n value) := by
      intro value
      unfold writeRollbackIndex
      exact access_sameLog.bind fun _ => .ite (.bind (fun _ => rfl) fun _ => .pure _) (.pure _)
    unfold updateRollback
    refine .ite (Prog.Keeps.bind (access_sameLog.bind fun _ => .bind .get fun _ => .pure _) ?_) ih
    intro r
    simp only
    cases ioError r.1 with
    | some ret => exact .pure _
    | none =>
      refine .ite ((hwrite _).bind fun r => ?_) ih
      cases ioError r with
      | some ret => exact .pure _
      | none => exact ih

theorem sameLog_triple {α : Type} {y : Prog State α} (h : Prog.Keeps SameLog y) (op : Op)
    (L : List Event) :
    Prog.Triple (Logged op L) y (fun _ => Logged op L) fun s => Justified op s.log :=
  (h.triple fun _ _ hs => hs.of_sameLog).conseq (fun _ => id) (fun _ _ => id) fun _ h => h.1

/-! ## Reads and writes of the block -/

/-- A read that has been made allows to write `d`. -/
def Covered (op : Op) (d : AvbABData) (s : State) : Prop :=
  ∃ x, .read x ∈ s.log ∧ Allowed op x d.sealed

theorem avbAbDataWrite_logged (op : Op) (L : List Event) (d : AvbABData) :
    Prog.Triple (fun s => Logged op L s ∧ Covered op d s) (avbAbDataWrite d)
      (fun _ => Logged op L) fun _ => False := by
  intro s ⟨⟨hj, hL⟩, x, hx, hallowed⟩
  rw [run_avbAbDataWrite_eq]
  by_cases hk : 0 < stored (s.io s.pos) AVB_AB_DATA_SIZE
  · refine ⟨?_, ?_⟩ <;> simp only [if_pos hk]
    · exact hj.append_write ⟨x, hx, hallowed⟩
    · exact List.Subset.trans hL (List.subset_append_left _ _)
  · refine ⟨?_, ?_⟩ <;> simp only [if_neg hk, List.append_nil]
    · exact hj
    · exact hL

theorem saveMetadataIfChanged_logged (op : Op) (L : List Event) (d o : AvbABData) :
    Prog.Triple (fun s => Logged op L s ∧ (d ≠ o → Covered op d s)) (saveMetadataIfChanged d o)
      (fun _ => Logged op L) fun _ => False := by
  unfold saveMetadataIfChanged
  refine .ite (fun hd => ?_) fun _ _ h => h.1
  exact (avbAbDataWrite_logged op L d).conseq (fun _ h => ⟨h.1, h.2 hd⟩) (fun _ _ => id) fun _ => id

/-- How a read of the block ends: decoded from a block that has been read; with the default in
place of an invalid one; or with a structure of `C`, not having read anything. -/
def ReadPost (C : AvbABData → Prop) (r : IoResult × AvbABData) (s : State) : Prop :=
  (r.1 = .ok ∧ ∃ x, .read x ∈ s.log ∧ r.2 = decoded x) ∨
    (r.1 ≠ .ok ∧ (C r.2 ∨ ∃ x, .read x ∈ s.log ∧ ¬ x.Valid ∧ r.2 = avbAbDataInit))

/-- A full read of the block. -/
theorem avbAbDataRead_full_logged (op : Op) (L : List Event) (d : AvbABData) (C : AvbABData → Prop) :
    Prog.Triple (fun s => Logged op L s ∧ FullRead s) (avbAbDataRead d)
      (fun r s => Logged op L s ∧ ReadPost C r s) fun s => Justified op s.log := by
  intro s ⟨⟨hj, hL⟩, hfull⟩
  have hread : Logged op (.read (abData s) :: L) (afterRead s) := by
    refine ⟨hj.append_read _, List.cons_subset.mpr ⟨by simp [afterRead], ?_⟩⟩
    exact List.Subset.trans hL (List.subset_append_left _ _)
  have hmem : .read (abData s) ∈ (afterRead s).log := hread.2 (.head _)
  rw [run_avbAbDataRead_of_full hfull]
  by_cases hv : (abData s).Valid
  · rw [if_pos hv]
    exact ⟨⟨hread.1, (List.cons_subset.mp hread.2).2⟩,
      .inl ⟨rfl, abData s, hmem, (decoded_of_valid hv).symm⟩⟩
  · rw [if_neg hv]
    have hwrite := avbAbDataWrite_logged op (.read (abData s) :: L) avbAbDataInit (afterRead s)
      ⟨hread, abData s, hmem, .init hv rfl⟩
    rcases hrun : (avbAbDataWrite avbAbDataInit).run (afterRead s) with ⟨_ | r, t⟩
    · rw [hrun] at hwrite
      exact hwrite.elim
    · rw [hrun] at hwrite
      rw [Prog.run_bind_of_some hrun]
      obtain ⟨hmem, hsub⟩ := List.cons_subset.mp hwrite.2
      refine ⟨⟨hwrite.1, hsub⟩, ?_⟩
      by_cases hr : r = .ok
      · exact .inl ⟨hr, abData s, hmem, (if_neg hv).symm⟩
      · exact .inr ⟨hr, .inr ⟨abData s, hmem, hv, rfl⟩⟩

/-- Any read of the block. -/
theorem avbAbDataRead_logged (op : Op) (L : List Event) (d : AvbABData) {C : AvbABData → Prop}
    (hC : C d) : Prog.Triple (Logged op L) (avbAbDataRead d)
      (fun r s => Logged op L s ∧ ReadPost C r s) fun s => Justified op s.log := by
  intro s hs
  by_cases hfull : FullRead s
  · exact avbAbDataRead_full_logged op L d C s ⟨hs, hfull⟩
  · rw [run_avbAbDataRead_of_not_full hfull]
    exact ⟨hs.of_sameLog rfl, .inr ⟨readError_ne_ok _, .inl hC⟩⟩

/-! ## Loads -/

/-- How a load ends: normalised from a block that has been read, or as a read that fails. -/
def LoadPost (C : AvbABData → Prop) (o : AvbABData) (r : IoResult × AvbABData × AvbABData)
    (s : State) : Prop :=
  (r.1 = .ok ∧ ∃ x, .read x ∈ s.log ∧ r.2.1 = normalize (decoded x) ∧ r.2.2 = decoded x) ∨
    (r.1 ≠ .ok ∧ r.2.2 = o ∧
      (C r.2.1 ∨ ∃ x, .read x ∈ s.log ∧ ¬ x.Valid ∧ r.2.1 = avbAbDataInit))

/-- A load keeps the log justified. -/
def LoadLogged (op : Op) (load : Prog State (IoResult × AvbABData × AvbABData)) : Prop :=
  ∀ L, Prog.Triple (Logged op L) load
    (fun r s => Logged op L s ∧ LoadPost (fun _ => True) unused r s) fun s => Justified op s.log

section Load

variable {load : Prog State (IoResult × AvbABData × AvbABData)} (hload : LoadLogged op load)
include hload

theorem avbGetSlotIndexWith_logged (L : List Event) :
    Prog.Triple (Logged op L) (avbGetSlotIndexWith load) (fun _ => Logged op L)
      fun s => Justified op s.log := by
  have hmark : Prog.Triple (Logged op L) (avbAbMarkSlotActiveWith load 0) (fun _ => Logged op L)
      fun s => Justified op s.log := by
    refine (hload L).bind fun r => .ite (fun _ _ h => h.1) fun hr s hs => ?_
    obtain ⟨-, x, hx, hd, -⟩ := hs.2.resolve_right fun h => hr h.1
    refine (saveMetadataIfChanged_logged op L _ _).conseq (fun _ => id) (fun _ _ => id)
      (fun _ => False.elim) s ⟨hs.1, fun _ => ⟨x, hx, ?_⟩⟩
    rw [hd]
    exact .message rfl
  unfold avbGetSlotIndexWith
  refine (sameLog_triple avbOpsAlloc_sameLog op L).bind fun b => .ite (fun _ _ h => h) fun _ => ?_
  refine (avbAbDataRead_logged op L unused (C := fun _ => True) trivial).bind fun r => ?_
  have hrest : Prog.Triple (fun s => Logged op L s ∧ ReadPost (fun _ => True) r s)
      (avbAbMarkSlotActiveWith load 0 >>= fun _ => pure 0 : Prog State UInt8) (fun _ => Logged op L)
      fun s => Justified op s.log :=
    (hmark.conseq (fun _ h => h.1) (fun _ _ => id) fun _ => id).bind fun _ _ h => h
  refine .ite (fun _ => ?_) fun _ => hrest
  cases avbGetBootableSlot r.2 with
  | none => exact hrest
  | some c => exact fun _ h => h.1

theorem loadVirtualAbMsgWith_logged (L : List Event) :
    Prog.Triple (Logged op L) (loadVirtualAbMsgWith load) (fun _ => Logged op L)
      fun s => Justified op s.log := by
  unfold loadVirtualAbMsgWith
  refine (sameLog_triple (readFromPart_sameLog _ _) op L).bind fun r => .ite (fun _ _ h => h) fun _ => ?_
  refine .ite (fun _ => ?_) fun _ _ h => h
  unfold initVirtualAbMsgWith
  have hinit : Prog.Triple (Logged op L) (do
      let sourceSlot ← avbGetSlotIndexWith load
      return { MiscVirtABMsg.ofMem r.2.2 0 with
        magic := MISC_VIRTUAL_AB_MAGIC_HEADER
        version := MAX_VIRTUAL_AB_MESSAGE_VERSION
        mergeStatus := VIRTUAL_AB_NONE
        sourceSlot := sourceSlot }) (fun _ => Logged op L) fun s => Justified op s.log :=
    (avbGetSlotIndexWith_logged hload L).bind fun _ _ h => h
  refine hinit.bind fun m => ?_
  exact (sameLog_triple (saveVirtualAbMsg_sameLog m) op L).bind fun _ _ h => h

theorem slotNormalizeWith_logged (L : List Event) (x : AvbABSlotData) (c : Slot) :
    Prog.Triple (Logged op L) (slotNormalizeWith load x c) (fun _ => Logged op L)
      fun s => Justified op s.log := by
  unfold slotNormalizeWith
  refine .ite (fun _ => (loadVirtualAbMsgWith_logged hload L).bind fun msg => ?_) fun _ _ h => h
  cases msg with
  | none => exact fun _ h => h
  | some m =>
    refine .ite (fun _ => ?_) fun _ _ h => h
    exact (sameLog_triple (saveVirtualAbMsg_sameLog _) op L).bind fun _ _ h => h

/-- A load ends as its read does. -/
theorem loadMetadataWith_logged {P : State → Prop} {C : AvbABData → Prop} (L : List Event)
    (a o : AvbABData) (hread : Prog.Triple P (avbAbDataRead a)
      (fun r s => Logged op L s ∧ ReadPost C r s) fun s => Justified op s.log) :
    Prog.Triple P (loadMetadataWith load a o) (fun r s => Logged op L s ∧ LoadPost C o r s)
      fun s => Justified op s.log := by
  unfold loadMetadataWith
  refine hread.bind fun r => .ite (fun hr s hs => ⟨hs.1, .inr ⟨hr, rfl, ?_⟩⟩) fun hr s hs => ?_
  · exact (hs.2.resolve_left fun h => hr h.1).2
  · obtain ⟨-, x, hx, hd⟩ := hs.2.resolve_right fun h => hr h.1
    have hslot : ∀ (y : AvbABSlotData) (c : Slot), Prog.Triple (Logged op (.read x :: L))
        (slotNormalizeWith load y c) (fun z s => Logged op (.read x :: L) s ∧ z = normalizeSlot y)
        fun s => Justified op s.log := fun y c =>
      ((slotNormalizeWith_logged hload (.read x :: L) y c).and (slotNormalizeWith_value load y c)).conseq
        (fun _ h => ⟨h, trivial⟩) (fun _ _ => id) fun _ h => h.1
    refine Prog.Triple.bind (hslot (r.2.slots 0) 0) (fun y => ?_) s
      ⟨hs.1.1, List.cons_subset.mpr ⟨hx, hs.1.2⟩⟩
    rintro t ⟨ht, rfl⟩
    refine Prog.Triple.bind (hslot (r.2.slots 1) 1) (fun y => ?_) t ht
    rintro u ⟨⟨hj, hsub⟩, rfl⟩
    obtain ⟨hmem, hL⟩ := List.cons_subset.mp hsub
    refine ⟨⟨hj, hL⟩, .inl ⟨rfl, x, hmem, ?_, hd⟩⟩
    rw [← hd]
    rfl

end Load

theorem loadLogged_loadMetadata (op : Op) (depth : ℕ) :
    LoadLogged op (loadMetadata depth unused unused) := by
  induction depth with
  | zero => exact fun L s hs => hs.1
  | succ depth ih =>
    intro L
    exact loadMetadataWith_logged ih L unused unused (avbAbDataRead_logged op L unused trivial)

/-! ## Operations -/

/-- A load, an edit in memory and a save. -/
theorem edit_logged (op : Op) (depth : ℕ) (f : AvbABData → AvbABData)
    (hf : ∀ d, OwnEdit op d (f d)) :
    Prog.Triple (Logged op []) (do
      let _ ← (do
        let (ret, abData, abDataOrig) ← loadMetadata depth unused unused
        if ret ≠ .ok then
          return ret
        saveMetadataIfChanged (f abData) abDataOrig : Prog State IoResult))
      (fun _ => Logged op []) fun s => Justified op s.log := by
  refine Prog.Triple.bind (R := fun _ => Logged op []) ?_ fun _ _ h => h
  refine (loadLogged_loadMetadata op depth []).bind fun r => .ite (fun _ _ h => h.1) fun hr s hs => ?_
  obtain ⟨-, x, hx, hd, -⟩ := hs.2.resolve_right fun h => hr h.1
  refine (saveMetadataIfChanged_logged op [] _ _).conseq (fun _ => id) (fun _ _ => id)
    (fun _ => False.elim) s ⟨hs.1, fun _ => ⟨x, hx, .own (f r.2.1) ?_ rfl⟩⟩
  rw [← hd]
  exact hf r.2.1

theorem out_logged (op : Op) (ret : FlowResult) (d o : AvbABData) (data : Option SlotVerifyData) :
    Prog.Triple (fun s => Logged op [] s ∧ (d ≠ o → Covered op d s)) (out ret d o data)
      (fun _ => Logged op []) fun s => Justified op s.log := by
  unfold out
  refine Prog.Triple.bind ((saveMetadataIfChanged_logged op [] d o).conseq (fun _ => id) (fun _ _ => id)
    fun _ => False.elim) fun r => ?_
  cases ioError r with
  | some ret => exact fun _ h => h
  | none => exact fun _ h => h

/-- The flow after the slots are validated. -/
theorem selectSlot_logged (op : Op) (l : Locals) (o : AvbABData) :
    Prog.Triple (fun s => Logged op [] s ∧ Covered op l.abData s ∧
        ∀ c, avbGetBootableSlot l.abData = some c → Covered op (decrementTries l.abData c) s)
      (selectSlot l o) (fun _ => Logged op []) fun s => Justified op s.log := by
  unfold selectSlot
  cases hc : avbGetBootableSlot l.abData with
  | none => exact (out_logged op _ _ _ _).conseq (fun _ h => ⟨h.1, fun _ => h.2.1⟩) (fun _ _ => id) fun _ => id
  | some c =>
    have hroll := (updateRollback_sameLog l.slotData
      (List.range AVB_MAX_NUMBER_OF_ROLLBACK_INDEX_LOCATIONS)).triple
        (P := fun s => Logged op [] s ∧ Covered op l.abData s ∧ Covered op (decrementTries l.abData c) s)
        fun s s' hs hlog => by
          unfold Covered
          rw [hlog]
          exact ⟨hs.1.of_sameLog hlog, hs.2⟩
    refine Prog.Triple.bind (hroll.conseq (fun _ h => ⟨h.1, h.2.1, h.2.2 c rfl⟩) (fun _ _ => id)
      fun _ h => h.1.1) fun r => ?_
    cases r with
    | some ret =>
      exact (out_logged op _ _ _ _).conseq (fun _ h => ⟨h.1, fun _ => h.2.1⟩) (fun _ _ => id) fun _ => id
    | none =>
      exact (out_logged op _ _ _ _).conseq (fun _ h => ⟨h.1, fun _ => h.2.2⟩) (fun _ _ => id) fun _ => id

/-- The flow, when a load that reads nothing leaves two equal structures. -/
theorem flow_logged {P : State → Prop} {C : AvbABData → Prop} (depth : ℕ) (v : Verifier)
    (a o : AvbABData) (hC : ∀ d, C d → d = o)
    (hload : Prog.Triple P (loadMetadata depth a o)
      (fun r s => Logged (.flow v a o) [] s ∧ LoadPost C o r s) fun s => Justified (.flow v a o) s.log) :
    Prog.Triple P ((Op.flow v a o).prog depth) (fun _ => Logged (.flow v a o) [])
      fun s => Justified (.flow v a o) s.log := by
  refine Prog.Triple.bind (R := fun _ => Logged (.flow v a o) []) ?_ fun _ _ h => h
  refine hload.bind fun r => ?_
  obtain ⟨ret, d, orig⟩ := r
  by_cases hret : ret = .ok
  · subst hret
    rintro s ⟨hs, hpost⟩
    obtain ⟨-, x, hx, hd, -⟩ := hpost.resolve_right fun h => h.1 rfl
    obtain rfl : d = normalize (decoded x) := hd
    have hcov : ∀ d', FlowEdit v (normalize (decoded x)) d' → Covered (.flow v a o) d' s :=
      fun d' he => ⟨x, hx, .own d' he rfl⟩
    simp only [ioError, reduceCtorEq, if_false, ne_eq, not_true_eq_false]
    rcases hv0 : validateSlot v 0 ⟨normalize (decoded x), fun _ => none, false⟩ with ⟨_ | ret, l⟩
    · obtain ⟨m, hm, h1⟩ := validate_clear hv0
      rcases hv1 : validateSlot v 1 l with ⟨_ | ret, l'⟩ <;> rw [hv1] at h1 <;> simp only at h1 ⊢
      · refine selectSlot_logged _ l' orig s ⟨hs, ?_, fun c hc => ?_⟩
        · rw [h1]
          exact hcov _ (.validated hm)
        · rw [h1] at hc ⊢
          exact hcov _ (.booted hm hc)
      · rw [h1]
        exact out_logged _ ret _ orig none s ⟨hs, fun _ => hcov _ (.validated hm)⟩
    · obtain ⟨m, hm, h0⟩ := validateSlot_clear v 0 ⟨normalize (decoded x), fun _ => none, false⟩
      rw [hv0] at h0
      simp only at h0 ⊢
      rw [h0]
      exact out_logged _ ret _ orig none s ⟨hs, fun _ => hcov _ (.validated hm)⟩
  · obtain ⟨e, he⟩ : ∃ e, ioError ret = some e := by
      cases ret <;> first | exact absurd rfl hret | exact ⟨_, rfl⟩
    simp only [he]
    rintro s ⟨hs, hpost⟩
    obtain ⟨-, ho, hor⟩ := hpost.resolve_left fun h => hret h.1
    obtain rfl : orig = o := ho
    refine out_logged _ e d orig none s ⟨hs, fun hne => ?_⟩
    rcases hor with hd | ⟨x, hx, hx', hd⟩
    · exact absurd (hC d hd) hne
    · exact ⟨x, hx, .init hx' (congrArg AvbABData.sealed hd)⟩

/-- What an operation does to the A/B area. -/
def Op.events (op : Op) (depth : ℕ) (s : State) : List Event :=
  ((op.prog depth).run { s with log := [] }).2.log

theorem justified_events {P : State → Prop} {depth : ℕ}
    (h : Prog.Triple P (op.prog depth) (fun _ => Logged op []) fun s => Justified op s.log)
    (hs : P { s with log := [] }) : Justified op (op.events depth s) := by
  have h1 := h _ hs
  unfold Op.events
  rcases hr : (op.prog depth).run { s with log := [] } with ⟨_ | a, t⟩ <;> rw [hr] at h1
  · exact h1
  · exact h1.1

theorem logged_nil (op : Op) (s : State) : Logged op [] { s with log := [] } :=
  ⟨justified_nil op, List.nil_subset _⟩

/-- When the flow cannot read the block, it saves its first structure if that differs from the
second. -/
theorem events_flow_of_not_full (h : ¬ FullRead s) (depth : ℕ) (v : Verifier) (a o : AvbABData) :
    (Op.flow v a o).events (depth + 1) s =
      if a ≠ o ∧ 0 < stored (s.io (s.pos + 1)) AVB_AB_DATA_SIZE then [.write a.sealed] else [] := by
  have hread := run_avbAbDataRead_of_not_full (s := { s with log := [] }) h a
  have hload : (loadMetadata (depth + 1) a o).run { s with log := [] } =
      (some (readError (s.io s.pos).ret, a, o), { s with log := [], pos := s.pos + 1 }) := by
    unfold loadMetadata loadMetadataWith
    rw [Prog.run_bind_of_some hread]
    simp only [if_pos (readError_ne_ok _)]
    rfl
  obtain ⟨e, he⟩ : ∃ e, ioError (readError (s.io s.pos).ret) = some e := by
    cases (s.io s.pos).ret <;> exact ⟨_, rfl⟩
  have hflow : (avbAbFlow (depth + 1) v a o).run { s with log := [] } =
      (out e a o none).run { s with log := [], pos := s.pos + 1 } := by
    unfold avbAbFlow
    rw [Prog.run_bind_of_some hload]
    simp only [he]
  have hprog : ((Op.flow v a o).prog (depth + 1)).run { s with log := [] } =
      (out e a o none >>= fun _ => pure ()).run { s with log := [], pos := s.pos + 1 } := by
    rw [Op.prog, Prog.run_bind, hflow, Prog.run_bind]
  rw [Op.events, hprog]
  unfold out saveMetadataIfChanged
  by_cases hne : a = o
  · rw [if_neg (not_not.mpr hne), if_neg fun h => h.1 hne]
    rfl
  · rw [if_pos hne, Prog.bind_assoc, Prog.run_bind_of_some (run_avbAbDataWrite_eq _ _)]
    by_cases hk : 0 < stored (s.io (s.pos + 1)) AVB_AB_DATA_SIZE
    · rw [if_pos hk, if_pos ⟨hne, hk⟩]
      cases ioError _ <;> rfl
    · rw [if_neg hk, if_neg fun h => hk h.2]
      cases ioError _ <;> rfl

theorem not_justified_write (op : Op) (w : AvbABData) : ¬ Justified op [.write w] := by
  intro h
  obtain ⟨x, hx, -⟩ := h [] w [] rfl
  cases hx

theorem justified_flow_iff (depth : ℕ) (v : Verifier) (a o : AvbABData) :
    Justified (.flow v a o) ((Op.flow v a o).events (depth + 1) s) ↔
      FullRead s ∨ a = o ∨ stored (s.io (s.pos + 1)) AVB_AB_DATA_SIZE = 0 := by
  have hload := loadLogged_loadMetadata (.flow v a o) depth
  by_cases hfull : FullRead s
  · refine iff_of_true (justified_events (flow_logged (depth + 1) v a o (fun _ => False.elim)
      (loadMetadataWith_logged hload [] a o (avbAbDataRead_full_logged _ [] a _))) ?_) (.inl hfull)
    exact ⟨logged_nil _ s, hfull⟩
  · by_cases ha : a = o
    · refine iff_of_true (justified_events (flow_logged (depth + 1) v a o (fun _ => id)
        (loadMetadataWith_logged hload [] a o (avbAbDataRead_logged _ [] a ha))) ?_) (.inr (.inl ha))
      exact logged_nil _ s
    · rw [events_flow_of_not_full hfull]
      by_cases hk : 0 < stored (s.io (s.pos + 1)) AVB_AB_DATA_SIZE
      · rw [if_pos ⟨ha, hk⟩]
        refine iff_of_false (not_justified_write _ _) ?_
        rintro (h | h | h)
        · exact hfull h
        · exact ha h
        · omega
      · rw [if_neg fun h => hk h.2]
        exact iff_of_true (justified_nil _) (.inr (.inr (Nat.eq_zero_of_not_pos hk)))

/-- Whatever fails, the operations that mark slots write what they may. The flow does so if and
only if it reads the block, or its two structures happen to be equal, or nothing of the write
reaches the storage. -/
theorem writes_justified (depth : ℕ) (s : State) :
    (∀ c, Justified (.markSlotActive c) ((Op.markSlotActive c).events depth s)) ∧
      (∀ c, Justified (.markSlotUnbootable c) ((Op.markSlotUnbootable c).events depth s)) ∧
      (∀ c, Justified (.markSlotSuccessful c) ((Op.markSlotSuccessful c).events depth s)) ∧
      ∀ v a o, Justified (.flow v a o) ((Op.flow v a o).events (depth + 1) s) ↔
        FullRead s ∨ a = o ∨ stored (s.io (s.pos + 1)) AVB_AB_DATA_SIZE = 0 := by
  refine ⟨fun c => ?_, fun c => ?_, fun c => ?_, fun v a o => justified_flow_iff depth v a o⟩
  · exact justified_events (edit_logged _ depth (markActive · c) fun _ => rfl) (logged_nil _ s)
  · exact justified_events (edit_logged _ depth (fun d => d.setSlot c (d.slots c).setUnbootable)
      fun _ => rfl) (logged_nil _ s)
  · exact justified_events (edit_logged _ depth (markSuccessful · c) fun _ => rfl) (logged_nil _ s)

/-- Bytes that a structure may hold before it is filled. -/
def leftover : AvbABData where
  magic _ := 0x55
  versionMajor := 0
  versionMinor := 0
  reserved1 _ := 0
  slots _ := ⟨0, 0, 0, 0⟩
  reserved2 _ := 0
  crc32 := 0

/-- A new device whose first access fails. -/
def unreadable : State := { newDevice with io := fun n => if n = 0 then ⟨.errorIo, 0⟩ else whole }

/-- The flow on that device; no slot is ever verified. -/
def flowOnLeftover : Op := .flow ⟨fun _ => (.errorIo, none), false⟩ leftover unused

/-- The block cannot be read, and the two structures of the flow hold different bytes: the first
of them replaces the stored block. -/
theorem leftover_is_saved :
    flowOnLeftover.events 1 unreadable = [.write leftover.sealed] ∧
      ¬ Justified flowOnLeftover (flowOnLeftover.events 1 unreadable) := by
  have hfull : ¬ FullRead unreadable := fun h => absurd h.1 (by decide)
  have hne : leftover ≠ unused := by decide
  have hstored : stored (unreadable.io (unreadable.pos + 1)) AVB_AB_DATA_SIZE = AVB_AB_DATA_SIZE := rfl
  have hevents : flowOnLeftover.events 1 unreadable = [.write leftover.sealed] := by
    rw [flowOnLeftover, events_flow_of_not_full hfull, hstored]
    exact if_pos ⟨hne, by decide⟩
  refine ⟨hevents, ?_⟩
  rw [hevents]
  exact not_justified_write _ _

end RCar.UBoot
