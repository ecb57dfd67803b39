import RCarM3N.Proofs.UBootInvariant

/-! When the recursion of `load_metadata` through the message ends: for which contents of `misc`
every pattern of failures lets it return. -/

namespace RCar.UBoot

variable {s s' t : State} {d : AvbABData} {v : MiscVirtABMsg} {m : Mem}

/-! ## Contents that always return -/

theorem total_avbAbDataWrite (d : AvbABData) : Prog.Total (fun _ => True) (avbAbDataWrite d) :=
  .of_run fun s => ⟨_, _, run_avbAbDataWrite_eq s d⟩

theorem total_saveMetadataIfChanged (d o : AvbABData) :
    Prog.Total (fun _ => True) (saveMetadataIfChanged d o) := by
  unfold saveMetadataIfChanged
  split
  · exact total_avbAbDataWrite d
  · exact .pure _

theorem total_out (ret : FlowResult) (d o : AvbABData) (data : Option SlotVerifyData) :
    Prog.Total (fun _ => True) (out ret d o data) := by
  unfold out
  refine (total_saveMetadataIfChanged d o).bind fun r => ?_
  cases ioError r <;> exact .pure _

theorem total_updateRollback (slotData : Slot → Option SlotVerifyData) (l : List ℕ) :
    Prog.Total (fun _ => True) (updateRollback slotData l) := by
  induction l with
  | nil => exact .pure _
  | cons n l ih =>
    have hread : Prog.Total (fun _ => True) (readRollbackIndex n) := .of_run fun s => ⟨_, _, rfl⟩
    have hwrite : ∀ value, Prog.Total (fun _ => True) (writeRollbackIndex n value) := by
      refine fun value => .of_run fun s => ?_
      unfold writeRollbackIndex
      rw [Prog.run_bind_of_some (run_access s)]
      split <;> exact ⟨_, _, rfl⟩
    unfold updateRollback
    simp only
    refine .ite (fun _ => hread.bind fun r => ?_) fun _ => ih
    cases ioError r.1 with
    | some ret => exact .pure _
    | none =>
      refine .ite (fun _ => (hwrite _).bind fun r => ?_) fun _ => ih
      cases ioError r with
      | some ret => exact .pure _
      | none => exact ih

theorem total_selectSlot (l : Locals) (o : AvbABData) :
    Prog.Total (fun _ => True) (selectSlot l o) := by
  unfold selectSlot
  cases avbGetBootableSlot l.abData with
  | none => exact total_out _ _ _ _
  | some c =>
    refine (total_updateRollback _ _).bind fun r => ?_
    cases r <;> exact total_out _ _ _ _

/-- No slot is used up, or the message is valid. -/
def Calm (d : AvbABData) (s : State) : Prop :=
  (∀ c, (d.slots c).exhausted = false) ∨ (virtMsg s).isValid = true

/-- The message decides whether this content can make `load_metadata` call itself for ever. -/
def Recurses (m : Mem) : Prop :=
  (dataAt 0 m).Valid ∧ (∃ c, ((dataAt 0 m).slots c).exhausted = true) ∧ (msgAt 0 m).isValid = false

theorem avbAbDataRead_calm (d : AvbABData) :
    Prog.Triple (fun s => ¬ Recurses s.misc) (avbAbDataRead d)
      (fun r s => r.1 = .ok → Calm r.2 s) fun _ => False := by
  intro s hs
  by_cases hfull : FullRead s
  · rw [run_avbAbDataRead_of_full hfull]
    by_cases hv : (abData s).Valid
    · rw [if_pos hv]
      intro _
      by_cases hm : (virtMsg s).isValid = true
      · exact .inr hm
      · refine .inl fun c => Bool.eq_false_of_not_eq_true fun hx => ?_
        exact hs ⟨hv, ⟨c, hx⟩, Bool.eq_false_of_not_eq_true hm⟩
    · rw [if_neg hv, Prog.run_bind_of_some (run_avbAbDataWrite_eq _ _)]
      intro _
      exact .inl (by decide : ∀ c, (avbAbDataInit.slots c).exhausted = false)
  · rw [run_avbAbDataRead_of_not_full hfull]
    exact fun h => absurd h (readError_ne_ok _)

theorem mem_status_of_ne (v : MiscVirtABMsg) (x : UInt8) {i : ℕ} (hi : i ≠ 5) :
    (MiscVirtABMsg.mem { v with mergeStatus := x }) i = v.mem i := by
  have hset : (MiscVirtABMsg.toBytes { v with mergeStatus := x }) = v.toBytes.set 5 x := rfl
  rw [MiscVirtABMsg.mem, hset, MiscVirtABMsg.mem, Mem.ofList, Mem.ofList,
    List.getD_eq_getElem?_getD, List.getElem?_set_ne hi.symm, List.getD_eq_getElem?_getD]

/-- A message of which a write has replaced the first bytes, with another status. -/
theorem msgAt_copy_status (m : Mem) (x : UInt8) {k : ℕ} (hk : k ≤ MiscVirtABMsg.SIZE) :
    msgAt 0 (m.copy SYSTEM_SPACE_OFFSET_IN_MISC
        (MiscVirtABMsg.mem { msgAt 0 m with mergeStatus := x }) 0 k) = msgAt 0 m ∨
      msgAt 0 (m.copy SYSTEM_SPACE_OFFSET_IN_MISC
        (MiscVirtABMsg.mem { msgAt 0 m with mergeStatus := x }) 0 k) =
          { msgAt 0 m with mergeStatus := x } := by
  have hbyte : ∀ i, i < 64 → i ≠ 5 →
      (MiscVirtABMsg.mem { msgAt 0 m with mergeStatus := x }) i = m (msgOffset 0 + i) := by
    intro i hi h5
    rw [← MiscVirtABMsg.mem_ofMem m (msgOffset 0) hi]
    exact mem_status_of_ne (msgAt 0 m) x h5
  unfold MiscVirtABMsg.SIZE at hk
  by_cases h5 : k ≤ 5
  · left
    refine MiscVirtABMsg.ofMem_congr fun i hi => ?_
    by_cases hik : i < k
    · exact (Mem.copy_add _ _ _ _ _ _ hik).trans (by rw [Nat.zero_add]; exact hbyte i hi (by omega))
    · exact Mem.copy_out _ _ _ _ _ _ (.inr (by rw [msgOffset_eq, SYSTEM_SPACE_OFFSET_IN_MISC]; omega))
  · right
    refine Eq.trans (MiscVirtABMsg.ofMem_congr fun i hi => ?_) (MiscVirtABMsg.ofMem_mem _)
    rw [Nat.zero_add]
    by_cases hik : i < k
    · exact (Mem.copy_add _ _ _ _ _ _ hik).trans (by rw [Nat.zero_add])
    · rw [hbyte i hi (by omega)]
      exact Mem.copy_out _ _ _ _ _ _ (.inr (by rw [msgOffset_eq, SYSTEM_SPACE_OFFSET_IN_MISC]; omega))

theorem saveVirtualAbMsg_calm :
    Prog.Triple (fun s => (virtMsg s).isValid = true ∧ virtMsg s = v)
      (saveVirtualAbMsg { v with mergeStatus := VIRTUAL_AB_CANCELLED })
      (fun _ s => (virtMsg s).isValid = true) fun _ => False := by
  rintro s ⟨hv, rfl⟩
  have hvalid := isValid_cancelled hv
  unfold saveVirtualAbMsg writeToPart
  rw [hvalid]
  simp only [Bool.not_true, Bool.false_eq_true, if_false]
  have halloc : avbOpsAlloc.run s =
      (some (decide ((s.io s.pos).ret = .ok)), { s with pos := s.pos + 1 }) := rfl
  rw [Prog.run_bind_of_some halloc]
  by_cases hok : (s.io s.pos).ret = .ok
  · simp only [hok, decide_true, Bool.not_true, Bool.false_eq_true, if_false]
    obtain ⟨k, hk⟩ : ∃ k, stored (s.io (s.pos + 1)) MiscVirtABMsg.SIZE = k := ⟨_, rfl⟩
    have hle : k ≤ MiscVirtABMsg.SIZE := by
      rw [← hk, stored]
      split
      · exact le_rfl
      · exact min_le_right _ _
    have hwrite : (writeToPartition SYSTEM_SPACE_OFFSET_IN_MISC MiscVirtABMsg.SIZE
        (MiscVirtABMsg.mem { virtMsg s with mergeStatus := VIRTUAL_AB_CANCELLED })).run
          { s with pos := s.pos + 1 } =
        (some ((s.io (s.pos + 1)).ret, k), { s with
          pos := s.pos + 2
          misc := s.misc.copy SYSTEM_SPACE_OFFSET_IN_MISC
            (MiscVirtABMsg.mem { virtMsg s with mergeStatus := VIRTUAL_AB_CANCELLED }) 0 k }) := by
      rw [← hk]
      rfl
    rw [Prog.run_bind_of_some hwrite]
    change (msgAt 0 (s.misc.copy _ _ 0 k)).isValid = true
    rcases msgAt_copy_status s.misc VIRTUAL_AB_CANCELLED hle with h | h
    · exact (congrArg MiscVirtABMsg.isValid h).trans hv
    · exact (congrArg MiscVirtABMsg.isValid h).trans hvalid
  · simp only [hok, decide_false, Bool.not_false, if_true]
    exact hv

section Load

variable (load : Prog State (IoResult × AvbABData × AvbABData))

/-- A valid message is loaded without a call of `load_metadata`. -/
theorem loadVirtualAbMsgWith_calm :
    Prog.Triple (fun s => (virtMsg s).isValid = true) (loadVirtualAbMsgWith load)
      (fun r s => (virtMsg s).isValid = true ∧ ∀ v, r = some v → virtMsg s = v) fun _ => False := by
  intro s hv
  unfold loadVirtualAbMsgWith
  have halloc : avbOpsAlloc.run s =
      (some (decide ((s.io s.pos).ret = .ok)), { s with pos := s.pos + 1 }) := rfl
  by_cases hok : (s.io s.pos).ret = .ok
  · obtain ⟨k, hk⟩ : ∃ k, min (s.io (s.pos + 1)).moved MiscVirtABMsg.SIZE = k := ⟨_, rfl⟩
    have hread : (readFromPart MiscVirtABMsg.SIZE SYSTEM_SPACE_OFFSET_IN_MISC).run s =
        (some (decide ((s.io (s.pos + 1)).ret = .ok), k,
          Mem.copy (fun _ => 0) 0 s.misc SYSTEM_SPACE_OFFSET_IN_MISC k),
          { s with pos := s.pos + 2 }) := by
      unfold readFromPart
      rw [Prog.run_bind_of_some halloc]
      simp only [hok, decide_true, Bool.not_true, Bool.false_eq_true, if_false]
      rw [← hk]
      rfl
    rw [Prog.run_bind_of_some hread]
    by_cases hfull : (s.io (s.pos + 1)).ret = .ok ∧ k = MiscVirtABMsg.SIZE
    · obtain ⟨hret, rfl⟩ := hfull
      simp only [hret, decide_true, Bool.not_true, Bool.false_eq_true, ne_eq, not_true_eq_false,
        or_self, if_false, ofMem_readMsg, show (msgAt 0 s.misc).isValid = true from hv]
      exact ⟨hv, fun v h => Option.some.inj h⟩
    · have hshort : (!decide ((s.io (s.pos + 1)).ret = .ok)) = true ∨ k ≠ MiscVirtABMsg.SIZE := by
        rw [Bool.not_eq_true', decide_eq_false_iff_not]
        exact Decidable.not_and_iff_or_not.mp hfull
      simp only [if_pos hshort]
      exact ⟨hv, fun v h => by cases h⟩
  · have hread : (readFromPart MiscVirtABMsg.SIZE SYSTEM_SPACE_OFFSET_IN_MISC).run s =
        (some (false, 0, fun _ => 0), { s with pos := s.pos + 1 }) := by
      unfold readFromPart
      rw [Prog.run_bind_of_some halloc]
      simp only [hok, decide_false, Bool.not_false, if_true]
      rfl
    rw [Prog.run_bind_of_some hread]
    simp only [Bool.not_false, true_or, if_true]
    exact ⟨hv, fun v h => by cases h⟩

theorem slotNormalizeWith_calm (d : AvbABData) (c : Slot) :
    Prog.Triple (Calm d) (slotNormalizeWith load (d.slots c) c) (fun _ => Calm d)
      fun _ => False := by
  unfold slotNormalizeWith
  refine .ite (fun hx => ?_) fun _ => fun _ h => h
  have hpre : ∀ s, Calm d s → (virtMsg s).isValid = true := by
    rintro s (h | h)
    · rw [h c] at hx
      cases hx
    · exact h
  refine Prog.Triple.bind ((loadVirtualAbMsgWith_calm load).conseq hpre (fun _ _ h => h) fun _ h => h)
    fun r => ?_
  cases r with
  | none => exact fun _ h => .inr h.1
  | some v =>
    refine .ite (fun _ => Prog.Triple.bind (R := fun _ s => (virtMsg s).isValid = true) ?_ ?_)
      fun _ _ h => .inr h.1
    · exact saveVirtualAbMsg_calm.conseq (fun s h => ⟨h.1, h.2 v rfl⟩) (fun _ _ h => h) fun _ h => h
    · exact fun _ _ h => .inr h

theorem total_loadMetadataWith (a o : AvbABData) :
    Prog.Total (fun s => ¬ Recurses s.misc) (loadMetadataWith load a o) := by
  unfold loadMetadataWith
  refine Prog.Triple.bind (avbAbDataRead_calm a) fun r => ?_
  refine .ite (fun _ _ _ => trivial) fun hr => ?_
  have hcalm : Prog.Triple (fun s => r.1 = .ok → Calm r.2 s) (slotNormalizeWith load (r.2.slots 0) 0)
      (fun _ => Calm r.2) fun _ => False :=
    (slotNormalizeWith_calm load r.2 0).conseq (fun _ h => h (not_not.mp hr)) (fun _ _ h => h)
      fun _ h => h
  refine Prog.Triple.bind hcalm fun _ => Prog.Triple.bind (slotNormalizeWith_calm load r.2 1) ?_
  exact fun _ _ _ => trivial

end Load

/-! ## Contents that need not return -/

/-- Accesses by which the recursion goes on for ever: at each level the block, the allocation,
the message and the allocation before the second read of the block succeed; that read fails,
or it finds no slot to boot. -/
structure LoopIo (m : Mem) (s : State) : Prop where
  misc : s.misc = m
  ok : ∀ n, n % 5 ≠ 4 → s.io (s.pos + n) = whole
  last : (∀ n, n % 5 = 4 → (s.io (s.pos + n)).ret ≠ .ok) ∨
    ((∀ n, s.io n = whole) ∧ ∀ c, ((dataAt 0 m).slots c).isBootable = false)

theorem LoopIo.next (h : LoopIo m s) (hm : t.misc = s.misc) (hio : t.io = s.io)
    (hpos : t.pos = s.pos + 5) : LoopIo m t := by
  have hmod : ∀ n, (5 + n) % 5 = n % 5 := fun n => by omega
  refine ⟨hm.trans h.misc, fun n hn => ?_, h.last.imp (fun hf n hn => ?_) fun ⟨ha, hb⟩ => ?_⟩
  · rw [hio, hpos, Nat.add_assoc]
    exact h.ok _ (by rwa [hmod])
  · rw [hio, hpos, Nat.add_assoc]
    exact hf _ (by rwa [hmod])
  · exact ⟨fun n => by rw [hio]; exact ha n, hb⟩

theorem fullRead_of_whole (h : s.io s.pos = whole) : FullRead s := by
  rw [FullRead, h]
  decide

theorem run_readFromPart_of_whole (h0 : s.io s.pos = whole) (h1 : s.io (s.pos + 1) = whole) :
    (readFromPart MiscVirtABMsg.SIZE SYSTEM_SPACE_OFFSET_IN_MISC).run s =
      (some (true, MiscVirtABMsg.SIZE,
        Mem.copy (fun _ => 0) 0 s.misc SYSTEM_SPACE_OFFSET_IN_MISC MiscVirtABMsg.SIZE),
        { s with pos := s.pos + 2 }) := by
  have halloc : avbOpsAlloc.run s = (some true, { s with pos := s.pos + 1 }) := by
    unfold avbOpsAlloc
    rw [Prog.run_bind_of_some (run_access s), h0]
    rfl
  have hread : (readFromPartition SYSTEM_SPACE_OFFSET_IN_MISC MiscVirtABMsg.SIZE).run
      { s with pos := s.pos + 1 } = (some (.ok, MiscVirtABMsg.SIZE,
        Mem.copy (fun _ => 0) 0 s.misc SYSTEM_SPACE_OFFSET_IN_MISC MiscVirtABMsg.SIZE),
        { s with pos := s.pos + 2 }) := by
    unfold readFromPartition
    rw [Prog.run_bind_of_some (run_access _), h1]
    rfl
  unfold readFromPart
  rw [Prog.run_bind_of_some halloc]
  simp only [Bool.not_true, Bool.false_eq_true, if_false]
  rw [Prog.run_bind_of_some hread]
  rfl

section Loop

variable {load : Prog State (IoResult × AvbABData × AvbABData)}

/-- The index of the slot is asked for, and ends in a load. -/
theorem avbGetSlotIndexWith_loops (hm : Recurses m) (h : LoopIo m s)
    (hload : ∀ t, LoopIo m t → (load.run t).1 = none) (ht : t.misc = s.misc) (hio : t.io = s.io)
    (hpos : t.pos = s.pos + 3) : ((avbGetSlotIndexWith load).run t).1 = none := by
  have halloc : avbOpsAlloc.run t = (some true, { t with pos := t.pos + 1 }) := by
    unfold avbOpsAlloc
    rw [Prog.run_bind_of_some (run_access t), hio, hpos, h.ok 3 (by decide)]
    rfl
  have hmark : ∀ u, LoopIo m u → ((do
      let _ ← avbAbMarkSlotActiveWith load 0
      return 0 : Prog State UInt8).run u).1 = none := by
    intro u hu
    refine Prog.run_bind_fst_of_none ?_ _
    unfold avbAbMarkSlotActiveWith
    exact Prog.run_bind_fst_of_none (hload u hu) _
  have hdata : abData { t with pos := t.pos + 1 } = dataAt 0 m := by rw [abData, ht, h.misc]
  unfold avbGetSlotIndexWith
  rw [Prog.run_bind_of_some halloc]
  simp only [Bool.not_true, Bool.false_eq_true, if_false]
  by_cases hfull : FullRead { t with pos := t.pos + 1 }
  · rcases h.last with hfail | ⟨-, hnone⟩
    · refine absurd hfull.1 ?_
      simp only [hio, hpos]
      exact hfail 4 rfl
    · have hread := run_avbAbDataRead_of_full hfull unused
      rw [hdata, if_pos hm.1] at hread
      have hslot : avbGetBootableSlot (dataAt 0 m).hostOrder = none :=
        avbGetBootableSlot_eq_none.mpr hnone
      rw [Prog.run_bind_of_some hread]
      simp only [if_true, hslot]
      exact hmark _ (h.next ht hio (by simp only [afterRead, hpos]))
  · rw [Prog.run_bind_of_some (run_avbAbDataRead_of_not_full hfull unused)]
    simp only [if_neg (readError_ne_ok _)]
    exact hmark _ (h.next ht hio (by simp only [hpos]))

theorem slotNormalizeWith_loops (hm : Recurses m) (h : LoopIo m s)
    (hload : ∀ t, LoopIo m t → (load.run t).1 = none) {x : AvbABSlotData}
    (hx : x.exhausted = true) (c : Slot) :
    ((slotNormalizeWith load x c).run (afterRead s)).1 = none := by
  have hread := run_readFromPart_of_whole (s := afterRead s) (h.ok 1 (by decide)) (h.ok 2 (by decide))
  have hmsg : (msgAt 0 (afterRead s).misc).isValid = false := by
    change (msgAt 0 s.misc).isValid = false
    rw [h.misc]
    exact hm.2.2
  unfold slotNormalizeWith
  rw [if_pos hx]
  refine Prog.run_bind_fst_of_none ?_ _
  unfold loadVirtualAbMsgWith
  rw [Prog.run_bind_of_some hread]
  simp only [Bool.not_true, Bool.false_eq_true, ne_eq, not_true_eq_false, or_self, if_false,
    ofMem_readMsg, hmsg, Bool.not_false, if_true]
  refine Prog.run_bind_fst_of_none ?_ _
  unfold initVirtualAbMsgWith
  refine Prog.run_bind_fst_of_none ?_ _
  exact avbGetSlotIndexWith_loops hm h hload rfl rfl rfl

end Loop

/-- At no depth does the recursion return. -/
theorem loadMetadata_loops (hm : Recurses m) (depth : ℕ) (h : LoopIo m s) (a o : AvbABData) :
    ((loadMetadata depth a o).run s).1 = none := by
  induction depth generalizing s a o with
  | zero => rfl
  | succ depth ih =>
    have hdata : abData s = dataAt 0 m := by rw [abData, h.misc]
    have hread := run_avbAbDataRead_of_full (fullRead_of_whole (h.ok 0 (by decide))) a
    rw [hdata, if_pos hm.1] at hread
    have hslot : ∀ c, ((dataAt 0 m).slots c).exhausted = true →
        ((slotNormalizeWith (loadMetadata depth unused unused) ((dataAt 0 m).slots c) c).run
          (afterRead s)).1 = none :=
      fun c hx => slotNormalizeWith_loops hm h (fun t ht => ih ht unused unused) hx c
    unfold loadMetadata loadMetadataWith
    rw [Prog.run_bind_of_some hread]
    simp only [ne_eq, not_true_eq_false, if_false, AvbABData.slots_hostOrder]
    by_cases h0 : ((dataAt 0 m).slots 0).exhausted = true
    · exact Prog.run_bind_fst_of_none (hslot 0 h0) _
    · have h1 : ((dataAt 0 m).slots 1).exhausted = true := by
        obtain ⟨c, hc⟩ := hm.2.1
        rcases c.eq_zero_or_one with rfl | rfl
        · exact absurd hc h0
        · exact hc
      have hA : (slotNormalizeWith (loadMetadata depth unused unused) ((dataAt 0 m).slots 0) 0).run
          (afterRead s) = (some (normalizeSlot ((dataAt 0 m).slots 0)), afterRead s) := by
        unfold slotNormalizeWith
        rw [if_neg h0]
        rfl
      rw [Prog.run_bind_of_some hA]
      exact Prog.run_bind_fst_of_none (hslot 1 h1) _

/-! ## Callers -/

/-- The functions that load the metadata. -/
inductive Caller where
  | loadMetadata (abData abDataOrig : AvbABData)
  | getMetadata (abData : AvbABData)
  | op (op : Op)

def Caller.prog (depth : ℕ) : Caller → Prog State Unit
  | .loadMetadata a o => do let _ ← UBoot.loadMetadata depth a o
  | .getMetadata a => do let _ ← avbAbGetMetadata depth a
  | .op f => f.prog depth

/-- A load that is followed by what always returns. -/
structure LoadsFirst (x : ℕ → Prog State Unit) : Prop where
  split : ∃ (a o : AvbABData) (k : IoResult × AvbABData × AvbABData → Prog State Unit),
    (∀ depth, x depth = loadMetadata depth a o >>= k) ∧ ∀ r, Prog.Total (fun _ => True) (k r)

theorem loadsFirst_edit (f : AvbABData → AvbABData) :
    LoadsFirst fun depth => (do
      let _ ← (do
        let (ret, abData, abDataOrig) ← loadMetadata depth unused unused
        if ret ≠ .ok then
          return ret
        saveMetadataIfChanged (f abData) abDataOrig : Prog State IoResult)) := by
  refine ⟨unused, unused, _, fun depth => Prog.bind_assoc _ _ _, fun r => ?_⟩
  refine Prog.Total.bind (.ite (fun _ _ _ => trivial) fun _ => ?_) fun _ => .pure _
  exact total_saveMetadataIfChanged _ _

theorem loadsFirst_flow (v : Verifier) (a o : AvbABData) :
    LoadsFirst fun depth => (do let _ ← avbAbFlow depth v a o) := by
  refine ⟨a, o, _, fun depth => Prog.bind_assoc _ _ _, fun r => ?_⟩
  refine Prog.Total.bind ?_ fun _ => .pure _
  obtain ⟨ioRet, d, orig⟩ := r
  simp only
  cases ioError ioRet with
  | some ret => exact total_out _ _ _ _
  | none =>
    simp only
    rcases validateSlot v 0 ⟨d, fun _ => none, false⟩ with ⟨_ | ret, l⟩
    · simp only
      rcases validateSlot v 1 l with ⟨_ | ret, l'⟩
      · exact total_selectSlot _ _
      · exact total_out _ _ _ _
    · exact total_out _ _ _ _

theorem Caller.loadsFirst (c : Caller) : LoadsFirst fun depth => c.prog depth := by
  cases c with
  | loadMetadata a o => exact ⟨a, o, _, fun _ => rfl, fun _ => .pure _⟩
  | getMetadata a =>
    exact ⟨a, unused, _, fun _ => Prog.bind_assoc _ _ _, fun _ => Prog.Total.bind (.pure _) fun _ => .pure _⟩
  | op op =>
    cases op with
    | markSlotActive c => exact loadsFirst_edit (markActive · c)
    | markSlotUnbootable c => exact loadsFirst_edit fun d => d.setSlot c (d.slots c).setUnbootable
    | markSlotSuccessful c => exact loadsFirst_edit (markSuccessful · c)
    | flow v a o => exact loadsFirst_flow v a o

/-- The recursion ends: at some depth the call returns. -/
def Returns (c : Caller) (s : State) : Prop := ∃ depth r s', (c.prog depth).run s = (some r, s')

/-- `load_metadata` and its callers return under every pattern of failures, from a given content
of `misc`, unless the block is valid, has a slot whose tries are used up, and the message is
not valid. -/
theorem returns_iff (m : Mem) (c : Caller) :
    (∀ s : State, s.misc = m → Returns c s) ↔ ¬ Recurses m := by
  obtain ⟨a, o, k, hsplit, hk⟩ := c.loadsFirst.split
  constructor
  · intro hall hm
    obtain ⟨depth, r, s', hrun⟩ := hall { newDevice with
      misc := m
      io := fun n => if n % 5 = 4 then ⟨.errorIo, 0⟩ else whole } rfl
    rw [hsplit] at hrun
    have hnone := Prog.run_bind_fst_of_none (loadMetadata_loops hm depth (s := { newDevice with
      misc := m
      io := fun n => if n % 5 = 4 then ⟨.errorIo, 0⟩ else whole }) ?_ a o) k
    · rw [hrun] at hnone
      cases hnone
    · refine ⟨rfl, fun n hn => ?_, .inl fun n hn => ?_⟩
      · simp only [newDevice, device, Nat.zero_add, if_neg hn]
      · simp only [newDevice, device, Nat.zero_add, if_pos hn]
        decide
  · intro hm s hs
    refine ⟨1, ?_⟩
    rw [hsplit]
    exact ((total_loadMetadataWith (loadMetadata 0 unused unused) a o).bind hk).returns
      (by rwa [hs])

/-- Slot A is used up, slot B is not bootable, and the message is blank: every access succeeds,
and the flow does not return. -/
theorem load_does_not_return :
    ¬ Returns (.loadMetadata unused unused)
      (device (blockOf ⟨15, 0, 0, 0⟩ ⟨0, 0, 0, 0⟩) ⟨0, 0, 0, 0, fun _ => 0⟩ fun _ => whole) := by
  rintro ⟨depth, r, s', hrun⟩
  have hdata : dataAt 0 (device (blockOf ⟨15, 0, 0, 0⟩ ⟨0, 0, 0, 0⟩) ⟨0, 0, 0, 0, fun _ => 0⟩
      fun _ => whole).misc = blockOf ⟨15, 0, 0, 0⟩ ⟨0, 0, 0, 0⟩ := abData_device _ _ _
  have hm : Recurses (device (blockOf ⟨15, 0, 0, 0⟩ ⟨0, 0, 0, 0⟩) ⟨0, 0, 0, 0, fun _ => 0⟩
      fun _ => whole).misc := by
    refine ⟨?_, ⟨AVB_AB_SLOT_A, ?_⟩, ?_⟩
    · rw [hdata]
      exact valid_blockOf _ _
    · rw [hdata]
      rfl
    · rw [show msgAt 0 _ = ⟨0, 0, 0, 0, fun _ => 0⟩ from virtMsg_device _ _ _]
      rfl
  have hnone := Prog.run_bind_fst_of_none (loadMetadata_loops hm depth (s := device
    (blockOf ⟨15, 0, 0, 0⟩ ⟨0, 0, 0, 0⟩) ⟨0, 0, 0, 0, fun _ => 0⟩ fun _ => whole)
    ⟨rfl, fun _ _ => rfl, .inr ⟨fun _ => rfl, ?_⟩⟩ unused unused)
    (fun _ => (return () : Prog State Unit))
  · rw [Caller.prog] at hrun
    rw [hrun] at hnone
    cases hnone
  · rw [hdata, slots_blockOf]
    decide

end RCar.UBoot
