import RCarM3N.Proofs.UBootMisc

/-! Loading and normalising the metadata in U-Boot. The normalised slots do not depend on the
message; the message decides whether the load returns. -/

namespace RCar.UBoot

variable {s s' t : State} {d : AvbABData} {v : MiscVirtABMsg} {depth : ℕ} {x : AvbABSlotData}

/-! ## Slots -/

theorem normalizeSlot_of_isBootable (hl : ¬ (0 < x.triesRemaining ∧ x.successfulBoot ≠ 0))
    (hb : x.isBootable = true) : normalizeSlot x = x := by
  obtain ⟨hp, hs | ht⟩ := x.isBootable_iff.mp hb
  · rw [normalizeSlot, if_pos hp, if_neg fun h => hs h.2, if_neg hl]
  · rw [normalizeSlot, if_pos hp, if_neg fun h => absurd h.1 (UInt8.pos_iff_ne_zero.mp ht), if_neg hl]

theorem normalizeSlot_of_illegal (h : 0 < x.triesRemaining ∧ x.successfulBoot ≠ 0) :
    normalizeSlot x = x.setUnbootable := by
  unfold normalizeSlot
  rw [if_pos h, ite_self, ite_self]

theorem normalizeSlot_of_not_isBootable (hb : x.isBootable = false) :
    normalizeSlot x = x.setUnbootable := by
  unfold normalizeSlot
  split
  · rename_i hp
    have hboot : ¬ (x.successfulBoot ≠ 0 ∨ 0 < x.triesRemaining) := by
      intro h
      rw [x.isBootable_iff.mpr ⟨hp, h⟩] at hb
      cases hb
    obtain ⟨hs, ht⟩ := not_or.mp hboot
    rw [if_pos ⟨UInt8.not_lt.mp ht |> UInt8.le_zero_iff.mp, not_not.mp hs⟩]
  · rfl

theorem normalizeSlot_of_exhausted (h : x.exhausted = true) : normalizeSlot x = x.setUnbootable :=
  normalizeSlot_of_not_isBootable (AvbABSlotData.not_isBootable_of_exhausted h)

/-- A normalised slot is as it was or zeroed. -/
theorem normalizeSlot_eq_or (x : AvbABSlotData) :
    normalizeSlot x = x ∨ normalizeSlot x = x.setUnbootable := by
  unfold normalizeSlot
  split_ifs <;> simp

theorem isBootable_normalizeSlot (x : AvbABSlotData) :
    (normalizeSlot x).isBootable = true ↔
      x.isBootable = true ∧ ¬ (0 < x.triesRemaining ∧ x.successfulBoot ≠ 0) := by
  by_cases hl : 0 < x.triesRemaining ∧ x.successfulBoot ≠ 0
  · simp [normalizeSlot_of_illegal hl, hl]
  · cases hb : x.isBootable
    · simp [normalizeSlot_of_not_isBootable hb]
    · simp only [normalizeSlot_of_isBootable hl hb, hb, true_and, true_iff]
      exact hl

/-- Both slots normalised. -/
def normalize (d : AvbABData) : AvbABData :=
  (d.setSlot 0 (normalizeSlot (d.slots 0))).setSlot 1 (normalizeSlot (d.slots 1))

@[simp] theorem slots_normalize (d : AvbABData) (c : Slot) :
    (normalize d).slots c = normalizeSlot (d.slots c) := by
  rcases c.eq_zero_or_one with rfl | rfl
  · rw [normalize, AvbABData.slots_setSlot_ne _ _ (by decide), AvbABData.slots_setSlot_same]
  · rw [normalize, AvbABData.slots_setSlot_same]

theorem isBootable_of_avbGetBootableSlot {c : Slot} (hc : avbGetBootableSlot d = some c) :
    (d.slots c).isBootable = true := by
  simp only [avbGetBootableSlot] at hc
  cases ha : (d.slots 0).isBootable <;> cases hb : (d.slots 1).isBootable <;>
    simp only [ha, hb, Bool.and_true, Bool.and_false, Bool.false_eq_true, if_true, if_false] at hc
  · cases hc
  · cases hc
    exact hb
  · cases hc
    exact ha
  · split at hc <;> cases hc
    · exact hb
    · exact ha

theorem avbGetBootableSlot_eq_none :
    avbGetBootableSlot d = none ↔ ∀ c, (d.slots c).isBootable = false := by
  rw [Fin.forall_fin_two]
  simp only [avbGetBootableSlot]
  cases (d.slots 0).isBootable <;> cases (d.slots 1).isBootable <;> simp
  split <;> simp

/-! ## Values -/

/-- The message has no say in what becomes of a slot. -/
theorem slotNormalizeWith_value (load : Prog State (IoResult × AvbABData × AvbABData))
    (x : AvbABSlotData) (idx : Slot) :
    Prog.Triple (fun _ => True) (slotNormalizeWith load x idx) (fun y _ => y = normalizeSlot x)
      fun _ => True := by
  unfold slotNormalizeWith
  refine .ite (fun hx => ?_) fun _ => fun _ _ => rfl
  rw [normalizeSlot_of_exhausted hx]
  refine .bind (.top _) fun msg => ?_
  cases msg with
  | none => exact fun _ _ => rfl
  | some m => exact .ite (fun _ => .bind (.top _) fun _ _ _ => rfl) fun _ _ _ => rfl

/-- Metadata that is loaded is normalised metadata. -/
theorem loadMetadataWith_value (load : Prog State (IoResult × AvbABData × AvbABData))
    (a o : AvbABData) :
    Prog.Triple (fun _ => True) (loadMetadataWith load a o)
      (fun r _ => r.1 = .ok → r.2.1 = normalize r.2.2) fun _ => True := by
  unfold loadMetadataWith
  refine .bind (.top _) fun r => ?_
  refine .ite (fun hr _ _ h => absurd h hr) fun _ => ?_
  refine .bind (slotNormalizeWith_value _ _ _) fun x => .bind (R := fun y _ =>
    x = normalizeSlot (r.2.slots 0) ∧ y = normalizeSlot (r.2.slots 1)) ?_ fun y => ?_
  · intro t hx
    have hy := slotNormalizeWith_value load (r.2.slots 1) 1 t trivial
    revert hy
    rcases (slotNormalizeWith load (r.2.slots 1) 1).run t with ⟨_ | y, u⟩
    · exact fun _ => trivial
    · exact fun hy => ⟨hx, hy⟩
  · rintro t ⟨rfl, rfl⟩ -
    rfl

theorem loadMetadata_value (depth : ℕ) (a o : AvbABData) :
    Prog.Triple (fun _ => True) (loadMetadata depth a o)
      (fun r _ => r.1 = .ok → r.2.1 = normalize r.2.2) fun _ => True := by
  cases depth with
  | zero => exact fun _ _ => trivial
  | succ depth => exact loadMetadataWith_value _ a o

/-! ## Runs in which every access succeeds -/

/-- The message is valid, or it can be initialised because a slot boots. -/
def Settles (d : AvbABData) (v : MiscVirtABMsg) : Prop :=
  v.isValid = true ∨ ∃ c, (d.slots c).isBootable = true

section Load

variable (load : Prog State (IoResult × AvbABData × AvbABData))

theorem run_avbGetSlotIndexWith (h : AllOk s) (hd : (abData s).Valid)
    (hb : ∃ c, ((abData s).slots c).isBootable = true) :
    ∃ (c : Slot) (s' : State), (avbGetSlotIndexWith load).run s = (some (UInt8.ofNat c), s') ∧
      Disk s s' (abData s) (virtMsg s) := by
  have halloc : Disk s { s with pos := s.pos + 1 } (abData s) (virtMsg s) := .of_eq rfl rfl
  obtain ⟨s', hread, hs'⟩ := run_avbAbDataRead (h.of_disk halloc) unused
  obtain ⟨c, hc⟩ : ∃ c, avbGetBootableSlot (decoded (abData s)) = some c := by
    rw [← Option.ne_none_iff_exists', Ne, avbGetBootableSlot_eq_none]
    intro hnone
    obtain ⟨c, hb⟩ := hb
    rw [← loaded_of_valid hd, ← slots_decoded, hnone c] at hb
    cases hb
  have hdisk := halloc.trans hs'
  rw [halloc.abData_eq, halloc.virtMsg_eq, loaded_of_valid hd] at hdisk
  refine ⟨c, s', ?_, hdisk⟩
  unfold avbGetSlotIndexWith
  rw [Prog.run_bind_of_some (run_avbOpsAlloc h)]
  simp only [Bool.not_true, Bool.false_eq_true, if_false]
  rw [Prog.run_bind_of_some hread, halloc.abData_eq]
  simp only [if_true, hc]
  rfl

theorem isValid_init (v : MiscVirtABMsg) (c : Slot) :
    MiscVirtABMsg.isValid { v with
      magic := MISC_VIRTUAL_AB_MAGIC_HEADER
      version := MAX_VIRTUAL_AB_MESSAGE_VERSION
      mergeStatus := VIRTUAL_AB_NONE
      sourceSlot := UInt8.ofNat c } = true := by
  rcases c.eq_zero_or_one with rfl | rfl <;> rfl

theorem run_loadVirtualAbMsgWith (h : AllOk s) (hd : (abData s).Valid)
    (hm : Settles (abData s) (virtMsg s)) :
    ∃ v s', (loadVirtualAbMsgWith load).run s = (some (some v), s') ∧ v.isValid = true ∧
      Disk s s' (abData s) v := by
  have hread := run_readFromPart h SYSTEM_SPACE_OFFSET_IN_MISC (n := MiscVirtABMsg.SIZE) le_rfl
  have hdisk : Disk s { s with pos := s.pos + 2 } (abData s) (virtMsg s) := .of_eq rfl rfl
  unfold loadVirtualAbMsgWith
  rw [Prog.run_bind_of_some hread]
  simp only [Bool.not_true, Bool.false_eq_true, ne_eq, not_true_eq_false, or_self, if_false,
    ofMem_readMsg]
  cases hv : (virtMsg s).isValid
  · obtain ⟨c, t, hidx, ht⟩ := run_avbGetSlotIndexWith load (h.of_disk hdisk)
      (by rwa [hdisk.abData_eq])
      (by rw [hdisk.abData_eq]; exact hm.resolve_left (by rw [hv]; exact Bool.false_ne_true))
    obtain ⟨s', hsave, hs'⟩ := run_saveVirtualAbMsg ((h.of_disk hdisk).of_disk ht)
      (isValid_init (virtMsg s) c)
    refine ⟨_, s', ?_, isValid_init (virtMsg s) c, ?_⟩
    · rw [show (msgAt 0 s.misc).isValid = false from hv]
      simp only [Bool.not_false, if_true]
      unfold initVirtualAbMsgWith
      rw [Prog.run_bind_of_some (Prog.run_bind_of_some hidx _)]
      exact Prog.run_bind_of_some hsave _
    · have := (hdisk.trans ht).trans hs'
      rwa [ht.abData_eq, hdisk.abData_eq] at this
  · refine ⟨virtMsg s, { s with pos := s.pos + 2 }, ?_, hv, hdisk⟩
    rw [show (msgAt 0 s.misc).isValid = true from hv]
    rfl

theorem isValid_cancelled (hv : v.isValid = true) :
    MiscVirtABMsg.isValid { v with mergeStatus := VIRTUAL_AB_CANCELLED } = true := by
  simp only [MiscVirtABMsg.isValid, Bool.and_eq_true, decide_eq_true_eq] at hv ⊢
  exact ⟨⟨hv.1.1, by decide⟩, hv.2⟩

theorem run_slotNormalizeWith (h : AllOk s) (hd : (abData s).Valid) (x : AvbABSlotData) (c : Slot)
    (hm : x.exhausted = true → Settles (abData s) (virtMsg s)) :
    ∃ v s', (slotNormalizeWith load x c).run s = (some (normalizeSlot x), s') ∧
      (v.isValid = true ∨ v = virtMsg s) ∧ Disk s s' (abData s) v := by
  unfold slotNormalizeWith
  by_cases hx : x.exhausted = true
  · obtain ⟨v, t, hload, hv, ht⟩ := run_loadVirtualAbMsgWith load h hd (hm hx)
    rw [if_pos hx, Prog.run_bind_of_some hload, normalizeSlot_of_exhausted hx]
    by_cases hcancel : v.mergeStatus = VIRTUAL_AB_SNAPSHOTED ∧ v.sourceSlot.toNat ≠ c
    · obtain ⟨s', hsave, hs'⟩ := run_saveVirtualAbMsg (h.of_disk ht) (isValid_cancelled hv)
      refine ⟨_, s', ?_, .inl (isValid_cancelled hv), ht.trans_msg hs'⟩
      simp only [if_pos hcancel]
      exact Prog.run_bind_of_some hsave _
    · refine ⟨v, t, ?_, .inl hv, ht⟩
      simp only [if_neg hcancel]
      rfl
  · rw [if_neg hx]
    exact ⟨virtMsg s, s, rfl, .inr rfl, Disk.refl s⟩

end Load

/-- A load returns when every access succeeds and no slot is used up that the message does not
settle. -/
theorem run_loadMetadata (h : AllOk s) (depth : ℕ) (a o : AvbABData)
    (hm : (∃ c, ((loaded (abData s)).slots c).exhausted = true) →
      Settles (loaded (abData s)) (virtMsg s)) :
    ∃ v s', (loadMetadata (depth + 1) a o).run s =
        (some (.ok, normalize (decoded (abData s)), decoded (abData s)), s') ∧
      (v.isValid = true ∨ v = virtMsg s) ∧ Disk s s' (loaded (abData s)) v := by
  obtain ⟨t, hread, ht⟩ := run_avbAbDataRead h a
  have hok := h.of_disk ht
  have hdata : abData t = loaded (abData s) := ht.abData_eq
  have hvalid : (abData t).Valid := hdata ▸ valid_loaded _
  obtain ⟨v0, t0, hA, hv0, ht0⟩ := run_slotNormalizeWith (loadMetadata depth unused unused) hok hvalid
    ((decoded (abData s)).slots 0) 0 fun hx => by
      rw [hdata, ht.virtMsg_eq]
      exact hm ⟨0, by rwa [slots_decoded] at hx⟩
  have hdata0 : abData t0 = loaded (abData s) := ht0.abData_eq.trans hdata
  obtain ⟨v1, t1, hB, hv1, ht1⟩ := run_slotNormalizeWith (loadMetadata depth unused unused)
    (hok.of_disk ht0) (hdata0 ▸ valid_loaded _) ((decoded (abData s)).slots 1) 1 fun hx => by
      rw [hdata0, ht0.virtMsg_eq]
      rcases hv0 with hv0 | rfl
      · exact .inl hv0
      · rw [ht.virtMsg_eq]
        exact hm ⟨1, by rwa [slots_decoded] at hx⟩
  refine ⟨v1, t1, ?_, ?_, ?_⟩
  · unfold loadMetadata loadMetadataWith
    rw [Prog.run_bind_of_some hread]
    simp only [ne_eq, not_true_eq_false, if_false]
    rw [Prog.run_bind_of_some hA, Prog.run_bind_of_some hB]
    rfl
  · rcases hv1 with hv1 | rfl
    · exact .inl hv1
    · rw [ht0.virtMsg_eq]
      rcases hv0 with hv0 | rfl
      · exact .inl hv0
      · exact .inr ht.virtMsg_eq
  · have := (ht.trans ht0).trans ht1
    rwa [hdata0] at this

end RCar.UBoot
