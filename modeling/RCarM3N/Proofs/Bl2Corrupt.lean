import RCarM3N.Proofs.Gpt

/-! What a call of the flow of BL2 leaves behind when the check of an IPL fails: whether the
slot stays zeroed on the card, and whether an update of it is cancelled. -/

namespace RCar

/-- The three fields that `setUnbootable` clears. -/
def AvbABSlotData.Zeroed (x : AvbABSlotData) : Prop :=
  x.priority = 0 ∧ x.triesRemaining = 0 ∧ x.successfulBoot = 0

instance (x : AvbABSlotData) : Decidable x.Zeroed := inferInstanceAs (Decidable (_ ∧ _ ∧ _))

theorem AvbABSlotData.zeroed_setUnbootable (x : AvbABSlotData) : x.setUnbootable.Zeroed :=
  ⟨rfl, rfl, rfl⟩

theorem AvbABSlotData.Zeroed.setUnbootable_eq {x : AvbABSlotData} (h : x.Zeroed) :
    x.setUnbootable = x := by
  obtain ⟨p, t, s, r⟩ := x
  obtain ⟨hp, ht, hs⟩ := h
  simp only at hp ht hs
  rw [hp, ht, hs]
  rfl

namespace Bl2

variable {b : ℕ} {s s' t : State} {d : AvbABData} {rc : Slot → ℤ} {r : FlowResult}

/-- A call with known results of its checks. -/
theorem flow_spec (h : Ready b s) (hc : IplResults s rc t) (hr : avbAbFlow.run s = (some r, s')) :
    r = bootResult (decision b s rc) ∧
      Disk b s s' (bootData (loaded (abData b s)) (decision b s rc))
        (flowMsg (decision b s rc) (virtMsg b s)) ∧
      ∀ c, currSlot (decision b s rc) = some c → Reports s' c := by
  obtain ⟨s'', hrun, hd, hrep⟩ := run_avbAbFlow h hc
  rw [hr] at hrun
  cases hrun
  exact ⟨rfl, hd, hrep⟩

theorem currSlot_isSome_of_ok (hr : FlowResult.ok = bootResult d) : ∃ c, currSlot d = some c := by
  rcases hc : currSlot d with _ | c
  · rw [bootResult, hc] at hr
    cases hr
  · exact ⟨c, rfl⟩

theorem Reports.unique {c c' : Slot} (h : Reports s c) (h' : Reports s c') : c = c' := by
  have heq := h.bootPartition.symm.trans h'.bootPartition
  clear h h'
  revert c c'
  decide

theorem intact_of_currSlot {c : Slot} (hc : currSlot (marked rc d) = some c) :
    rc c = 0 ∧ (marked rc d).slots c = d.slots c ∧ (d.slots c).isBootable = true := by
  have hboot := isBootable_of_currSlot hc
  rw [slots_marked] at hboot ⊢
  by_cases h : rc c = 0
  · rw [if_neg (not_not.mpr h)] at hboot ⊢
    exact ⟨h, rfl, hboot⟩
  · rw [if_pos h] at hboot
    cases hboot

/-! ## Corrupted slots -/

/-- The block in memory when a flow that chooses in `d` returns. -/
def finalData (d : AvbABData) : AvbABData :=
  match currSlot d with
  | none => d
  | some c => if (d.slots c).successfulBoot ≠ 0 then d else useTry d c

/-- The card holds the block that is in memory at the return, the corrupted slots zeroed. -/
def MarksStored (b : ℕ) (s s' : State) (rc : Slot → ℤ) : Prop :=
  (∀ c, rc c ≠ 0 → ((abData b s').slots c).Zeroed) ∧
    abData b s' = (finalData (decision b s rc)).sealed

/-- When a slot is reported, a corrupted one is zeroed on the card too exactly if the other
one never booted successfully, or if it has been zero before. -/
theorem marks_stored_iff (h : Ready b s) (hc : IplResults s rc t)
    (hr : avbAbFlow.run s = (some .ok, s')) :
    MarksStored b s s' rc ↔
      ∀ c, rc c ≠ 0 → ((loaded (abData b s)).slots c.other).successfulBoot = 0 ∨
        ((loaded (abData b s)).slots c).Zeroed := by
  obtain ⟨hres, hd, -⟩ := flow_spec h hc hr
  have hvalid := valid_loaded (abData b s)
  have hdata := hd.abData_eq
  obtain ⟨c0, hc0⟩ := currSlot_isSome_of_ok hres
  unfold MarksStored
  unfold decision at hdata hc0 ⊢
  generalize loaded (abData b s) = d at hdata hc0 hvalid ⊢
  obtain ⟨hrc0, hslot, -⟩ := intact_of_currSlot hc0
  have hother : ∀ c, rc c ≠ 0 → c ≠ c0 := fun c hc hcc => hc (hcc ▸ hrc0)
  have hmarked : ∀ c, rc c ≠ 0 → (marked rc d).slots c = (d.slots c).setUnbootable :=
    fun c hc => if_pos hc
  rw [hdata, bootData, finalData, hc0]
  simp only [hslot]
  by_cases hsucc : (d.slots c0).successfulBoot = 0
  · rw [if_neg (not_not.mpr hsucc), if_neg (not_not.mpr hsucc)]
    refine iff_of_true ⟨fun c hc => ?_, rfl⟩ fun c hc => .inl ?_
    · rw [AvbABData.slots_sealed, useTry, AvbABData.slots_setSlot_ne _ _ (hother c hc), hmarked c hc]
      exact AvbABSlotData.zeroed_setUnbootable _
    · rwa [Slot.other_eq_of_ne (hother c hc)]
  · rw [if_pos hsucc, if_pos hsucc]
    constructor
    · rintro ⟨hzero, -⟩ c hc
      exact .inr (hzero c hc)
    · intro hcond
      have hzero : ∀ c, rc c ≠ 0 → (d.slots c).Zeroed := by
        intro c hc
        have := hcond c hc
        rw [Slot.other_eq_of_ne (hother c hc)] at this
        exact this.resolve_left hsucc
      refine ⟨hzero, ?_⟩
      have hsame : marked rc d = d := by
        refine AvbABData.ext rfl rfl rfl rfl (funext fun c => ?_) rfl rfl
        by_cases hc : rc c = 0
        · exact if_neg (not_not.mpr hc)
        · rw [hmarked c hc, (hzero c hc).setUnbootable_eq]
      rw [hsame, hvalid.sealed_eq]

/-- Slot A is corrupted, and slot B takes a try. -/
theorem marks_stored_iff_tries :
    ∃ s', avbAbFlow.run (card (blockOf ⟨15, 7, 0, 0⟩ ⟨14, 7, 0, 0⟩) (messageOf VIRTUAL_AB_NONE 0)
        ![false, true]) = (some .ok, s') ∧
      MarksStored 34 (card (blockOf ⟨15, 7, 0, 0⟩ ⟨14, 7, 0, 0⟩) (messageOf VIRTUAL_AB_NONE 0)
        ![false, true]) s' (results ![false, true]) := by
  obtain ⟨t, s', hrc, hrun, -⟩ := run_avbAbFlow_card (blockOf ⟨15, 7, 0, 0⟩ ⟨14, 7, 0, 0⟩)
    (messageOf VIRTUAL_AB_NONE 0) ![false, true] (valid_blockOf _ _)
  refine ⟨s', hrun, (marks_stored_iff (ready_card _ _ _) hrc hrun).mpr ?_⟩
  rw [abData_card, loaded_of_valid (valid_blockOf _ _), slots_blockOf]
  decide

/-- Slot A is corrupted, and slot B booted successfully before: the card keeps slot A with its
priority and its tries. -/
theorem corrupted_slot_not_stored :
    ∃ t s', IplResults (card (blockOf ⟨15, 7, 0, 0⟩ ⟨14, 0, 1, 0⟩) (messageOf VIRTUAL_AB_NONE 0)
        ![false, true]) (results ![false, true]) t ∧
      avbAbFlow.run (card (blockOf ⟨15, 7, 0, 0⟩ ⟨14, 0, 1, 0⟩) (messageOf VIRTUAL_AB_NONE 0)
        ![false, true]) = (some .ok, s') ∧
      Reports s' AVB_AB_SLOT_B ∧ results ![false, true] AVB_AB_SLOT_A ≠ 0 ∧
      (abData 34 s').slots AVB_AB_SLOT_A = ⟨15, 7, 0, 0⟩ := by
  obtain ⟨t, s', hrc, hrun, hd, hrep⟩ := run_avbAbFlow_card (blockOf ⟨15, 7, 0, 0⟩ ⟨14, 0, 1, 0⟩)
    (messageOf VIRTUAL_AB_NONE 0) ![false, true] (valid_blockOf _ _)
  refine ⟨t, s', hrc, hrun, hrep _ rfl, by decide, ?_⟩
  rw [hd.abData_eq]
  rfl

/-! ## Cancelled updates -/

/-- The sector of the message. -/
def msgSector (b : ℕ) (s : State) : List UInt8 :=
  (s.part USER_PARTITION).read (msgOffset b) 512

theorem Disk.msgSector_eq {v : MiscVirtABMsg} (h : Disk b s s' d v) :
    msgSector b s' = v.toBytes ++ (msgSector b s).drop 64 := by
  rw [msgSector, show (512 : ℕ) = 64 + 448 from rfl, Mem.read_append, msgSector,
    Mem.drop_read _ _ _ _ (by decide)]
  congr 1
  · rw [← MiscVirtABMsg.toBytes_ofMem]
    exact congrArg _ h.virtMsg_eq
  · refine Mem.read_congr fun i hi => ?_
    rw [h.user, putMisc_outside]
    · rw [dataOffset_eq, msgOffset_eq]
      omega
    · rw [msgOffset_eq]
      omega

theorem msgSector_eq (b : ℕ) (s : State) :
    msgSector b s = (virtMsg b s).toBytes ++ (msgSector b s).drop 64 :=
  (Disk.of_sameStore (SameStore.refl s)).msgSector_eq

theorem Disk.msgSector_cancelled
    (h : Disk b s s' d { virtMsg b s with mergeStatus := VIRTUAL_AB_CANCELLED }) :
    msgSector b s' = (msgSector b s).set 5 VIRTUAL_AB_CANCELLED := by
  have hsector := Bl2.msgSector_eq b s
  rw [h.msgSector_eq]
  conv_rhs => rw [hsector, List.set_append_left _ _ (by simp [MiscVirtABMsg.toBytes])]
  rfl

theorem loadedMsg_of_valid {v : MiscVirtABMsg} (h : v.isValid = true) : loadedMsg v = v := if_pos h

theorem cancelMsg_source {v : MiscVirtABMsg} {src : Slot} (h : v.isValid = true)
    (hsrc : v.sourceSlot.toNat = src) : cancelMsg src v = v := by
  rw [cancelMsg, loadedMsg_of_valid h, if_neg fun h => h.2 hsrc]

theorem cancelMsg_updated {v : MiscVirtABMsg} {src : Slot} (h : v.isValid = true)
    (hsrc : v.sourceSlot.toNat = src) (hs : v.mergeStatus = VIRTUAL_AB_SNAPSHOTED) :
    cancelMsg src.other v = { v with mergeStatus := VIRTUAL_AB_CANCELLED } := by
  have hne : v.sourceSlot.toNat ≠ src.other := by
    rw [hsrc]
    exact fun heq => src.other_ne (Fin.ext heq.symm)
  rw [cancelMsg, loadedMsg_of_valid h, if_pos ⟨hs, hne⟩]

/-- Only the slots whose tries are used up matter to the message. -/
theorem flowMsg_of_not_exhausted {v : MiscVirtABMsg} {src : Slot} (h : v.isValid = true)
    (hsrc : v.sourceSlot.toNat = src) (hother : (d.slots src.other).exhausted = false) :
    flowMsg d v = v := by
  unfold flowMsg
  rcases src.eq_zero_or_one with rfl | rfl
  · split
    · exact cancelMsg_source h hsrc
    · rw [if_neg (by simpa [Slot.other] using hother)]
  · rw [if_neg (by simpa [Slot.other] using hother)]
    split
    · exact cancelMsg_source h hsrc
    · rfl

theorem flowMsg_of_exhausted {v : MiscVirtABMsg} {src : Slot} (h : v.isValid = true)
    (hsrc : v.sourceSlot.toNat = src) (hs : v.mergeStatus = VIRTUAL_AB_SNAPSHOTED)
    (hboot : (d.slots src).isBootable = true) (hother : (d.slots src.other).exhausted = true) :
    flowMsg d v = { v with mergeStatus := VIRTUAL_AB_CANCELLED } := by
  have hnot : ¬ (d.slots src).exhausted = true := by
    intro he
    rw [AvbABSlotData.not_isBootable_of_exhausted he] at hboot
    cases hboot
  rw [← cancelMsg_updated h hsrc hs]
  unfold flowMsg
  rcases src.eq_zero_or_one with rfl | rfl
  · rw [if_neg hnot]
    exact if_pos hother
  · exact if_pos hother

/-- A flow that reports the source of an update, the updated slot being unbootable, cancels the
update; as long as that slot is bootable nothing in the sector of the message changes. -/
def CancelComplete (b : ℕ) (s s' : State) (rc : Slot → ℤ) (r : FlowResult) : Prop :=
  ∀ src : Slot, (virtMsg b s).sourceSlot.toNat = src →
    (r = .ok → Reports s' src → (virtMsg b s).mergeStatus = VIRTUAL_AB_SNAPSHOTED →
      ((decision b s rc).slots src.other).isBootable = false →
      msgSector b s' = (msgSector b s).set 5 VIRTUAL_AB_CANCELLED) ∧
    (((decision b s rc).slots src.other).isBootable = true → msgSector b s' = msgSector b s)

theorem getD_msgSector (b : ℕ) (s : State) : (msgSector b s).getD 5 0 = (virtMsg b s).mergeStatus := by
  rw [msgSector_eq]
  rfl

theorem exhausted_of_priority {x : AvbABSlotData} (h : x.isBootable = false)
    (hp : x.priority ≠ 0) : x.exhausted = true := by
  have hpos : 0 < x.priority := UInt8.pos_iff_ne_zero.mpr hp
  rw [AvbABSlotData.exhausted_iff]
  refine ⟨hpos, ?_, ?_⟩
  · by_contra hs
    rw [(AvbABSlotData.isBootable_iff x).mpr ⟨hpos, .inl hs⟩] at h
    cases h
  · by_contra ht
    rw [(AvbABSlotData.isBootable_iff x).mpr ⟨hpos, .inr (UInt8.pos_iff_ne_zero.mpr ht)⟩] at h
    cases h

theorem priority_marked_eq_zero {c : Slot} :
    ((marked rc d).slots c).priority = 0 ↔ rc c ≠ 0 ∨ (d.slots c).priority = 0 := by
  rw [slots_marked]
  by_cases h : rc c = 0 <;> simp [h, AvbABSlotData.setUnbootable]

theorem isBootable_false_of_priority {x : AvbABSlotData} (h : x.priority = 0) :
    x.isBootable = false ∧ x.exhausted = false := by
  simp [AvbABSlotData.isBootable, AvbABSlotData.exhausted, h]

theorem currSlot_of_other {c : Slot} (hc : (d.slots c).isBootable = true)
    (ho : (d.slots c.other).isBootable = false) : currSlot d = some c := by
  simp only [currSlot]
  rcases c.eq_zero_or_one with rfl | rfl <;> simp_all [Slot.other]

/-- The cancellation is complete unless the update is of a slot whose IPL is corrupted, or
which has priority 0, and its source boots. -/
theorem cancel_complete_iff (h : Ready b s) (hv : (abData b s).Valid)
    (hm : (virtMsg b s).isValid = true) (hc : IplResults s rc t)
    (hr : avbAbFlow.run s = (some r, s')) :
    CancelComplete b s s' rc r ↔
      ¬ ((virtMsg b s).mergeStatus = VIRTUAL_AB_SNAPSHOTED ∧
        ∃ src : Slot, (virtMsg b s).sourceSlot.toNat = src ∧ rc src = 0 ∧
          ((abData b s).slots src).isBootable = true ∧
          (rc src.other ≠ 0 ∨ ((abData b s).slots src.other).priority = 0)) := by
  obtain ⟨hres, hd, hrep⟩ := flow_spec h hc hr
  have hdec : decision b s rc = marked rc (abData b s) := by rw [decision, loaded_of_valid hv]
  unfold CancelComplete
  rw [hdec] at hd hrep hres ⊢
  constructor
  · rintro hcc ⟨hsnap, src, hsrc, hok, hboot, hgone⟩
    have hslot : (marked rc (abData b s)).slots src = (abData b s).slots src :=
      if_neg (not_not.mpr hok)
    obtain ⟨hunboot, hnex⟩ := isBootable_false_of_priority (priority_marked_eq_zero.mpr hgone)
    have hcurr := currSlot_of_other (by rwa [hslot]) hunboot
    have hrok : r = .ok := by rw [hres, bootResult, hcurr]; rfl
    have hset := (hcc src hsrc).1 hrok (hrep src hcurr) hsnap hunboot
    rw [flowMsg_of_not_exhausted hm hsrc hnex] at hd
    have hstatus := getD_msgSector b s'
    rw [hset, hd.virtMsg_eq, hsnap, msgSector_eq b s] at hstatus
    exact absurd hstatus (by decide : VIRTUAL_AB_CANCELLED ≠ VIRTUAL_AB_SNAPSHOTED)
  · intro hcond src hsrc
    constructor
    · rintro rfl hsrep hsnap hunboot
      obtain ⟨c, hcurr⟩ := currSlot_isSome_of_ok hres
      obtain rfl := hsrep.unique (hrep c hcurr)
      obtain ⟨hok, hslot, hboot⟩ := intact_of_currSlot hcurr
      have hex : ((marked rc (abData b s)).slots src.other).exhausted = true := by
        refine exhausted_of_priority hunboot fun hp => hcond ?_
        exact ⟨hsnap, src, hsrc, hok, hboot, priority_marked_eq_zero.mp hp⟩
      rw [flowMsg_of_exhausted hm hsrc hsnap (by rwa [hslot]) hex] at hd
      exact hd.msgSector_cancelled
    · intro hboot
      have hnex : ((marked rc (abData b s)).slots src.other).exhausted = false := by
        by_contra hex
        rw [AvbABSlotData.not_isBootable_of_exhausted (Bool.eq_true_of_not_eq_false hex)] at hboot
        cases hboot
      rw [flowMsg_of_not_exhausted hm hsrc hnex] at hd
      rw [hd.msgSector_eq, ← msgSector_eq]

/-- An update of slot B whose tries are used up is cancelled. -/
theorem cancel_complete_iff_exhausted :
    ∃ s', avbAbFlow.run (card (blockOf ⟨14, 0, 1, 0⟩ ⟨15, 0, 0, 0⟩)
        (messageOf VIRTUAL_AB_SNAPSHOTED 0) fun _ => true) = (some .ok, s') ∧
      CancelComplete 34 (card (blockOf ⟨14, 0, 1, 0⟩ ⟨15, 0, 0, 0⟩)
        (messageOf VIRTUAL_AB_SNAPSHOTED 0) fun _ => true) s' (results fun _ => true) .ok := by
  obtain ⟨t, s', hrc, hrun, -⟩ := run_avbAbFlow_card (blockOf ⟨14, 0, 1, 0⟩ ⟨15, 0, 0, 0⟩)
    (messageOf VIRTUAL_AB_SNAPSHOTED 0) (fun _ => true) (valid_blockOf _ _)
  refine ⟨s', hrun, (cancel_complete_iff (ready_card _ _ _) ?_ ?_ hrc hrun).mpr ?_⟩
  · rw [abData_card]
    exact valid_blockOf _ _
  · rw [virtMsg_card]
    decide
  · rw [abData_card, virtMsg_card, slots_blockOf]
    decide

/-- An update of slot B whose IPL is corrupted is not: slot A boots, and the message stays. -/
theorem corrupted_update_not_cancelled :
    ∃ t s', IplResults (card (blockOf ⟨14, 0, 1, 0⟩ ⟨15, 7, 0, 0⟩)
        (messageOf VIRTUAL_AB_SNAPSHOTED 0) ![true, false]) (results ![true, false]) t ∧
      avbAbFlow.run (card (blockOf ⟨14, 0, 1, 0⟩ ⟨15, 7, 0, 0⟩)
        (messageOf VIRTUAL_AB_SNAPSHOTED 0) ![true, false]) = (some .ok, s') ∧
      Reports s' AVB_AB_SLOT_A ∧ results ![true, false] AVB_AB_SLOT_B ≠ 0 ∧
      (virtMsg 34 s').mergeStatus = VIRTUAL_AB_SNAPSHOTED := by
  obtain ⟨t, s', hrc, hrun, hd, hrep⟩ := run_avbAbFlow_card (blockOf ⟨14, 0, 1, 0⟩ ⟨15, 7, 0, 0⟩)
    (messageOf VIRTUAL_AB_SNAPSHOTED 0) ![true, false] (valid_blockOf _ _)
  refine ⟨t, s', hrc, hrun, hrep _ rfl, by decide, ?_⟩
  rw [hd.virtMsg_eq]
  rfl

end Bl2

end RCar
