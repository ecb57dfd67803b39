import RCarM3N.Proofs.Bl2Misc

/-! What one call of the A/B flow of BL2 does when every access succeeds: it returns what the
checks of the IPLs and the stored block determine, and leaves a block and a message. -/

namespace RCar.Bl2

variable {b : ℕ} {s s' t : State} {d d' : AvbABData} {v v' : MiscVirtABMsg}

/-! ## Accesses -/

theorem run_avbAbWriteData (h : Ready b s) (d : AvbABData) :
    ∃ s', (avbAbWriteData d).run s = (some .ok, s') ∧ Disk b s s' d (virtMsg b s) := by
  obtain ⟨s', hrun, hout, hpart⟩ := run_updateSector h d.mem (n := AVB_AB_DATA_SIZE) (.inl rfl)
    (by decide)
  exact ⟨s', hrun, by rw [virtMsg, putMisc_data]; exact hpart, hout⟩

theorem run_avbAbUpdateAndSave (h : Ready b s) (d : AvbABData) :
    ∃ s', (avbAbUpdateAndSave d).run s = (some (.ok, d.sealed), s') ∧
      Disk b s s' d.sealed (virtMsg b s) := by
  obtain ⟨s', hrun, hd⟩ := run_avbAbWriteData h d.sealed
  refine ⟨s', ?_, hd⟩
  unfold avbAbUpdateAndSave
  exact Prog.run_bind_of_some hrun _

theorem run_virtualAbMsgWrite (h : Ready b s) (hv : v.isValid = true) :
    ∃ s', (virtualAbMsgWrite v).run s = (some .ok, s') ∧ Disk b s s' (abData b s) v := by
  obtain ⟨s', hrun, hout, hpart⟩ := run_updateSector h v.mem (n := MiscVirtABMsg.SIZE) (.inr rfl)
    (by decide)
  refine ⟨s', ?_, by rw [abData, putMisc_msg]; exact hpart, hout⟩
  unfold virtualAbMsgWrite
  rw [hv]
  exact hrun

/-! ## What is read -/

theorem run_avbAbReadData (h : Ready b s) :
    ∃ s', avbAbReadData.run s = (some (.ok, loaded (abData b s)), s') ∧
      Disk b s s' (loaded (abData b s)) (virtMsg b s) := by
  obtain ⟨buf, t, hread, hs, hbuf⟩ := run_readSectorFromMisc h AVB_BLOCK_DATA_OFFSET
    (by decide)
  have hdata : AvbABData.ofMem buf 0 = abData b s :=
    AvbABData.ofMem_congr fun i hi => by
      rw [Nat.zero_add, hbuf i (by omega), dataOffset]
  have hdisk := Disk.of_sameStore (b := b) hs
  unfold avbAbReadData loaded
  rw [Prog.run_bind_of_some hread]
  simp only [ne_eq, not_true_eq_false, if_false, hdata, avbAbCheckData_eq_ok]
  by_cases hv : (abData b s).Valid
  · rw [if_pos hv, if_neg (not_not.mpr hv)]
    exact ⟨t, rfl, hdisk⟩
  · obtain ⟨s', hrun, hd⟩ := run_avbAbUpdateAndSave (h.of_disk hdisk) avbAbDataInit
    rw [if_neg hv, if_pos hv]
    exact ⟨s', hrun, hdisk.trans_data hd⟩

/-- The stored message, or the initial one if it is not valid. -/
def loadedMsg (v : MiscVirtABMsg) : MiscVirtABMsg := if v.isValid then v else initVirtualAbMsg v

theorem isValid_loadedMsg (v : MiscVirtABMsg) : (loadedMsg v).isValid = true := by
  unfold loadedMsg
  split
  · assumption
  · rfl

theorem run_virtualAbMsgRead (h : Ready b s) :
    ∃ s', virtualAbMsgRead.run s = (some (.ok, loadedMsg (virtMsg b s)), s') ∧
      Disk b s s' (abData b s) (loadedMsg (virtMsg b s)) := by
  obtain ⟨buf, t, hread, hs, hbuf⟩ := run_readSectorFromMisc h VIRTUAL_AB_MSG_DATA_OFFSET
    (by decide)
  have hmsg : MiscVirtABMsg.ofMem buf 0 = virtMsg b s :=
    MiscVirtABMsg.ofMem_congr fun i hi => by
      rw [Nat.zero_add, hbuf i (Nat.lt_of_lt_of_le hi (by decide)), msgOffset]
  have hdisk := Disk.of_sameStore (b := b) hs
  unfold virtualAbMsgRead loadedMsg
  rw [Prog.run_bind_of_some hread]
  simp only [ne_eq, not_true_eq_false, if_false, hmsg]
  cases hv : (virtMsg b s).isValid
  · obtain ⟨s', hrun, hd⟩ := run_virtualAbMsgWrite (h.of_disk hdisk)
      (v := initVirtualAbMsg (virtMsg b s)) rfl
    simp only [Bool.not_false, if_true, Bool.false_eq_true, if_false]
    exact ⟨s', Prog.run_bind_of_some hrun _, hdisk.trans_msg hd⟩
  · exact ⟨t, rfl, hdisk⟩

/-! ## The choice of the slot -/

/-- The message after the tries of `slot` are found used up. -/
def cancelMsg (slot : Slot) (v : MiscVirtABMsg) : MiscVirtABMsg :=
  if (loadedMsg v).mergeStatus = VIRTUAL_AB_SNAPSHOTED ∧ (loadedMsg v).sourceSlot.toNat ≠ slot then
    { loadedMsg v with mergeStatus := VIRTUAL_AB_CANCELLED }
  else
    loadedMsg v

theorem run_checkAndCancelVirtualAb (h : Ready b s) (slot : Slot) :
    ∃ s', (checkAndCancelVirtualAb slot).run s = (some (), s') ∧
      Disk b s s' (abData b s) (cancelMsg slot (virtMsg b s)) := by
  obtain ⟨t, hread, hdisk⟩ := run_virtualAbMsgRead h
  unfold checkAndCancelVirtualAb cancelMsg
  rw [Prog.run_bind_of_some hread]
  simp only [if_true]
  split
  · have hvalid : ({ loadedMsg (virtMsg b s) with mergeStatus := VIRTUAL_AB_CANCELLED } :
        MiscVirtABMsg).isValid = true := by
      have := isValid_loadedMsg (virtMsg b s)
      simp only [MiscVirtABMsg.isValid, Bool.and_eq_true, decide_eq_true_eq] at this ⊢
      exact ⟨⟨this.1.1, by decide⟩, this.2⟩
    obtain ⟨s', hrun, hd⟩ := run_virtualAbMsgWrite (h.of_disk hdisk) hvalid
    exact ⟨s', Prog.run_bind_of_some hrun _, hdisk.trans_msg hd⟩
  · exact ⟨t, rfl, hdisk⟩

/-- The message after the choice of a slot from the block `d`. -/
def flowMsg (d : AvbABData) (v : MiscVirtABMsg) : MiscVirtABMsg :=
  if (d.slots AVB_AB_SLOT_A).exhausted then cancelMsg AVB_AB_SLOT_A v
  else if (d.slots AVB_AB_SLOT_B).exhausted then cancelMsg AVB_AB_SLOT_B v
  else v

theorem run_avbAbGetCurrSlot (h : Ready b s) (d : AvbABData) :
    ∃ s', (avbAbGetCurrSlot d).run s = (some (currSlot d), s') ∧
      Disk b s s' (abData b s) (flowMsg d (virtMsg b s)) := by
  unfold avbAbGetCurrSlot flowMsg
  split
  · obtain ⟨s', hrun, hd⟩ := run_checkAndCancelVirtualAb h AVB_AB_SLOT_A
    exact ⟨s', Prog.run_bind_of_some hrun _, hd⟩
  · split
    · obtain ⟨s', hrun, hd⟩ := run_checkAndCancelVirtualAb h AVB_AB_SLOT_B
      exact ⟨s', Prog.run_bind_of_some hrun _, hd⟩
    · exact ⟨s, rfl, Disk.of_sameStore (SameStore.refl s)⟩

theorem isBootable_of_currSlot {c : Slot} (hc : currSlot d = some c) :
    (d.slots c).isBootable = true := by
  simp only [currSlot] at hc
  split at hc
  · rename_i h
    rw [Bool.and_eq_true] at h
    split at hc <;> cases hc
    · exact h.1
    · exact h.2
  · split at hc
    · cases hc
      assumption
    · split at hc
      · cases hc
        assumption
      · cases hc

theorem currSlot_eq_none : currSlot d = none ↔ ∀ c, (d.slots c).isBootable = false := by
  rw [Fin.forall_fin_two]
  simp only [currSlot]
  cases (d.slots 0).isBootable <;> cases (d.slots 1).isBootable <;> simp
  split <;> simp

/-! ## The boot -/

theorem Disk.of_eq (hp : s'.part = s.part) (ho : s'.outcomes = s.outcomes) :
    Disk b s s' (abData b s) (virtMsg b s) := by
  refine ⟨?_, ho⟩
  rw [hp, abData, virtMsg, putMisc_self, Function.update_eq_self]

/-- The boot partition of a slot. -/
def partitionOf (slot : Slot) : ℕ :=
  if slot = AVB_AB_SLOT_A then PARTITION_ID_BOOT_1 else PARTITION_ID_BOOT_2

/-- The flow reports `slot`. -/
structure Reports (s : State) (slot : Slot) : Prop where
  bootPartition : s.bootPartition = partitionOf slot
  success : s.avbAbFlowSuccess = 1

theorem run_selectPart (hs : AllSucceed s) (slot : Slot) :
    ∃ s', (selectPart slot).run s = (some .ok, s') ∧ s'.part = s.part ∧
      s'.outcomes = s.outcomes ∧ Reports s' slot := by
  set p := partitionOf slot with hp
  set s0 : State := { s with partitionAccess := p, bootPartitionEn := p, bootPartition := p } with hs0
  obtain ⟨t, hsel, hst⟩ : ∃ t, (emmcSelectPartition p).run s0 = (some true, t) ∧ SameStore s0 t := by
    obtain ⟨q, hq⟩ := run_emmcSelectPartition (s := s0) hs p
    exact ⟨_, hq, rfl, rfl, rfl, rfl⟩
  refine ⟨{ t with avbAbFlowSuccess := 1 }, ?_, hst.part, hst.outcomes, hst.flow.1, rfl⟩
  have hset : (avbAbSetBootPartition slot).run s = (some (), t) := by
    unfold avbAbSetBootPartition
    rw [Prog.run_bind_modify]
    exact Prog.run_bind_of_some hsel _
  unfold selectPart
  rw [Prog.run_bind_of_some hset]
  rfl

/-- The block with one try of `slot` used. -/
def useTry (d : AvbABData) (slot : Slot) : AvbABData :=
  d.setSlot slot { d.slots slot with triesRemaining := (d.slots slot).triesRemaining - 1 }

/-- What is stored after a boot on the block `d`; a slot that booted before is booted
without a save, and `old` stays. -/
def bootData (old d : AvbABData) : AvbABData :=
  match currSlot d with
  | none => d.sealed
  | some c => if (d.slots c).successfulBoot ≠ 0 then old else (useTry d c).sealed

def bootResult (d : AvbABData) : FlowResult :=
  if (currSlot d).isSome then .ok else .errorNoBootableSlots

theorem run_bootSlot (h : Ready b s) (d : AvbABData) :
    ∃ s', (bootSlot d).run s = (some (bootResult d), s') ∧
      Disk b s s' (bootData (abData b s) d) (flowMsg d (virtMsg b s)) ∧
      ∀ c, currSlot d = some c → Reports s' c := by
  obtain ⟨t, hcurr, ht⟩ := run_avbAbGetCurrSlot h d
  have htr := h.of_disk ht
  unfold bootSlot bootData bootResult
  rw [Prog.run_bind_of_some hcurr]
  rcases hc : currSlot d with _ | c
  · obtain ⟨s', hsave, hs'⟩ := run_avbAbUpdateAndSave htr d
    exact ⟨s', Prog.run_bind_of_some hsave _, ht.trans_data hs', by simp⟩
  · have hboot := (AvbABSlotData.isBootable_iff _).mp (isBootable_of_currSlot hc)
    simp only [Option.isSome_some, if_true, Option.some.injEq, forall_eq']
    by_cases hsucc : (d.slots c).successfulBoot = 0
    · have htries : 0 < (d.slots c).triesRemaining := by
        rcases hboot.2 with h' | h'
        · exact absurd hsucc h'
        · exact h'
      obtain ⟨u, hsave, hu⟩ := run_avbAbUpdateAndSave htr (useTry d c)
      obtain ⟨s', hsel, hp, ho, hrep⟩ := run_selectPart (htr.of_disk hu).succeed c
      rw [if_neg (not_not.mpr hsucc), if_neg (not_not.mpr hsucc), if_pos htries]
      refine ⟨s', ?_, ?_, hrep⟩
      · rw [useTry] at hsave
        rw [Prog.run_bind_of_some hsave]
        simpa using hsel
      · have := (ht.trans_data hu).trans (Disk.of_eq hp ho)
        rwa [hu.abData_eq, hu.virtMsg_eq, ht.virtMsg_eq] at this
    · obtain ⟨s', hsel, hp, ho, hrep⟩ := run_selectPart htr.succeed c
      rw [if_pos hsucc, if_pos hsucc]
      refine ⟨s', hsel, ?_, hrep⟩
      have := ht.trans (Disk.of_eq hp ho)
      rwa [ht.abData_eq, ht.virtMsg_eq] at this

/-! ## The checks -/

theorem readIplSector_sameStore (blk count : ℕ) : Prog.Keeps SameStore (readIplSector blk count) := by
  unfold readIplSector
  refine .ite .stuck (.bind .get fun s => .bind (emmcReadSector_sameStore _ _ _) fun r => ?_)
  exact .bind (fun s => ⟨rfl, rfl, rfl, rfl⟩) fun _ => .pure _

theorem isHashOk_sameStore (buf len : ℕ) (digest : List UInt8) (digestType : UInt32) :
    Prog.Keeps SameStore (isHashOk buf len digest digestType) := by
  unfold isHashOk
  refine .ite (.bind .get fun s => ?_) (.pure _)
  split
  · exact .stuck
  · exact .pure _

/-- The checks only read the card. -/
theorem checkEmmcHash_sameStore (partition : ℕ) : Prog.Keeps SameStore (checkEmmcHash partition) := by
  have hipl : ∀ off, Prog.Keeps SameStore (checkIpl off) := by
    intro off
    unfold checkIpl
    exact .bind (readIplSector_sameStore _ _) fun _ => .bind .get fun _ =>
      .bind (readIplSector_sameStore _ _) fun _ => .bind .get fun _ => isHashOk_sameStore _ _ _ _
  have hloop : ∀ acc off, Prog.Keeps SameStore (checkIpls acc off) := by
    intro acc off
    unfold checkIpls
    exact .ite (.bind (hipl off) fun _ => .ite (.pure _) (.pure _)) (.pure _)
  unfold checkEmmcHash
  refine .bind (emmcSelectPartition_sameStore _) fun _ => .ite (.pure _) ?_
  refine .bind (readIplSector_sameStore _ _) fun _ => .bind .get fun _ => .ite (.pure _) ?_
  exact .bind (.foldlM hloop _ _) fun _ => .pure _

/-- In a call of the flow from `s` the two checks return `rc`. -/
def IplResults (s : State) (rc : Slot → ℤ) (t : State) : Prop :=
  ∃ d t0 t1, avbAbReadData.run s = (some (.ok, d), t0) ∧
    (checkEmmcHash MMC_BOOT0).run t0 = (some (rc AVB_AB_SLOT_A), t1) ∧
    (checkEmmcHash MMC_BOOT1).run t1 = (some (rc AVB_AB_SLOT_B), t)

/-- The block with the slots zeroed whose check failed. -/
def marked (rc : Slot → ℤ) (d : AvbABData) : AvbABData :=
  { d with slots := fun c => if rc c ≠ 0 then (d.slots c).setUnbootable else d.slots c }

@[simp] theorem slots_marked (rc : Slot → ℤ) (d : AvbABData) (c : Slot) :
    (marked rc d).slots c = if rc c ≠ 0 then (d.slots c).setUnbootable else d.slots c := rfl

theorem slots_of_isBootable_marked {rc : Slot → ℤ} {c : Slot} (h : ((marked rc d).slots c).isBootable = true) :
    (marked rc d).slots c = d.slots c := by
  rw [slots_marked] at h ⊢
  split
  · rename_i hc
    rw [if_pos hc] at h
    cases h
  · rfl

/-- The block in which `avb_ab_flow` chooses a slot. -/
def decision (b : ℕ) (s : State) (rc : Slot → ℤ) : AvbABData := marked rc (loaded (abData b s))

theorem run_checkSlot (slot : Slot) {rc : ℤ} (d : AvbABData)
    (hrc : (checkEmmcHash (if slot = AVB_AB_SLOT_A then MMC_BOOT0 else MMC_BOOT1)).run s =
      (some rc, t)) :
    (checkSlot slot d).run s =
      (some (if rc ≠ 0 then d.setSlot slot (d.slots slot).setUnbootable else d), t) := by
  unfold checkSlot
  rw [Prog.run_bind_of_some hrc]
  split <;> rfl

theorem marked_eq (rc : Slot → ℤ) (d : AvbABData) :
    (let d := if rc 0 ≠ 0 then d.setSlot 0 (d.slots 0).setUnbootable else d
     if rc 1 ≠ 0 then d.setSlot 1 (d.slots 1).setUnbootable else d) = marked rc d := by
  by_cases h0 : rc 0 = 0 <;> by_cases h1 : rc 1 = 0 <;>
  · simp only [h0, h1, ne_eq, not_true_eq_false, not_false_eq_true, if_true, if_false]
    refine AvbABData.ext rfl rfl rfl rfl ?_ rfl rfl
    funext c
    fin_cases c <;> simp [marked, AvbABData.setSlot, h0, h1]

/-- A call whose checks return is decided by them and by the stored block. -/
theorem run_avbAbFlow {rc : Slot → ℤ} (h : Ready b s) (hc : IplResults s rc t) :
    ∃ s', avbAbFlow.run s = (some (bootResult (decision b s rc)), s') ∧
      Disk b s s' (bootData (loaded (abData b s)) (decision b s rc))
        (flowMsg (decision b s rc) (virtMsg b s)) ∧
      ∀ c, currSlot (decision b s rc) = some c → Reports s' c := by
  obtain ⟨d, t0, t1, hread, hA, hB⟩ := hc
  obtain ⟨t0', hread', hdisk⟩ := run_avbAbReadData h
  rw [hread] at hread'
  cases hread'
  have hA' := checkEmmcHash_sameStore MMC_BOOT0 t0
  have hB' := checkEmmcHash_sameStore MMC_BOOT1 t1
  rw [hA] at hA'
  rw [hB] at hB'
  have hdisk' := (hdisk.trans_same hA').trans_same hB'
  obtain ⟨s', hrun, hd, hrep⟩ := run_bootSlot (h.of_disk hdisk') (decision b s rc)
  refine ⟨s', ?_, ?_, hrep⟩
  · unfold avbAbFlow
    rw [Prog.run_bind_of_some hread]
    simp only [ne_eq, not_true_eq_false, if_false]
    rw [Prog.run_bind_of_some (run_checkSlot AVB_AB_SLOT_A _ hA),
      Prog.run_bind_of_some (run_checkSlot AVB_AB_SLOT_B _ hB)]
    have := marked_eq rc (loaded (abData b s))
    simp only at this
    rw [this]
    exact hrun
  · have := hdisk'.trans hd
    rwa [hdisk'.abData_eq, hdisk'.virtMsg_eq] at this

/-- A call returns exactly when its checks do. -/
theorem iplResults_of_run {r : FlowResult} (h : Ready b s) (hr : avbAbFlow.run s = (some r, s')) :
    ∃ rc t, IplResults s rc t := by
  obtain ⟨t0, hread, hdisk⟩ := run_avbAbReadData h
  unfold avbAbFlow at hr
  rw [Prog.run_bind_of_some hread] at hr
  simp only [ne_eq, not_true_eq_false, if_false] at hr
  obtain ⟨d1, t1, h1, hr⟩ := Prog.run_bind_eq_some hr
  obtain ⟨d2, t2, h2, -⟩ := Prog.run_bind_eq_some hr
  obtain ⟨rc0, u0, hrc0, h1⟩ := Prog.run_bind_eq_some h1
  obtain ⟨rc1, u1, hrc1, h2⟩ := Prog.run_bind_eq_some h2
  have hu0 : u0 = t1 := by
    split at h1 <;> exact congrArg Prod.snd h1
  exact ⟨![rc0, rc1], u1, _, t0, u0, hread, hrc0, hu0 ▸ hrc1⟩

end RCar.Bl2
