import RCarM3N.Proofs.UBootOps

/-! Histories of the A/B operations of U-Boot: what holds of the stored metadata after each of
them, and what the next load makes of it. -/

namespace RCar.UBoot

variable {s s' t : State} {d d' : AvbABData} {v : Verifier} {depth : ℕ}

/-! ## The invariant -/

structure SlotInv (x : AvbABSlotData) : Prop where
  legal : ¬ (0 < x.triesRemaining ∧ x.successfulBoot ≠ 0)
  priority : x.priority ≤ AVB_AB_MAX_PRIORITY
  tries : x.triesRemaining ≤ AVB_AB_MAX_TRIES_REMAINING

/-- No slot is illegal, and two bootable slots never tie. -/
structure Inv (d : AvbABData) : Prop where
  slot : ∀ c, SlotInv (d.slots c)
  noTie : (∀ c, (d.slots c).isBootable = true) → (d.slots 0).priority ≠ (d.slots 1).priority

theorem slotInv_setUnbootable (x : AvbABSlotData) : SlotInv x.setUnbootable :=
  ⟨fun h => h.2 rfl, UInt8.zero_le, UInt8.zero_le⟩

theorem Inv.of_slots (h : Inv d) (hs : d'.slots = d.slots) : Inv d' := by
  refine ⟨fun c => ?_, fun hb => ?_⟩
  · rw [hs]
    exact h.slot c
  · rw [hs] at hb ⊢
    exact h.noTie hb

/-- Some slots are set unbootable, the others stay. -/
def Cleared (d d' : AvbABData) : Prop :=
  ∀ c, d'.slots c = d.slots c ∨ d'.slots c = (d.slots c).setUnbootable

theorem Cleared.isBootable (h : Cleared d d') {c : Slot} (hb : (d'.slots c).isBootable = true) :
    d'.slots c = d.slots c := by
  rcases h c with hc | hc
  · exact hc
  · rw [hc, AvbABSlotData.isBootable_setUnbootable] at hb
    cases hb

theorem Inv.of_cleared (h : Inv d) (hc : Cleared d d') : Inv d' := by
  refine ⟨fun c => ?_, fun hb => ?_⟩
  · rcases hc c with hc | hc <;> rw [hc]
    · exact h.slot c
    · exact slotInv_setUnbootable _
  · have h0 := hc.isBootable (hb 0)
    have h1 := hc.isBootable (hb 1)
    rw [h0, h1]
    refine h.noTie (Fin.forall_fin_two.mpr ⟨?_, ?_⟩)
    · rw [← h0]
      exact hb 0
    · rw [← h1]
      exact hb 1

theorem cleared_normalize (d : AvbABData) : Cleared d (normalize d) := by
  intro c
  rw [slots_normalize]
  exact normalizeSlot_eq_or _

theorem cleared_clear (m : Slot → Bool) (d : AvbABData) : Cleared d (clear m d) := by
  intro c
  rw [slots_clear]
  cases m c
  · exact .inl rfl
  · exact .inr rfl

theorem Inv.setSlot (h : Inv d) {c : Slot} {x : AvbABSlotData} (hx : SlotInv x)
    (hp : x.priority = (d.slots c).priority)
    (hb : x.isBootable = true → (d.slots c).isBootable = true) : Inv (d.setSlot c x) := by
  have hother : ∀ c', c' ≠ c → (d.setSlot c x).slots c' = d.slots c' :=
    fun c' hc' => AvbABData.slots_setSlot_ne _ _ hc'
  have hself : (d.setSlot c x).slots c = x := AvbABData.slots_setSlot_same _ _ _
  have hprio : ∀ c', ((d.setSlot c x).slots c').priority = (d.slots c').priority := by
    intro c'
    by_cases hc : c' = c
    · rw [hc, hself, hp]
    · rw [hother c' hc]
  refine ⟨fun c' => ?_, fun hboot => ?_⟩
  · by_cases hc : c' = c
    · rw [hc, hself]
      exact hx
    · rw [hother c' hc]
      exact h.slot c'
  · rw [hprio, hprio]
    refine h.noTie fun c' => ?_
    have := hboot c'
    by_cases hc : c' = c
    · rw [hc, hself] at this
      rw [hc]
      exact hb this
    · rwa [hother c' hc] at this

theorem slotInv_useTry {x : AvbABSlotData} (h : SlotInv x) (hs : x.successfulBoot = 0)
    (ht : 0 < x.triesRemaining) :
    SlotInv { x with triesRemaining := x.triesRemaining - 1 } := by
  refine ⟨fun h' => h'.2 hs, h.priority, ?_⟩
  have h1 : (1 : UInt8) ≤ x.triesRemaining := ht
  have h2 := h.tries
  rw [UInt8.le_iff_toNat_le] at h2 ⊢
  rw [UInt8.toNat_sub_of_le _ _ h1]
  omega

theorem Inv.decrementTries (h : Inv d) (c : Slot) : Inv (decrementTries d c) := by
  simp only [UBoot.decrementTries]
  split
  · rename_i hx
    refine h.setSlot (slotInv_useTry (h.slot c) hx.1 hx.2) rfl fun hb => ?_
    have hp := ((AvbABSlotData.isBootable_iff _).mp hb).1
    exact (AvbABSlotData.isBootable_iff _).mpr ⟨hp, .inr hx.2⟩
  · exact h

theorem Inv.markSuccessful (h : Inv d) (c : Slot) : Inv (markSuccessful d c) := by
  unfold UBoot.markSuccessful
  split
  · rename_i hb
    exact h.setSlot ⟨fun h' => absurd h'.1 (UInt8.lt_irrefl 0), (h.slot c).priority, UInt8.zero_le⟩
      rfl fun _ => hb
  · exact h

/-! ## Marking a slot active -/

theorem slots_markActive (d : AvbABData) (c : Slot) :
    (markActive d c).slots c = { d.slots c with
      priority := AVB_AB_MAX_PRIORITY
      triesRemaining := AVB_AB_MAX_TRIES_REMAINING
      successfulBoot := 0 } := by
  simp only [markActive]
  split
  · rw [AvbABData.slots_setSlot_ne _ _ c.other_ne.symm, AvbABData.slots_setSlot_same]
  · rw [AvbABData.slots_setSlot_same]

theorem slots_markActive_other (d : AvbABData) (c : Slot) :
    (markActive d c).slots c.other = { d.slots c.other with
      priority := if (d.slots c.other).priority = AVB_AB_MAX_PRIORITY then AVB_AB_MAX_PRIORITY - 1
        else (d.slots c.other).priority } := by
  simp only [markActive, AvbABData.slots_setSlot_ne _ _ c.other_ne]
  split
  · rw [AvbABData.slots_setSlot_same]
  · rw [AvbABData.slots_setSlot_ne _ _ c.other_ne]

theorem priority_markActive_lt (h : Inv d) (c : Slot) :
    ((markActive d c).slots c.other).priority < ((markActive d c).slots c).priority := by
  rw [slots_markActive, slots_markActive_other]
  simp only
  split
  · decide
  · rename_i hne
    exact UInt8.lt_of_le_of_ne (h.slot _).priority hne

theorem isBootable_markActive (d : AvbABData) (c : Slot) :
    ((markActive d c).slots c).isBootable = true := by
  rw [slots_markActive, AvbABSlotData.isBootable_iff]
  exact ⟨(by decide : 0 < AVB_AB_MAX_PRIORITY), .inr (by decide : 0 < AVB_AB_MAX_TRIES_REMAINING)⟩

theorem isBootable_markActive_other {c : Slot}
    (hb : ((markActive d c).slots c.other).isBootable = true) :
    (d.slots c.other).isBootable = true := by
  rw [slots_markActive_other, AvbABSlotData.isBootable_iff] at hb
  obtain ⟨hp, hb⟩ := hb
  refine (AvbABSlotData.isBootable_iff _).mpr ⟨?_, hb⟩
  simp only at hp
  split at hp
  · rename_i h15
    rw [h15]
    decide
  · exact hp

theorem forall_slot {P : Slot → Prop} (c : Slot) : (∀ c', P c') ↔ P c ∧ P c.other := by
  refine ⟨fun h => ⟨h c, h c.other⟩, fun ⟨h, h'⟩ c' => ?_⟩
  by_cases hc : c = c'
  · exact hc ▸ h
  · exact Slot.other_eq_of_ne hc ▸ h'

theorem Inv.markActive (h : Inv d) (c : Slot) : Inv (markActive d c) := by
  have hlt := priority_markActive_lt h c
  refine ⟨(forall_slot c).mpr ⟨?_, ?_⟩, fun _ => ?_⟩
  · rw [slots_markActive]
    exact ⟨fun h => h.2 rfl, UInt8.le_refl _, UInt8.le_refl _⟩
  · have hle : ((UBoot.markActive d c).slots c.other).priority ≤ AVB_AB_MAX_PRIORITY := by
      refine UInt8.le_of_lt ?_
      rwa [slots_markActive d c] at hlt
    rw [slots_markActive_other] at hle ⊢
    exact ⟨(h.slot c.other).legal, hle, (h.slot c.other).tries⟩
  · rcases c.eq_zero_or_one with rfl | rfl
    · exact (UInt8.ne_of_lt hlt).symm
    · exact UInt8.ne_of_lt hlt

/-! ## The choice after a load -/

theorem normalizeSlot_of_inv {x : AvbABSlotData} (h : SlotInv x) (hb : x.isBootable = true) :
    normalizeSlot x = x :=
  normalizeSlot_of_isBootable h.legal hb

/-- The slot with the highest priority among the bootable ones. -/
def Preferred (d : AvbABData) (c : Slot) : Prop :=
  (d.slots c).isBootable = true ∧
    ∀ c', c' ≠ c → (d.slots c').isBootable = true → (d.slots c').priority < (d.slots c).priority

theorem avbGetBootableSlot_eq_some_iff (h : Inv d) (c : Slot) :
    avbGetBootableSlot d = some c ↔ Preferred d c := by
  have hne := h.noTie
  rw [Fin.forall_fin_two] at hne
  rcases c.eq_zero_or_one with rfl | rfl
  all_goals
    simp only [avbGetBootableSlot, Preferred, Fin.forall_fin_two]
    cases ha : (d.slots 0).isBootable <;> cases hb : (d.slots 1).isBootable <;>
      simp only [ha, hb] at hne ⊢ <;> simp
  · exact ⟨fun h => UInt8.lt_of_le_of_ne (UInt8.not_lt.mp (by simpa using h)) (Ne.symm (hne (by simp))),
      fun h => by simpa using UInt8.le_of_lt h⟩

/-! ## Histories -/

/-- The operations, each with its arguments; the flow also with what its two local structures
hold on entry. -/
inductive Op where
  | markSlotActive (c : Slot)
  | markSlotUnbootable (c : Slot)
  | markSlotSuccessful (c : Slot)
  | flow (v : Verifier) (abData abDataOrig : AvbABData)

/-- An operation whose answer is dropped. -/
def Op.prog (depth : ℕ) : Op → Prog State Unit
  | .markSlotActive c => do let _ ← avbAbMarkSlotActive depth c
  | .markSlotUnbootable c => do let _ ← avbAbMarkSlotUnbootable depth c
  | .markSlotSuccessful c => do let _ ← avbAbMarkSlotSuccessful depth c
  | .flow v abData abDataOrig => do let _ ← avbAbFlow depth v abData abDataOrig

/-- What an operation makes of normalised metadata. -/
def Op.edit : Op → AvbABData → AvbABData
  | .markSlotActive c, d => UBoot.markActive d c
  | .markSlotUnbootable c, d => d.setSlot c (d.slots c).setUnbootable
  | .markSlotSuccessful c, d => UBoot.markSuccessful d c
  | .flow v _ _, d => (flowOutcome v d).2

/-- A load, an edit in memory and a save. -/
theorem run_edit (depth : ℕ) (h : AllOk s) (hm : (virtMsg s).isValid = true) (f : AvbABData → AvbABData) :
    ∃ m s', (do
        let (ret, abData, abDataOrig) ← loadMetadata (depth + 1) unused unused
        if ret ≠ .ok then
          return ret
        saveMetadataIfChanged (f abData) abDataOrig : Prog State IoResult).run s = (some .ok, s') ∧
      m.isValid = true ∧ Disk s s' (f (normalize (decoded (abData s)))).sealed m := by
  obtain ⟨m, t, hload, hmsg, ht⟩ := run_loadMetadata h depth unused unused fun _ => .inl hm
  have ho : abData t = (decoded (abData s)).sealed := by rw [ht.abData_eq, sealed_decoded]
  obtain ⟨s', hsave, hd⟩ := run_saveMetadataIfChanged (h.of_disk ht) ho
    (f (normalize (decoded (abData s))))
  refine ⟨m, s', ?_, hmsg.elim id fun h => h ▸ hm, ht.trans_data hd⟩
  rw [Prog.run_bind_of_some hload]
  exact hsave

theorem Op.run_prog (depth : ℕ) (h : AllOk s) (hm : (virtMsg s).isValid = true) (op : Op) :
    ∃ m s', (op.prog (depth + 1)).run s = (some (), s') ∧ m.isValid = true ∧
      Disk s s' (op.edit (normalize (decoded (abData s)))).sealed m := by
  cases op with
  | markSlotActive c =>
    obtain ⟨m, s', hrun, hmsg, hd⟩ := run_edit depth h hm (UBoot.markActive · c)
    exact ⟨m, s', Prog.run_bind_of_some hrun _, hmsg, hd⟩
  | markSlotUnbootable c =>
    obtain ⟨m, s', hrun, hmsg, hd⟩ := run_edit depth h hm
      fun d => d.setSlot c (d.slots c).setUnbootable
    exact ⟨m, s', Prog.run_bind_of_some hrun _, hmsg, hd⟩
  | markSlotSuccessful c =>
    obtain ⟨m, s', hrun, hmsg, hd⟩ := run_edit depth h hm (UBoot.markSuccessful · c)
    exact ⟨m, s', Prog.run_bind_of_some hrun _, hmsg, hd⟩
  | flow v a o =>
    obtain ⟨m, s', hrun, hmsg, hd⟩ := run_avbAbFlow h depth v a o fun _ => .inl hm
    exact ⟨m, s', Prog.run_bind_of_some hrun _, hmsg.elim id fun h => h ▸ hm, hd⟩

theorem Inv.flowEdit (h : Inv d) (he : FlowEdit v d d') : Inv d' := by
  cases he with
  | validated hm => exact h.of_cleared (cleared_clear _ _)
  | booted hm hc => exact (h.of_cleared (cleared_clear _ _)).decrementTries _

theorem Inv.edit (h : Inv d) (op : Op) : Inv (op.edit d) := by
  cases op with
  | markSlotActive c => exact h.markActive c
  | markSlotUnbootable c =>
    rw [Op.edit, setSlot_setUnbootable]
    exact h.of_cleared (cleared_clear _ _)
  | markSlotSuccessful c => exact h.markSuccessful c
  | flow v a o => exact h.flowEdit (flowOutcome_edit v d)

theorem isBootable_decrementTries {c c' : Slot}
    (hb : ((decrementTries d c).slots c').isBootable = true) : (d.slots c').isBootable = true := by
  simp only [decrementTries] at hb
  split at hb
  · rename_i hx
    by_cases hc : c' = c
    · rw [hc, AvbABData.slots_setSlot_same] at hb
      rw [hc]
      exact (AvbABSlotData.isBootable_iff _).mpr ⟨((AvbABSlotData.isBootable_iff _).mp hb).1, .inr hx.2⟩
    · rwa [AvbABData.slots_setSlot_ne _ _ hc] at hb
  · exact hb

theorem Cleared.isBootable_of (h : Cleared d d') {c : Slot} (hb : (d'.slots c).isBootable = true) :
    (d.slots c).isBootable = true := by
  have := h.isBootable hb
  rwa [this] at hb

theorem FlowEdit.isBootable (he : FlowEdit v d d') {c : Slot} (hb : (d'.slots c).isBootable = true) :
    (d.slots c).isBootable = true := by
  cases he with
  | validated hm => exact (cleared_clear _ _).isBootable_of hb
  | booted hm hc => exact (cleared_clear _ _).isBootable_of (isBootable_decrementTries hb)

/-- Only `avb_ab_mark_slot_active` of a slot makes it bootable. -/
theorem Op.isBootable_edit {op : Op} {c : Slot} (hb : ((op.edit d).slots c).isBootable = true)
    (hop : op ≠ .markSlotActive c) : (d.slots c).isBootable = true := by
  cases op with
  | markSlotActive c' =>
    have hc : c' ≠ c := fun h => hop (h ▸ rfl)
    rw [Op.edit, ← Slot.other_eq_of_ne hc] at hb
    rw [← Slot.other_eq_of_ne hc]
    exact isBootable_markActive_other hb
  | markSlotUnbootable c' =>
    rw [Op.edit, setSlot_setUnbootable] at hb
    exact (cleared_clear _ _).isBootable_of hb
  | markSlotSuccessful c' =>
    rw [Op.edit, UBoot.markSuccessful] at hb
    split at hb
    · rename_i hboot
      by_cases hc : c = c'
      · exact hc ▸ hboot
      · rwa [AvbABData.slots_setSlot_ne _ _ hc] at hb
    · exact hb
  | flow v a o => exact (flowOutcome_edit v d).isBootable hb

/-- Metadata as the next load has it in memory. -/
def nextLoad (s : State) : AvbABData := normalize (decoded (abData s))

/-- What holds of the stored metadata between operations. -/
structure Good (s : State) : Prop where
  ok : AllOk s
  msg : (virtMsg s).isValid = true
  inv : Inv (loaded (abData s))

theorem Good.nextLoad (h : Good s) : Inv (nextLoad s) :=
  (h.inv.of_slots (slots_decoded _)).of_cleared (cleared_normalize _)

/-- The next load keeps every bootable slot as it is stored. -/
theorem Good.slots_nextLoad (h : Good s) {c : Slot}
    (hb : ((loaded (abData s)).slots c).isBootable = true) :
    (UBoot.nextLoad s).slots c = (loaded (abData s)).slots c := by
  rw [UBoot.nextLoad, slots_normalize, slots_decoded]
  exact normalizeSlot_of_inv (h.inv.slot c) hb

theorem FlowEdit.header (he : FlowEdit v d d') :
    d'.magic = d.magic ∧ d'.versionMajor = d.versionMajor := by
  cases he with
  | validated hm => exact ⟨rfl, rfl⟩
  | booted hm hc => simp only [decrementTries]; split <;> exact ⟨rfl, rfl⟩

theorem edit_header (op : Op) (d : AvbABData) :
    (op.edit d).magic = d.magic ∧ (op.edit d).versionMajor = d.versionMajor := by
  cases op with
  | markSlotActive c => simp only [Op.edit, UBoot.markActive]; split <;> exact ⟨rfl, rfl⟩
  | markSlotUnbootable c => exact ⟨rfl, rfl⟩
  | markSlotSuccessful c => simp only [Op.edit, UBoot.markSuccessful]; split <;> exact ⟨rfl, rfl⟩
  | flow v a o => exact (flowOutcome_edit v d).header

/-- One operation: `s'` is reached from `s` by `op`. -/
def Step (depth : ℕ) (s : State) (op : Op) (s' : State) : Prop :=
  (op.prog (depth + 1)).run s = (some (), s')

theorem Step.spec {op : Op} (h : Good s) (hs : Step depth s op s') :
    abData s' = (op.edit (nextLoad s)).sealed ∧ (abData s').Valid ∧ Good s' := by
  obtain ⟨m, s'', hrun, hmsg, hd⟩ := Op.run_prog depth h.ok h.msg op
  rw [Step, hrun] at hs
  obtain rfl : s'' = s' := congrArg Prod.snd hs
  have hdata : abData s'' = (op.edit (nextLoad s)).sealed := hd.abData_eq
  have hvalid : (abData s'').Valid := by
    obtain ⟨hmagic, hversion⟩ := edit_header op (nextLoad s)
    rw [hdata]
    refine AvbABData.valid_sealed ?_ ?_
    · rw [hmagic]
      exact (valid_decoded _).1
    · rw [hversion]
      exact (valid_decoded _).2
  refine ⟨hdata, hvalid, h.ok.of_disk hd, by rw [hd.virtMsg_eq]; exact hmsg, ?_⟩
  rw [loaded_of_valid hvalid, hdata]
  exact (h.nextLoad.edit op).of_slots (AvbABData.slots_sealed _)

/-- What an operation `op` that goes from `s` to `s'` guarantees. -/
structure Guarantee (s : State) (op : Op) (s' : State) : Prop where
  valid : (abData s').Valid
  inv : Inv (abData s')
  choice : ∀ c, avbGetBootableSlot (nextLoad s') = some c ↔ Preferred (nextLoad s') c
  kept : ∀ c, ((abData s').slots c).isBootable = true → (nextLoad s').slots c = (abData s').slots c
  revived : ∀ c, ((loaded (abData s)).slots c).isBootable = false →
    ((abData s').slots c).isBootable = true → op = .markSlotActive c
  active : ∀ c, op = .markSlotActive c → avbGetBootableSlot (nextLoad s') = some c

theorem Step.guarantee {op : Op} (h : Good s) (hs : Step depth s op s') : Guarantee s op s' := by
  obtain ⟨hdata, hvalid, hgood⟩ := hs.spec h
  have hinv := hgood.inv
  have hkept := @Good.slots_nextLoad _ hgood
  rw [loaded_of_valid hvalid] at hinv hkept
  have hchoice := avbGetBootableSlot_eq_some_iff hgood.nextLoad
  refine ⟨hvalid, hinv, hchoice, fun c => hkept, fun c hno hb => ?_, ?_⟩
  · by_contra hop
    rw [hdata, AvbABData.slots_sealed] at hb
    have := (cleared_normalize _).isBootable_of (op.isBootable_edit hb hop)
    rw [slots_decoded, hno] at this
    cases this
  · rintro c rfl
    have hedit : (abData s').slots = (UBoot.markActive (nextLoad s) c).slots := by
      rw [hdata, AvbABData.slots_sealed]
      rfl
    have hself : (nextLoad s').slots c = (UBoot.markActive (nextLoad s) c).slots c := by
      rw [hkept, hedit]
      rw [hedit]
      exact isBootable_markActive _ c
    refine (hchoice c).mpr ⟨by rw [hself]; exact isBootable_markActive _ c, fun c' hc' hb => ?_⟩
    obtain rfl := Slot.other_eq_of_ne hc'.symm
    have hslots : (decoded (abData s')).slots = (abData s').slots := by
      rw [slots_decoded, loaded_of_valid hvalid]
    have hother : (nextLoad s').slots c.other = (UBoot.markActive (nextLoad s) c).slots c.other := by
      rw [← hedit, ← hslots]
      exact (cleared_normalize _).isBootable hb
    rw [hother, hself]
    exact priority_markActive_lt h.nextLoad c

/-- Over any history of the operations whose accesses succeed, from the default metadata or
metadata in the invariant, every operation returns and keeps the invariant; the choice of the
next load is unique, that load keeps the bootable slots, a slot becomes bootable only by being
marked active, and is then the choice. -/
theorem history_keeps_invariant {l : List (State × Op × State)} (h : AllOk s)
    (hm : (virtMsg s).isValid = true) (hi : Inv (loaded (abData s)))
    (hl : Runs (Step depth) s l t) :
    (∀ x ∈ l, Guarantee x.1 x.2.1 x.2.2) ∧ ∀ op, ∃ t', Step depth t op t' := by
  obtain ⟨hgood, hall⟩ := Runs.invariant (I := Good) (P := Guarantee)
    (fun s op s' hs hstep => ⟨(hstep.spec hs).2.2, hstep.guarantee hs⟩) ⟨h, hm, hi⟩ hl
  refine ⟨hall, fun op => ?_⟩
  obtain ⟨m, t', hrun, -⟩ := Op.run_prog depth hgood.ok hgood.msg op
  exact ⟨t', hrun⟩

theorem history_keeps_invariant_newDevice :
    ∃ t, Step 0 newDevice (.markSlotActive AVB_AB_SLOT_B) t ∧
      avbGetBootableSlot (nextLoad t) = some AVB_AB_SLOT_B := by
  have hdata : abData newDevice = blockOf ⟨15, 7, 0, 0⟩ ⟨14, 7, 0, 0⟩ := abData_device _ _ _
  have hmsg : (virtMsg newDevice).isValid = true := by
    rw [newDevice, virtMsg_device]
    exact isValid_messageOf (by decide) _
  have hinv : Inv (loaded (abData newDevice)) := by
    rw [hdata, loaded_of_valid (valid_blockOf _ _)]
    refine ⟨fun c => ?_, fun _ => by rw [slots_blockOf]; decide⟩
    rw [slots_blockOf]
    rcases c.eq_zero_or_one with rfl | rfl <;> exact ⟨by decide, by decide, by decide⟩
  obtain ⟨m, t, hrun, -⟩ := Op.run_prog 0 (allOk_device _ _) hmsg (.markSlotActive AVB_AB_SLOT_B)
  obtain ⟨hall, -⟩ := history_keeps_invariant (allOk_device _ _) hmsg hinv
    (.cons (show Step 0 newDevice (.markSlotActive AVB_AB_SLOT_B) t from hrun) (.nil t))
  exact ⟨t, hrun, (hall _ (List.mem_singleton_self _)).active AVB_AB_SLOT_B rfl⟩

end RCar.UBoot
