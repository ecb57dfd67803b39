import RCarM3N.Lib.Runs
import RCarM3N.Proofs.Gpt

/-! Whole runs of the A/B boot of BL2: calls of the flow one after the other, with anything
but the card changed by the reset between them. Every boot of a slot that never booted
successfully has used up one of its tries on the card. -/

namespace RCar.Bl2

variable {b : ℕ} {s s' t : State} {d : AvbABData} {rc : Slot → ℤ}

/-- A boot: the card is as the boot before left it, and works. -/
def Boot (s : State) (r : FlowResult) (s' : State) : Prop :=
  ∃ t : State, t.part = s.part ∧ t.outcomes = s.outcomes ∧ avbAbFlow.run t = (some r, s')

/-- What a boot does to the card. -/
theorem Boot.spec {r : FlowResult} (h : Ready b s) (hb : Boot s r s') :
    ∃ rc, r = bootResult (decision b s rc) ∧
      Disk b s s' (bootData (loaded (abData b s)) (decision b s rc))
        (flowMsg (decision b s rc) (virtMsg b s)) ∧
      ∀ c, currSlot (decision b s rc) = some c → Reports s' c := by
  obtain ⟨t, hp, ho, hrun⟩ := hb
  have hd : Disk b s t (abData b s) (virtMsg b s) := Disk.of_eq hp ho
  obtain ⟨rc, u, hrc⟩ := iplResults_of_run (h.of_disk hd) hrun
  obtain ⟨s'', hrun', hd', hrep⟩ := run_avbAbFlow (h.of_disk hd) hrc
  rw [hrun] at hrun'
  cases hrun'
  have hdata : abData b t = abData b s := hd.abData_eq
  have := hd.trans hd'
  refine ⟨rc, ?_, ?_, ?_⟩
  · simp only [decision, hdata]
  · rwa [hd.virtMsg_eq, decision, hdata] at this
  · rwa [decision, hdata] at hrep

theorem valid_bootData {old d : AvbABData} (ho : old.Valid) (hm : d.magic = AVB_AB_MAGIC)
    (hv : d.versionMajor ≤ AVB_AB_MAJOR_VERSION) : (bootData old d).Valid := by
  unfold bootData
  split
  · exact AvbABData.valid_sealed hm hv
  · split
    · exact ho
    · exact AvbABData.valid_sealed hm hv

theorem Boot.valid {r : FlowResult} (h : Ready b s) (hb : Boot s r s') : (abData b s').Valid := by
  obtain ⟨rc, -, hd, -⟩ := hb.spec h
  have hv := valid_loaded (abData b s)
  rw [hd.abData_eq]
  exact valid_bootData hv hv.magic hv.version

theorem toNat_sub_one {x : UInt8} (h : 0 < x) : (x - 1).toNat + 1 = x.toNat := by
  have h1 : 1 ≤ x := h
  have h2 : 0 < x.toNat := UInt8.lt_iff_toNat_lt.mp h
  rw [UInt8.toNat_sub_of_le _ _ h1]
  change x.toNat - 1 + 1 = x.toNat
  omega

/-- The tries of a slot on the card. -/
def tries (b : ℕ) (s : State) (c : Slot) : ℕ := ((abData b s).slots c).triesRemaining.toNat

/-- The slot that a boot reports is the one it has stored a used try for, unless that slot
has booted successfully before. -/
theorem Boot.ok (h : Ready b s) (hv : (abData b s).Valid) (hb : Boot s .ok s') :
    ∃ c, Reports s' c ∧ (((abData b s).slots c).isBootable = true) ∧
      (((abData b s).slots c).successfulBoot = 0 → tries b s' c + 1 = tries b s c) := by
  obtain ⟨rc, hr, hd, hrep⟩ := hb.spec h
  rcases hc : currSlot (decision b s rc) with _ | c
  · rw [bootResult, hc] at hr
    cases hr
  · have hboot := isBootable_of_currSlot hc
    rw [decision, loaded_of_valid hv] at hboot hc
    have hslot := slots_of_isBootable_marked hboot
    rw [hslot] at hboot
    refine ⟨c, hrep c (by rwa [decision, loaded_of_valid hv]), hboot, fun hs => ?_⟩
    have htries : 0 < ((abData b s).slots c).triesRemaining := by
      rcases ((AvbABSlotData.isBootable_iff _).mp hboot).2 with h' | h'
      · exact absurd hs h'
      · exact h'
    rw [tries, hd.abData_eq, bootData, decision, loaded_of_valid hv, hc]
    simp only [hslot, hs, ne_eq, not_true_eq_false, if_false, AvbABData.slots_sealed, useTry,
      AvbABData.slots_setSlot_same]
    exact toNat_sub_one htries

/-- On a card where no slot ever booted successfully, a boot uses up a try or stops for good. -/
theorem Boot.budget {r : FlowResult} (h : Ready b s) (hv : (abData b s).Valid)
    (hs : ∀ c, ((abData b s).slots c).successfulBoot = 0) (hb : Boot s r s') :
    (r = .ok ∧ (∀ c, ((abData b s').slots c).successfulBoot = 0) ∧
        tries b s' 0 + tries b s' 1 + 1 ≤ tries b s 0 + tries b s 1) ∨
      (r = .errorNoBootableSlots ∧ ∀ c, ((abData b s').slots c).isBootable = false) := by
  obtain ⟨rc, hr, hd, -⟩ := hb.spec h
  have hdec : decision b s rc = marked rc (abData b s) := by rw [decision, loaded_of_valid hv]
  rw [hdec] at hr hd
  have hle : ∀ c, ((marked rc (abData b s)).slots c).triesRemaining.toNat ≤ tries b s c := by
    intro c
    rw [slots_marked]
    split
    · exact Nat.zero_le _
    · exact Nat.le_refl _
  have hs' : ∀ c, ((marked rc (abData b s)).slots c).successfulBoot = 0 := by
    intro c
    rw [slots_marked]
    split
    · rfl
    · exact hs c
  rcases hc : currSlot (marked rc (abData b s)) with _ | c
  · right
    refine ⟨by rw [hr, bootResult, hc]; rfl, fun c => ?_⟩
    rw [hd.abData_eq, bootData, hc]
    exact currSlot_eq_none.mp hc c
  · left
    have hboot := isBootable_of_currSlot hc
    have htries : 0 < ((marked rc (abData b s)).slots c).triesRemaining := by
      rcases ((AvbABSlotData.isBootable_iff _).mp hboot).2 with h' | h'
      · exact absurd (hs' c) h'
      · exact h'
    have hdata : abData b s' = (useTry (marked rc (abData b s)) c).sealed := by
      rw [hd.abData_eq, bootData, hc]
      exact if_neg (not_not.mpr (hs' c))
    have hself : tries b s' c + 1 ≤ tries b s c := by
      rw [tries, hdata, AvbABData.slots_sealed, useTry, AvbABData.slots_setSlot_same]
      exact (toNat_sub_one htries).trans_le (hle c)
    have hother : ∀ c', c' ≠ c → tries b s' c' ≤ tries b s c' := by
      intro c' hne
      rw [tries, hdata, AvbABData.slots_sealed, useTry, AvbABData.slots_setSlot_ne _ _ hne]
      exact hle c'
    refine ⟨by rw [hr, bootResult, hc]; rfl, fun c' => ?_, ?_⟩
    · rw [hdata, AvbABData.slots_sealed, useTry]
      by_cases hne : c' = c
      · subst hne
        rw [AvbABData.slots_setSlot_same]
        exact hs' c'
      · rw [AvbABData.slots_setSlot_ne _ _ hne]
        exact hs' c'
    · fin_cases c
      · exact (Nat.add_right_comm _ _ _).trans_le (Nat.add_le_add hself (hother 1 (by decide)))
      · exact (Nat.add_assoc _ _ _).trans_le (Nat.add_le_add (hother 0 (by decide)) hself)

/-- A card without a bootable slot stays so. -/
theorem Boot.stopped {r : FlowResult} (h : Ready b s) (hv : (abData b s).Valid)
    (hs : ∀ c, ((abData b s).slots c).isBootable = false) (hb : Boot s r s') :
    r = .errorNoBootableSlots ∧ ∀ c, ((abData b s').slots c).isBootable = false := by
  obtain ⟨rc, hr, hd, -⟩ := hb.spec h
  have hnone : currSlot (decision b s rc) = none := by
    rw [currSlot_eq_none, decision, loaded_of_valid hv]
    intro c
    rw [slots_marked]
    split
    · rfl
    · exact hs c
  refine ⟨by rw [hr, bootResult, hnone]; rfl, fun c => ?_⟩
  rw [hd.abData_eq, bootData, hnone]
  exact currSlot_eq_none.mp hnone c

theorem Boot.ready {r : FlowResult} (h : Ready b s) (hb : Boot s r s') : Ready b s' := by
  obtain ⟨rc, -, hd, -⟩ := hb.spec h
  exact h.of_disk hd

theorem ready_of_runs {l : List (State × FlowResult × State)} (h : Ready b s)
    (hl : Runs Boot s l t) : Ready b t :=
  (Runs.invariant (I := Ready b) (P := fun _ _ _ => True)
    (fun _ _ _ hs hb => ⟨hb.ready hs, trivial⟩) h hl).1

/-- A new card: slots with all their tries, and images that pass. -/
def newCard : State :=
  card (blockOf ⟨15, 7, 0, 0⟩ ⟨14, 7, 0, 0⟩) (messageOf VIRTUAL_AB_NONE 0) fun _ => true

theorem boot_newCard : ∃ t, Boot newCard .ok t := by
  obtain ⟨-, t, -, hrun, -⟩ := run_avbAbFlow_card (blockOf ⟨15, 7, 0, 0⟩ ⟨14, 7, 0, 0⟩)
    (messageOf VIRTUAL_AB_NONE 0) (fun _ => true) (valid_blockOf _ _)
  exact ⟨t, newCard, rfl, rfl, hrun⟩

end RCar.Bl2
