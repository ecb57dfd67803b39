import RCarM3N.Proofs.Exchange
import RCarM3N.Proofs.Bl2Runs
import RCarM3N.Proofs.UBootTermination

/-! The boot chain: BL2 chooses a slot and uses up one of its tries, the boot command of U-Boot
gives one back, and the flow of U-Boot chooses again. -/

namespace RCar

variable {b : ℕ} {d e : AvbABData} {c c' : Slot} {x y : AvbABSlotData}

/-! ## The two choices -/

/-- `c` is bootable and no better slot is; of two equal priorities, that of `tie` is better. -/
def Chosen (tie : Slot) (d : AvbABData) (c : Slot) : Prop :=
  (d.slots c).isBootable = true ∧ ((d.slots c.other).isBootable = true →
    (d.slots c.other).priority < (d.slots c).priority ∨
      c = tie ∧ (d.slots c.other).priority = (d.slots c).priority)

/-- The choice of BL2. -/
theorem currSlot_eq_some_iff : Bl2.currSlot d = some c ↔ Chosen AVB_AB_SLOT_B d c := by
  have hle := UInt8.le_iff_lt_or_eq (a := (d.slots 0).priority) (b := (d.slots 1).priority)
  rcases c.eq_zero_or_one with rfl | rfl
  all_goals
    simp only [Bl2.currSlot, Chosen, Slot.other]
    cases ha : (d.slots 0).isBootable <;> cases hb : (d.slots 1).isBootable <;> simp [ha, hb]
  exact hle

/-- The choice of U-Boot. -/
theorem avbGetBootableSlot_eq_some_iff :
    UBoot.avbGetBootableSlot d = some c ↔ Chosen AVB_AB_SLOT_A d c := by
  have hle := UInt8.le_iff_lt_or_eq (a := (d.slots 1).priority) (b := (d.slots 0).priority)
  rcases c.eq_zero_or_one with rfl | rfl
  all_goals
    simp only [UBoot.avbGetBootableSlot, Chosen, Slot.other]
    cases ha : (d.slots 0).isBootable <;> cases hb : (d.slots 1).isBootable <;> simp [ha, hb]
  exact hle

/-! ## The try that goes and comes back -/

/-- What BL2 does to the slot it boots. -/
def useOne (x : AvbABSlotData) : AvbABSlotData :=
  if x.successfulBoot = 0 then { x with triesRemaining := x.triesRemaining - 1 } else x

/-- What the boot command does to the slot it takes for the active one. -/
def giveBack (x : AvbABSlotData) : AvbABSlotData :=
  if x.successfulBoot = 0 ∧ x.triesRemaining ≠ 0 ∧ x.triesRemaining < AVB_AB_MAX_TRIES_REMAINING then
    { x with triesRemaining := x.triesRemaining + 1 }
  else
    x

/-- The slot that the boot command takes for the active one. -/
def activeSlot (d : AvbABData) : Slot :=
  if (d.slots 1).priority < (d.slots 0).priority then 0 else 1

def giveBackTry (d : AvbABData) : AvbABData :=
  d.setSlot (activeSlot d) (giveBack (d.slots (activeSlot d)))

theorem slots_bootData (hc : Bl2.currSlot d = some c) (c' : Slot) :
    (Bl2.bootData d d).slots c' = if c' = c then useOne (d.slots c) else d.slots c' := by
  rw [Bl2.bootData, hc]
  by_cases hs : (d.slots c).successfulBoot = 0
  · rw [useOne, if_pos hs]
    simp only [hs, ne_eq, not_true_eq_false, if_false, AvbABData.slots_sealed, Bl2.useTry]
    by_cases hcc : c' = c
    · rw [hcc, AvbABData.slots_setSlot_same, if_pos rfl]
    · rw [AvbABData.slots_setSlot_ne _ _ hcc, if_neg hcc]
  · rw [useOne, if_neg hs]
    simp only [ne_eq, hs, not_false_eq_true, if_true]
    split
    · rename_i hcc
      rw [hcc]
    · rfl

theorem slots_giveBackTry (e : AvbABData) (c : Slot) :
    (giveBackTry e).slots c = if c = activeSlot e then giveBack (e.slots c) else e.slots c := by
  rw [giveBackTry]
  by_cases hc : c = activeSlot e
  · rw [if_pos hc, ← hc, AvbABData.slots_setSlot_same]
  · rw [if_neg hc, AvbABData.slots_setSlot_ne _ _ hc]

@[simp] theorem priority_useOne (x : AvbABSlotData) : (useOne x).priority = x.priority := by
  unfold useOne
  split <;> rfl

@[simp] theorem priority_giveBack (x : AvbABSlotData) : (giveBack x).priority = x.priority := by
  unfold giveBack
  split <;> rfl

@[simp] theorem successfulBoot_useOne (x : AvbABSlotData) :
    (useOne x).successfulBoot = x.successfulBoot := by
  unfold useOne
  split <;> rfl

@[simp] theorem successfulBoot_giveBack (x : AvbABSlotData) :
    (giveBack x).successfulBoot = x.successfulBoot := by
  unfold giveBack
  split <;> rfl

theorem useOne_of_successful (h : x.successfulBoot ≠ 0) : useOne x = x := if_neg h

theorem giveBack_of_successful (h : x.successfulBoot ≠ 0) : giveBack x = x :=
  if_neg fun h' => h h'.1

theorem giveBack_of_not_isBootable (hp : 0 < x.priority) (h : x.isBootable = false) :
    giveBack x = x := by
  refine if_neg fun ⟨_, ht, _⟩ => ?_
  rw [(AvbABSlotData.isBootable_iff x).mpr ⟨hp, .inr (UInt8.pos_iff_ne_zero.mpr ht)⟩] at h
  cases h

theorem triesRemaining_useOne (hs : x.successfulBoot = 0) (ht : 0 < x.triesRemaining) :
    (useOne x).triesRemaining.toNat = x.triesRemaining.toNat - 1 := by
  have h1 : (1 : UInt8) ≤ x.triesRemaining := ht
  rw [useOne, if_pos hs, UInt8.toNat_sub_of_le _ _ h1]
  rfl

theorem triesRemaining_giveBack (hs : x.successfulBoot = 0) :
    (giveBack x).triesRemaining.toNat = if 0 < x.triesRemaining.toNat ∧ x.triesRemaining.toNat < 7 then
      x.triesRemaining.toNat + 1 else x.triesRemaining.toNat := by
  have h0 : x.triesRemaining ≠ 0 ↔ 0 < x.triesRemaining.toNat := by
    rw [← UInt8.pos_iff_ne_zero, UInt8.lt_iff_toNat_lt]
    rfl
  have h7 : x.triesRemaining < AVB_AB_MAX_TRIES_REMAINING ↔ x.triesRemaining.toNat < 7 :=
    UInt8.lt_iff_toNat_lt
  rw [giveBack]
  by_cases h : 0 < x.triesRemaining.toNat ∧ x.triesRemaining.toNat < 7
  · rw [if_pos ⟨hs, h0.mpr h.1, h7.mpr h.2⟩, if_pos h]
    rw [UInt8.toNat_add]
    have : (1 : UInt8).toNat = 1 := rfl
    omega
  · rw [if_neg fun h' => h ⟨h0.mp h'.2.1, h7.mp h'.2.2⟩, if_neg h]

/-- BL2's try and the one given back, for the slot that BL2 has booted. -/
theorem triesRemaining_giveBack_useOne (hs : x.successfulBoot = 0) (ht : 0 < x.triesRemaining) :
    (giveBack (useOne x)).triesRemaining.toNat =
      if x.triesRemaining.toNat = 1 then 0
      else if x.triesRemaining.toNat ≤ 7 then x.triesRemaining.toNat
      else x.triesRemaining.toNat - 1 := by
  have h0 : 0 < x.triesRemaining.toNat := UInt8.lt_iff_toNat_lt.mp ht
  rw [triesRemaining_giveBack ((successfulBoot_useOne x).trans hs), triesRemaining_useOne hs ht]
  split_ifs <;> omega

/-! ## The metadata that U-Boot loads -/

/-- The metadata after BL2 and the boot command. -/
structure Prepared (d e : AvbABData) (c : Slot) : Prop where
  self : e.slots c = if c = activeSlot d then giveBack (useOne (d.slots c)) else useOne (d.slots c)
  other : e.slots c.other = d.slots c.other

theorem activeSlot_congr (h : ∀ c, (d.slots c).priority = (e.slots c).priority) :
    activeSlot d = activeSlot e := by
  rw [activeSlot, activeSlot, h, h]

/-- The boot command gives the try back to the slot that BL2 has booted, or to none. -/
theorem prepared_giveBackTry (hc : Chosen AVB_AB_SLOT_B d c)
    (he : e.slots = (Bl2.bootData d d).slots) : Prepared d (giveBackTry e) c := by
  have hslots : ∀ c', e.slots c' = if c' = c then useOne (d.slots c) else d.slots c' := by
    intro c'
    rw [he, slots_bootData (currSlot_eq_some_iff.mpr hc)]
  have hactive : activeSlot e = activeSlot d := by
    refine activeSlot_congr fun c' => ?_
    rw [hslots]
    split
    · rename_i hcc
      rw [priority_useOne, hcc]
    · rfl
  have hself : e.slots c = useOne (d.slots c) := (hslots c).trans (if_pos rfl)
  have hother : e.slots c.other = d.slots c.other := (hslots _).trans (if_neg c.other_ne)
  refine ⟨?_, ?_⟩
  · rw [slots_giveBackTry, hactive, hself]
  · rw [slots_giveBackTry, hactive, hother]
    split
    · rename_i ha
      -- the active slot has at least the priority of the other one, so it is not bootable
      have hge : (d.slots c).priority ≤ (d.slots c.other).priority ∧
          ¬ (c = AVB_AB_SLOT_B ∧ (d.slots c.other).priority = (d.slots c).priority) := by
        rcases c.eq_zero_or_one with rfl | rfl
        all_goals
          simp only [activeSlot, Slot.other] at ha ⊢
          split at ha
          · rename_i hlt
            first
            | exact absurd ha (by decide)
            | exact ⟨UInt8.le_of_lt hlt, fun h => UInt8.ne_of_lt hlt h.2.symm⟩
          · rename_i hlt
            first
            | exact absurd ha (by decide)
            | exact ⟨UInt8.not_lt.mp hlt, fun h => absurd h.1 (by decide)⟩
      have hb : (d.slots c.other).isBootable = false := by
        by_contra hne
        rcases hc.2 (Bool.eq_true_of_not_eq_false hne) with h | h
        · exact absurd hge.1 (UInt8.not_le.mpr h)
        · exact hge.2 h
      refine giveBack_of_not_isBootable ?_ hb
      exact UInt8.lt_of_lt_of_le ((AvbABSlotData.isBootable_iff _).mp hc.1).1 hge.1
    · rfl

theorem toNat_pos (t : UInt8) : 0 < t ↔ 0 < t.toNat := UInt8.lt_iff_toNat_lt

/-- A slot that has a try left after BL2 has used one, whether or not it is given back. -/
theorem isBootable_normalizeSlot_self (hx : x.isBootable = true)
    (hy : y = giveBack (useOne x) ∨ y = useOne x) :
    (UBoot.normalizeSlot y).isBootable = true ↔
      ¬ (x.successfulBoot = 0 ∧ x.triesRemaining = 1) ∧
        ¬ (0 < x.triesRemaining ∧ x.successfulBoot ≠ 0) := by
  have hprio : y.priority = x.priority := by rcases hy with rfl | rfl <;> simp
  have hsucc : y.successfulBoot = x.successfulBoot := by rcases hy with rfl | rfl <;> simp
  obtain ⟨hp, hboot⟩ := (AvbABSlotData.isBootable_iff x).mp hx
  rw [UBoot.isBootable_normalizeSlot, AvbABSlotData.isBootable_iff, hprio, hsucc]
  by_cases hs : x.successfulBoot = 0
  · have ht : 0 < x.triesRemaining := hboot.resolve_left fun h => h hs
    have h1 : x.triesRemaining = 1 ↔ x.triesRemaining.toNat = 1 := UInt8.toNat_inj.symm
    have hty : 0 < y.triesRemaining.toNat ↔ x.triesRemaining.toNat ≠ 1 := by
      have := (toNat_pos _).mp ht
      rcases hy with rfl | rfl
      · rw [triesRemaining_giveBack_useOne hs ht]
        split_ifs <;> omega
      · rw [triesRemaining_useOne hs ht]
        omega
    rw [toNat_pos y.triesRemaining, hty, h1]
    simp [hs, hp]
  · have hxy : y = x := by
      rcases hy with rfl | rfl
      · rw [useOne_of_successful hs, giveBack_of_successful hs]
      · exact useOne_of_successful hs
    simp [hs, hp, hxy]

/-- The slot that BL2 boots is the one that U-Boot chooses: it does not boot on its last try, it
is not successful with tries left, and it does not win a tie. -/
structure Agrees (d : AvbABData) (c : Slot) : Prop where
  lastTry : ¬ ((d.slots c).successfulBoot = 0 ∧ (d.slots c).triesRemaining = 1)
  legal : ¬ (0 < (d.slots c).triesRemaining ∧ (d.slots c).successfulBoot ≠ 0)
  noTie : ¬ ((d.slots c.other).isBootable = true ∧
    ¬ (0 < (d.slots c.other).triesRemaining ∧ (d.slots c.other).successfulBoot ≠ 0) ∧
      c = AVB_AB_SLOT_B ∧ (d.slots c.other).priority = (d.slots c).priority)

theorem Prepared.or (h : Prepared d e c) :
    e.slots c = giveBack (useOne (d.slots c)) ∨ e.slots c = useOne (d.slots c) := by
  rw [h.self]
  split
  · exact .inl rfl
  · exact .inr rfl

theorem Prepared.priority (h : Prepared d e c) : (e.slots c).priority = (d.slots c).priority := by
  rcases h.or with h | h <;> simp [h]

theorem priority_normalizeSlot (h : (UBoot.normalizeSlot x).isBootable = true) :
    (UBoot.normalizeSlot x).priority = x.priority := by
  obtain ⟨hb, hl⟩ := (UBoot.isBootable_normalizeSlot x).mp h
  rw [UBoot.normalizeSlot_of_isBootable hl hb]

theorem avbGetBootableSlot_prepared (hc : Chosen AVB_AB_SLOT_B d c) (he : Prepared d e c) :
    UBoot.avbGetBootableSlot (UBoot.normalize e) = some c ↔ Agrees d c := by
  have hself := isBootable_normalizeSlot_self hc.1 he.or
  have hother := UBoot.isBootable_normalizeSlot (d.slots c.other)
  rw [avbGetBootableSlot_eq_some_iff, Chosen, UBoot.slots_normalize, UBoot.slots_normalize, he.other,
    hself]
  constructor
  · rintro ⟨⟨hlast, hlegal⟩, hbest⟩
    refine ⟨hlast, hlegal, fun ⟨hb, hl, hB, heq⟩ => ?_⟩
    have hbn := hother.mpr ⟨hb, hl⟩
    have hx := hself.mpr ⟨hlast, hlegal⟩
    rcases hbest hbn with hlt | ⟨hA, -⟩
    · rw [priority_normalizeSlot hbn, priority_normalizeSlot hx, he.priority, heq] at hlt
      exact UInt8.lt_irrefl _ hlt
    · exact absurd (hA.symm.trans hB) (by decide)
  · rintro ⟨hlast, hlegal, htie⟩
    refine ⟨⟨hlast, hlegal⟩, fun hbn => ?_⟩
    obtain ⟨hb, hl⟩ := hother.mp hbn
    rw [priority_normalizeSlot hbn, priority_normalizeSlot (hself.mpr ⟨hlast, hlegal⟩), he.priority]
    rcases hc.2 hb with hlt | htie'
    · exact .inl hlt
    · exact absurd ⟨hb, hl, htie'⟩ htie

/-! ## U-Boot on what BL2 has left -/

namespace UBoot

variable {u u' : State} {depth : ℕ} {a o orig : AvbABData}

theorem run_incMetadataTriesRemaining (h : AllOk u) :
    ∃ u', incMetadataTriesRemaining.run u = (some .ok, u') ∧
      Disk u u' (giveBackTry (decoded (abData u))).sealed (virtMsg u) := by
  obtain ⟨t, hread, ht⟩ := run_avbAbDataRead h unused
  unfold incMetadataTriesRemaining
  rw [Prog.run_bind_of_some hread]
  simp only [ne_eq, not_true_eq_false, if_false]
  obtain ⟨n, hn⟩ : ∃ n, activeSlot (decoded (abData u)) = n := ⟨_, rfl⟩
  have hn' : (if ((decoded (abData u)).slots 1).priority < ((decoded (abData u)).slots 0).priority
      then (0 : Slot) else 1) = n := hn
  rw [giveBackTry, hn, giveBack]
  simp only [hn']
  by_cases hx : ((decoded (abData u)).slots n).successfulBoot = 0 ∧
      ((decoded (abData u)).slots n).triesRemaining ≠ 0 ∧
      ((decoded (abData u)).slots n).triesRemaining < AVB_AB_MAX_TRIES_REMAINING
  · rw [if_pos hx, if_pos hx]
    obtain ⟨u', hwrite, hd⟩ := run_avbAbDataWrite (h.of_disk ht)
      ((decoded (abData u)).setSlot n { (decoded (abData u)).slots n with
        triesRemaining := ((decoded (abData u)).slots n).triesRemaining + 1 })
    exact ⟨u', hwrite, ht.trans_data hd⟩
  · rw [if_neg hx, if_neg hx, AvbABData.setSlot_slots, sealed_decoded]
    exact ⟨t, rfl, ht⟩

/-- A load that returns has read the block. -/
theorem orig_of_loadMetadata {ret : IoResult} (h : AllOk u)
    (hl : (loadMetadata depth a o).run u = (some (ret, d, orig), u')) :
    ret = .ok ∧ orig = decoded (abData u) := by
  cases depth with
  | zero => cases hl
  | succ depth =>
    obtain ⟨t, hread, -⟩ := run_avbAbDataRead h a
    unfold loadMetadata loadMetadataWith at hl
    rw [Prog.run_bind_of_some hread] at hl
    simp only [ne_eq, not_true_eq_false, if_false] at hl
    obtain ⟨_, _, -, hl⟩ := Prog.run_bind_eq_some hl
    obtain ⟨_, _, -, hl⟩ := Prog.run_bind_eq_some hl
    simp only [Prog.run_pure, Prod.mk.injEq, Option.some.injEq] at hl
    exact ⟨hl.1.1.symm, hl.1.2.2.symm⟩

theorem ret_of_loadMetadata {ret : IoResult} (h : AllOk u)
    (hl : (loadMetadata depth a o).run u = (some (ret, d, orig), u')) : ret = .ok :=
  (orig_of_loadMetadata h hl).1

theorem eq_of_loadMetadata (h : AllOk u)
    (hl : (loadMetadata depth a o).run u = (some (.ok, d, orig), u')) :
    d = normalize (decoded (abData u)) := by
  have hvalue := (loadMetadata_value depth a o).some trivial hl rfl
  rw [← (orig_of_loadMetadata h hl).2]
  exact hvalue

/-- The boot command gives a try back, and the load that follows has slot `c` to boot. -/
def Selects (u : State) (c : Slot) : Prop :=
  ∃ (depth : ℕ) (u1 u2 : State) (d orig : AvbABData),
    incMetadataTriesRemaining.run u = (some .ok, u1) ∧
      (loadMetadata depth unused unused).run u1 = (some (.ok, d, orig), u2) ∧
      avbGetBootableSlot d = some c

theorem avbGetBootableSlot_normalize_congr (h : d.slots = e.slots) :
    avbGetBootableSlot (normalize d) = avbGetBootableSlot (normalize e) := by
  simp only [avbGetBootableSlot, slots_normalize, h]

theorem selects_iff (h : AllOk u) :
    Selects u c ↔ avbGetBootableSlot (normalize (giveBackTry (decoded (abData u)))) = some c := by
  obtain ⟨u1, hinc, hd⟩ := run_incMetadataTriesRemaining h
  have hvalid : (abData u1).Valid := by
    rw [hd.abData_eq]
    exact AvbABData.valid_sealed (valid_decoded _).1 (valid_decoded _).2
  have hslots : (decoded (abData u1)).slots = (giveBackTry (decoded (abData u))).slots := by
    rw [slots_decoded, loaded_of_valid hvalid, hd.abData_eq, AvbABData.slots_sealed]
  rw [← avbGetBootableSlot_normalize_congr hslots]
  constructor
  · rintro ⟨depth, u1', u2, d, orig, hinc', hl, hc⟩
    rw [hinc] at hinc'
    cases hinc'
    rwa [← eq_of_loadMetadata (h.of_disk hd) hl]
  · intro hc
    obtain ⟨v, u2, hl, -⟩ := run_loadMetadata (h.of_disk hd) 0 unused unused fun _ => .inr ⟨c, by
      have hb := isBootable_of_avbGetBootableSlot hc
      rw [slots_normalize, isBootable_normalizeSlot, slots_decoded] at hb
      exact hb.1⟩
    exact ⟨1, u1, u2, _, _, hinc, hl, hc⟩

end UBoot

/-! ## Both stages -/

open Bl2 (Ready Reports IplResults USER_PARTITION)

variable {s s' t : Bl2.State} {u : UBoot.State}

/-- What U-Boot starts from when BL2 has left the card as in `s`. -/
def handOver (b : ℕ) (u : UBoot.State) (s : Bl2.State) : UBoot.State :=
  { u with misc := miscPart b (s.part USER_PARTITION) }

theorem marked_zero (d : AvbABData) : Bl2.marked (fun _ => 0) d = d := by
  refine AvbABData.ext rfl rfl rfl rfl (funext fun c => ?_) rfl rfl
  rw [Bl2.slots_marked, if_neg (not_not.mpr rfl)]

theorem partitionOf_injective : Function.Injective Bl2.partitionOf := by
  intro c c' h
  rcases c.eq_zero_or_one with rfl | rfl <;> rcases c'.eq_zero_or_one with rfl | rfl <;>
    first | rfl | exact absurd h (by decide)

/-- A call of BL2's flow that finds no corruption. -/
theorem run_avbAbFlow_intact (h : Ready b s) (hv : (Bl2.abData b s).Valid)
    (hipl : IplResults s (fun _ => 0) t) :
    ∃ s', Bl2.avbAbFlow.run s = (some (Bl2.bootResult (Bl2.abData b s)), s') ∧
      (∃ v, Bl2.Disk b s s' (Bl2.bootData (Bl2.abData b s) (Bl2.abData b s)) v) ∧
      ∀ c, Bl2.currSlot (Bl2.abData b s) = some c → Reports s' c := by
  obtain ⟨s', hrun, hd, hrep⟩ := Bl2.run_avbAbFlow h hipl
  rw [Bl2.decision, loaded_of_valid hv, marked_zero] at hrun hd hrep
  exact ⟨s', hrun, ⟨_, hd⟩, hrep⟩

/-- BL2 boots slot `c`. -/
structure Boots (s s' : Bl2.State) (c : Slot) : Prop where
  run : Bl2.avbAbFlow.run s = (some .ok, s')
  reports : Reports s' c

theorem boots_iff (h : Ready b s) (hv : (Bl2.abData b s).Valid)
    (hipl : IplResults s (fun _ => 0) t) :
    (∃ s', Boots s s' c) ↔ Chosen AVB_AB_SLOT_B (Bl2.abData b s) c := by
  obtain ⟨s', hrun, -, hrep⟩ := run_avbAbFlow_intact h hv hipl
  rw [← currSlot_eq_some_iff]
  constructor
  · rintro ⟨s'', hb⟩
    have heq := hb.run
    rw [hrun] at heq
    obtain ⟨hres, rfl⟩ := Prod.mk.injEq _ _ _ _ ▸ heq
    rcases hc : Bl2.currSlot (Bl2.abData b s) with _ | c'
    · rw [Bl2.bootResult, hc] at hres
      cases hres
    · have := (hrep c' hc).bootPartition.symm.trans hb.reports.bootPartition
      rw [partitionOf_injective this]
  · intro hc
    refine ⟨s', ?_, hrep c hc⟩
    rw [hrun, Bl2.bootResult, hc]
    rfl

/-- The slot that U-Boot has to boot after BL2 has booted `c`. -/
theorem Boots.selects_iff (h : Ready b s) (hv : (Bl2.abData b s).Valid)
    (hipl : IplResults s (fun _ => 0) t) (hb : Boots s s' c) (hu : UBoot.AllOk u) :
    ∃ e, Prepared (Bl2.abData b s) e c ∧ ∀ c', UBoot.Selects (handOver b u s') c' ↔
      UBoot.avbGetBootableSlot (UBoot.normalize e) = some c' := by
  have hc := (boots_iff h hv hipl).mp ⟨s', hb⟩
  obtain ⟨s'', hrun, ⟨v, hd⟩, -⟩ := run_avbAbFlow_intact h hv hipl
  obtain rfl : s' = s'' := congrArg Prod.snd (hb.run.symm.trans hrun)
  have hdata : UBoot.abData (handOver b u s') = Bl2.bootData (Bl2.abData b s) (Bl2.abData b s) := by
    rw [UBoot.abData, handOver, dataAt_miscPart]
    exact hd.abData_eq
  refine ⟨giveBackTry (UBoot.decoded (UBoot.abData (handOver b u s'))),
    prepared_giveBackTry hc ?_, fun c' => UBoot.selects_iff hu⟩
  have hvalid := Bl2.valid_bootData hv hv.magic hv.version
  rw [UBoot.slots_decoded, hdata, loaded_of_valid hvalid]

/-- The two stages agree on every slot that BL2 boots from a given block if and only if that slot
does not boot on its last try, is not successful with tries left, and does not win a tie
against a slot that U-Boot finds bootable. -/
theorem stages_agree_iff (h : Ready b s) (hv : (Bl2.abData b s).Valid)
    (hipl : IplResults s (fun _ => 0) t) (hu : UBoot.AllOk u) :
    (∀ c s', Boots s s' c → UBoot.Selects (handOver b u s') c) ↔
      ∀ c, Chosen AVB_AB_SLOT_B (Bl2.abData b s) c → Agrees (Bl2.abData b s) c := by
  constructor
  · intro hall c hc
    obtain ⟨s', hb⟩ := (boots_iff h hv hipl).mpr hc
    obtain ⟨e, he, hsel⟩ := hb.selects_iff h hv hipl hu
    exact (avbGetBootableSlot_prepared hc he).mp ((hsel c).mp (hall c s' hb))
  · intro hall c s' hb
    have hc := (boots_iff h hv hipl).mp ⟨s', hb⟩
    obtain ⟨e, he, hsel⟩ := hb.selects_iff h hv hipl hu
    exact (hsel c).mpr ((avbGetBootableSlot_prepared hc he).mpr (hall c hc))

theorem stages_agree_newCard : ∃ s', Boots Bl2.newCard s' AVB_AB_SLOT_A ∧
    UBoot.Selects (handOver 34 UBoot.newDevice s') AVB_AB_SLOT_A := by
  have hready : Ready 34 Bl2.newCard := Bl2.ready_card _ _ _
  have hdata : Bl2.abData 34 Bl2.newCard = blockOf ⟨15, 7, 0, 0⟩ ⟨14, 7, 0, 0⟩ := Bl2.abData_card _ _ _
  have hvalid : (Bl2.abData 34 Bl2.newCard).Valid := by
    rw [hdata]
    exact valid_blockOf _ _
  obtain ⟨t, hipl⟩ := Bl2.iplResults_of_images hready (Bl2.images_card _ _ fun _ => true)
  have hchosen : Chosen AVB_AB_SLOT_B (Bl2.abData 34 Bl2.newCard) AVB_AB_SLOT_A := by
    rw [hdata, ← currSlot_eq_some_iff]
    decide
  obtain ⟨s', hb⟩ := (boots_iff hready hvalid hipl).mpr hchosen
  refine ⟨s', hb, (stages_agree_iff hready hvalid hipl (UBoot.allOk_device _ _)).mpr ?_ _ s' hb⟩
  intro c hc
  rw [hdata, ← currSlot_eq_some_iff] at hc
  rcases c.eq_zero_or_one with rfl | rfl
  · rw [hdata]
    exact ⟨by decide, by decide, by decide⟩
  · exact absurd hc (by decide)

/-- Slot A boots on its last try, with the IPL of slot A; U-Boot then finds the slot used up and
has slot B to boot. -/
theorem last_try_disagrees :
    ∃ s', Boots (Bl2.card (blockOf ⟨15, 1, 0, 0⟩ ⟨14, 7, 0, 0⟩) (messageOf VIRTUAL_AB_NONE 0) fun _ => true)
        s' AVB_AB_SLOT_A ∧
      UBoot.Selects (handOver 34 UBoot.newDevice s') AVB_AB_SLOT_B ∧
      ¬ UBoot.Selects (handOver 34 UBoot.newDevice s') AVB_AB_SLOT_A := by
  obtain ⟨s, hs⟩ : ∃ s, Bl2.card (blockOf ⟨15, 1, 0, 0⟩ ⟨14, 7, 0, 0⟩) (messageOf VIRTUAL_AB_NONE 0)
    (fun _ => true) = s := ⟨_, rfl⟩
  have hready : Ready 34 s := hs ▸ Bl2.ready_card _ _ _
  have hdata : Bl2.abData 34 s = blockOf ⟨15, 1, 0, 0⟩ ⟨14, 7, 0, 0⟩ := hs ▸ Bl2.abData_card _ _ _
  have hvalid : (Bl2.abData 34 s).Valid := by
    rw [hdata]
    exact valid_blockOf _ _
  obtain ⟨t, hipl⟩ := Bl2.iplResults_of_images hready (hs ▸ Bl2.images_card _ _ fun _ => true)
  obtain ⟨s', hb⟩ := (boots_iff (c := AVB_AB_SLOT_A) hready hvalid hipl).mpr (by
    rw [hdata, ← currSlot_eq_some_iff]
    decide)
  obtain ⟨e, he, hsel⟩ := hb.selects_iff hready hvalid hipl (UBoot.allOk_device _ _)
  have hB : UBoot.Selects (handOver 34 UBoot.newDevice s') AVB_AB_SLOT_B := by
    have hA : e.slots AVB_AB_SLOT_A = ⟨15, 0, 0, 0⟩ := by
      rw [he.self, hdata]
      decide
    have hB : e.slots AVB_AB_SLOT_B = ⟨14, 7, 0, 0⟩ := by
      have := he.other
      rwa [hdata] at this
    refine (hsel _).mpr (avbGetBootableSlot_eq_some_iff.mpr ?_)
    rw [Chosen, UBoot.slots_normalize, UBoot.slots_normalize, hB,
      show AVB_AB_SLOT_B.other = AVB_AB_SLOT_A from rfl, hA]
    decide
  rw [hs]
  refine ⟨s', hb, hB, fun hA => ?_⟩
  have h := ((hsel _).mp hA).symm.trans ((hsel _).mp hB)
  exact absurd h (by decide)

end RCar
