import RCarM3N.Proofs.BootChain

/-! The tries of a slot over the whole boot chain: what one boot through both stages takes, and
how many boots a slot with a given number of tries gets. -/

namespace RCar

open Bl2 (Ready IplResults USER_PARTITION)
open UBoot (Verifier SlotVerifyData FlowResult AllOk)

variable {b depth : ℕ} {d e : AvbABData} {c c' : Slot} {x y : AvbABSlotData} {v : Verifier}

/-! ## The flow of U-Boot when every slot verifies -/

def slotSuffixes : Slot → String := ![("_a" : String), ("_b" : String)]

/-- Every verification succeeds, with data that names the slot. -/
def Verified (v : Verifier) : Prop :=
  ∀ c, ∃ data, v.verify c = (.ok, some data) ∧ data.abSuffix = slotSuffixes c

/-- The flow hands slot `c` to the kernel. -/
def HandsOver (r : FlowResult × Option SlotVerifyData) (c : Slot) : Prop :=
  r.1 = .ok ∧ ∃ data, r.2 = some data ∧ data.abSuffix = slotSuffixes c

theorem slotSuffixes_injective : Function.Injective slotSuffixes := by
  intro c c' h
  rcases c.eq_zero_or_one with rfl | rfl <;> rcases c'.eq_zero_or_one with rfl | rfl <;>
    first | rfl | exact absurd h (by decide)

theorem handsOver_verify (hver : Verified v) : HandsOver (.ok, (v.verify c).2) c' ↔ c = c' := by
  obtain ⟨data, hdata, hsuffix⟩ := hver c
  constructor
  · rintro ⟨-, data', hd, hs⟩
    rw [hdata] at hd
    cases hd
    exact slotSuffixes_injective (hsuffix.symm.trans hs)
  · rintro rfl
    exact ⟨rfl, data, by rw [hdata], hsuffix⟩

namespace UBoot

variable {u u' t : State} {a o orig : AvbABData} {r : FlowResult × Option SlotVerifyData}

/-- The data of the slots that have been verified. -/
def verifiedData (v : Verifier) (d : AvbABData) : Slot → Option SlotVerifyData :=
  fun c => if (d.slots c).isBootable then (v.verify c).2 else none

theorem validateSlot_verified (hver : Verified v) (n : Slot) (l : Locals) :
    validateSlot v n l = (none, { l with
      slotData := if (l.abData.slots n).isBootable then
        Function.update l.slotData n (v.verify n).2 else l.slotData }) := by
  obtain ⟨data, hdata, -⟩ := hver n
  have hv : verifySlot v n = .ok (false, false) := by rw [verifySlot, hdata]
  unfold validateSlot
  split
  · simp only [hv, Bool.or_false, Bool.false_eq_true, if_false]
  · rfl

theorem validate_verified (hver : Verified v) (d : AvbABData) :
    ∃ l : Locals, validateSlot v 0 ⟨d, fun _ => none, false⟩ = (none, l) ∧
      validateSlot v 1 l = (none, ⟨d, verifiedData v d, false⟩) := by
  refine ⟨_, validateSlot_verified hver 0 _, ?_⟩
  rw [validateSlot_verified hver]
  simp only [Prod.mk.injEq, Locals.mk.injEq, true_and, and_true]
  funext c
  rcases c.eq_zero_or_one with rfl | rfl <;>
    cases h0 : (d.slots 0).isBootable <;> cases h1 : (d.slots 1).isBootable <;>
      simp [verifiedData, h0, h1]

theorem flowOutcome_verified (hver : Verified v) (hc : avbGetBootableSlot d = some c) :
    flowOutcome v d = ((.ok, (v.verify c).2), decrementTries d c) := by
  obtain ⟨l, h0, h1⟩ := validate_verified hver d
  rw [flowOutcome, h0]
  simp only [h1, selectOutcome, hc, Bool.false_eq_true, if_false, verifiedData,
    isBootable_of_avbGetBootableSlot hc, if_true]

/-- The flow hands over the slot it has to boot. -/
theorem run_avbAbFlow_verified (h : AllOk u) (hver : Verified v) (depth : ℕ) (a o : AvbABData)
    (hc : avbGetBootableSlot (normalize (decoded (abData u))) = some c) :
    ∃ m u', (avbAbFlow (depth + 1) v a o).run u = (some (.ok, (v.verify c).2), u') ∧
      Disk u u' (decrementTries (normalize (decoded (abData u))) c).sealed m := by
  have hb : ((loaded (abData u)).slots c).isBootable = true := by
    have := isBootable_of_avbGetBootableSlot hc
    rw [slots_normalize, isBootable_normalizeSlot, slots_decoded] at this
    exact this.1
  obtain ⟨m, u', hrun, -, hd⟩ := run_avbAbFlow h depth v a o fun _ => .inr ⟨c, hb⟩
  rw [flowOutcome_verified hver hc] at hrun hd
  exact ⟨m, u', hrun, hd⟩

theorem out_ne_ok {e : FlowResult} (he : e ≠ .ok)
    (hrun : (out e d o none).run u = (some r, u')) : r.1 ≠ .ok := by
  unfold out at hrun
  obtain ⟨ret, t, -, hrun⟩ := Prog.run_bind_eq_some hrun
  rcases ret with _ | _ | _ | _ | _ | _ | _ | _ <;>
    simp only [ioError, reduceCtorEq, if_true, if_false, ne_eq, not_true_eq_false,
      not_false_eq_true, Prog.run_pure, Prod.mk.injEq, Option.some.injEq] at hrun
  all_goals
    rw [← hrun.1]
    first | exact he | decide

/-- The flow does not succeed when no slot is bootable. -/
theorem avbAbFlow_ne_ok (h : AllOk u) (hver : Verified v)
    (hrun : (avbAbFlow depth v a o).run u = (some r, u'))
    (hnone : avbGetBootableSlot (normalize (decoded (abData u))) = none) : r.1 ≠ .ok := by
  unfold avbAbFlow at hrun
  obtain ⟨⟨ret, d, orig⟩, t, hl, hrun⟩ := Prog.run_bind_eq_some hrun
  have hret := ret_of_loadMetadata h hl
  subst hret
  have hd := eq_of_loadMetadata h hl
  obtain ⟨l, h0, h1⟩ := validate_verified hver d
  simp only [ioError, reduceCtorEq, if_false, ne_eq, not_true_eq_false, h0, h1, selectSlot,
    hd ▸ hnone] at hrun
  exact out_ne_ok (by decide) hrun

end UBoot

/-! ## One boot through both stages -/

/-- The disk with the partition that starts at sector `b` replaced. -/
def setMiscPart (b : ℕ) (disk m : Mem) : Mem :=
  fun a => if a < 512 * b then disk a else m (a - 512 * b)

theorem setMiscPart_putMisc (b : ℕ) (disk : Mem) (d : AvbABData) (m : MiscVirtABMsg) :
    setMiscPart b disk (putMisc 0 (miscPart b disk) d m) = putMisc b disk d m := by
  funext a
  rw [setMiscPart, putMisc_apply, putMisc_apply, miscPart]
  by_cases ha : a < 512 * b
  · rw [if_pos ha, if_neg (by omega), if_neg (by omega)]
  · rw [if_neg ha, Nat.add_sub_cancel' (Nat.not_lt.mp ha)]
    have h64 : a - 512 * b - 512 * (0 + 64) = a - 512 * (b + 64) := by
      rw [Nat.sub_sub, ← Nat.mul_add, Nat.zero_add]
    have h4 : a - 512 * b - 512 * (0 + 4) = a - 512 * (b + 4) := by
      rw [Nat.sub_sub, ← Nat.mul_add, Nat.zero_add]
    rw [h64, h4]
    by_cases h1 : 512 * (b + 64) ≤ a ∧ a < 512 * (b + 64) + 64
    · rw [if_pos h1, if_pos (by omega)]
    · rw [if_neg h1, if_neg (by omega)]
      by_cases h2 : 512 * (b + 4) ≤ a ∧ a < 512 * (b + 4) + 32
      · rw [if_pos h2, if_pos (by omega)]
      · rw [if_neg h2, if_neg (by omega)]

/-- The card under BL2, and U-Boot. -/
structure Device where
  bl2 : Bl2.State
  uboot : UBoot.State

/-- The device after U-Boot, when BL2 has left the card as in `s`. -/
def writeBack (b : ℕ) (s : Bl2.State) (u : UBoot.State) : Device where
  bl2 :=
    { s with part := Function.update s.part USER_PARTITION (setMiscPart b (s.part USER_PARTITION) u.misc) }
  uboot := u

/-- A boot from the card as it is: BL2 finds both IPLs intact and boots a slot, the boot command
gives a try back, and the flow returns `r`. The local structures hold anything on entry, and the
reset before has left nothing but the card. -/
inductive FullBoot (b : ℕ) (v : Verifier) (x : Device) : FlowResult × Option SlotVerifyData → Device → Prop
  | mk {s s' t : Bl2.State} {u u' : UBoot.State} {c : Slot} {depth : ℕ} {a o : AvbABData}
      {r : FlowResult × Option SlotVerifyData} (hpart : s.part = x.bl2.part)
      (hout : s.outcomes = x.bl2.outcomes) (hipl : IplResults s (fun _ => 0) t) (hboot : Boots s s' c)
      (hinc : UBoot.incMetadataTriesRemaining.run (handOver b x.uboot s') = (some .ok, u))
      (hflow : (UBoot.avbAbFlow depth v a o).run u = (some r, u')) :
      FullBoot b v x r (writeBack b s' u')

/-- The checks of the IPLs succeed, whatever the buffers and the `misc` partition hold. -/
def Intact (b : ℕ) (s : Bl2.State) : Prop :=
  ∀ s1, Ready b s1 → (∀ p ≠ USER_PARTITION, s1.part p = s.part p) →
    ∃ t, IplResults s1 (fun _ => 0) t

/-- The block of the card. -/
def Device.block (b : ℕ) (x : Device) : AvbABData := Bl2.abData b x.bl2

/-- Storage works in both stages, the block is valid and the IPLs are intact. -/
structure Works (b : ℕ) (x : Device) : Prop where
  ready : Ready b x.bl2
  valid : (x.block b).Valid
  intact : Intact b x.bl2
  ok : AllOk x.uboot

/-- What U-Boot loads after BL2 has booted from the block `d`. -/
structure Loads (d e : AvbABData) (c : Slot) : Prop where
  chosen : Chosen AVB_AB_SLOT_B d c
  prepared : Prepared d e c

section Boot

variable {x x' : Device} {r : FlowResult × Option SlotVerifyData}

theorem Prepared.congr {e' : AvbABData} (h : Prepared d e c) (he : e'.slots = e.slots) :
    Prepared d e' c :=
  ⟨by rw [he, h.self], by rw [he, h.other]⟩

/-- What the boot command leaves after BL2. -/
theorem run_inc_handOver {s s' t : Bl2.State} {u : UBoot.State} (h : Ready b s)
    (hv : (Bl2.abData b s).Valid) (hipl : IplResults s (fun _ => 0) t) (hb : Boots s s' c)
    (hu : AllOk u) :
    ∃ u1 m m', UBoot.incMetadataTriesRemaining.run (handOver b u s') = (some .ok, u1) ∧
      Loads (Bl2.abData b s) (UBoot.decoded (UBoot.abData u1)) c ∧
      Bl2.Disk b s s' (Bl2.bootData (Bl2.abData b s) (Bl2.abData b s)) m ∧
      ∃ d, UBoot.Disk (handOver b u s') u1 d m' ∧ d.Valid := by
  have hc := (boots_iff h hv hipl).mp ⟨s', hb⟩
  obtain ⟨s'', hrun, ⟨m, hd⟩, -⟩ := run_avbAbFlow_intact h hv hipl
  obtain rfl : s' = s'' := congrArg Prod.snd (hb.run.symm.trans hrun)
  obtain ⟨u1, hinc, hd1⟩ := UBoot.run_incMetadataTriesRemaining (u := handOver b u s') hu
  have hdata : UBoot.abData (handOver b u s') = Bl2.bootData (Bl2.abData b s) (Bl2.abData b s) := by
    rw [UBoot.abData, handOver, dataAt_miscPart]
    exact hd.abData_eq
  have hvalid := AvbABData.valid_sealed
    (d := giveBackTry (UBoot.decoded (UBoot.abData (handOver b u s'))))
    (UBoot.valid_decoded _).1 (UBoot.valid_decoded _).2
  refine ⟨u1, m, _, hinc, ⟨hc, Prepared.congr (prepared_giveBackTry hc (e := UBoot.decoded
    (UBoot.abData (handOver b u s'))) ?_) ?_⟩, hd, _, hd1, hvalid⟩
  · rw [UBoot.slots_decoded, hdata, loaded_of_valid (Bl2.valid_bootData hv hv.magic hv.version)]
  · rw [UBoot.slots_decoded, hd1.abData_eq, loaded_of_valid hvalid, AvbABData.slots_sealed]

theorem disk_writeBack {s s' : Bl2.State} {u' : UBoot.State} {d1 d2 : AvbABData}
    {m1 m2 : MiscVirtABMsg} (h : Bl2.Disk b s s' d1 m1)
    (hu : u'.misc = putMisc 0 (miscPart b (s'.part USER_PARTITION)) d2 m2) :
    Bl2.Disk b s (writeBack b s' u').bl2 d2 m2 := by
  refine h.trans ⟨?_, rfl⟩
  rw [writeBack, hu, setMiscPart_putMisc]

theorem Works.of_disk (h : Works b x) {m : MiscVirtABMsg} (hd : Bl2.Disk b x.bl2 x'.bl2 d m)
    (hv : d.Valid) (hu : AllOk x'.uboot) : Works b x' := by
  refine ⟨h.ready.of_disk hd, ?_, fun s1 hs1 hp => h.intact s1 hs1 fun p hne => ?_, hu⟩
  · rw [Device.block, hd.abData_eq]
    exact hv
  · rw [hp p hne, hd.other hne]

/-- What a boot that succeeds does: BL2 boots slot `c`, U-Boot loads `e` and hands over `c'`. -/
structure Outcome (b : ℕ) (v : Verifier) (x : Device) (r : FlowResult × Option SlotVerifyData)
    (x' : Device) (e : AvbABData) (c c' : Slot) : Prop where
  loads : Loads (x.block b) e c
  selects : UBoot.avbGetBootableSlot (UBoot.normalize e) = some c'
  result : r = (.ok, (v.verify c').2)
  slots : (x'.block b).slots = (UBoot.decrementTries (UBoot.normalize e) c').slots
  works : Works b x'

theorem decrementTries_header (d : AvbABData) (c : Slot) :
    (UBoot.decrementTries d c).magic = d.magic ∧
      (UBoot.decrementTries d c).versionMajor = d.versionMajor := by
  simp only [UBoot.decrementTries]
  split <;> exact ⟨rfl, rfl⟩

/-- The run of U-Boot's flow after the boot command. -/
theorem outcome_of_flow (h : Works b x) (hver : Verified v) {s s' t : Bl2.State}
    (hpart : s.part = x.bl2.part) (hout : s.outcomes = x.bl2.outcomes)
    (hipl : IplResults s (fun _ => 0) t) (hb : Boots s s' c) :
    ∃ u1 e, UBoot.incMetadataTriesRemaining.run (handOver b x.uboot s') = (some .ok, u1) ∧
      AllOk u1 ∧ e = UBoot.decoded (UBoot.abData u1) ∧ Loads (x.block b) e c ∧
      ∀ c', UBoot.avbGetBootableSlot (UBoot.normalize e) = some c' → ∀ depth a o,
        ∃ u', (UBoot.avbAbFlow (depth + 1) v a o).run u1 = (some (.ok, (v.verify c').2), u') ∧
          Outcome b v x (.ok, (v.verify c').2) (writeBack b s' u') e c c' := by
  have hd0 : Bl2.Disk b x.bl2 s (Bl2.abData b x.bl2) (Bl2.virtMsg b x.bl2) := .of_eq hpart hout
  have hblock : Bl2.abData b s = x.block b := hd0.abData_eq
  have hv : (Bl2.abData b s).Valid := by
    rw [hblock]
    exact h.valid
  obtain ⟨u1, m, m', hinc, hloads, hd, d1, hd1, -⟩ :=
    run_inc_handOver (h.ready.of_disk hd0) hv hipl hb (u := x.uboot) h.ok
  have hu1 : AllOk u1 := UBoot.AllOk.of_disk (s := handOver b x.uboot s') h.ok hd1
  rw [hblock] at hloads
  refine ⟨u1, _, hinc, hu1, rfl, hloads, fun c' hc' depth a o => ?_⟩
  obtain ⟨m2, u', hrun, hd2⟩ := UBoot.run_avbAbFlow_verified hu1 hver depth a o hc'
  obtain ⟨hmagic, hversion⟩ := decrementTries_header
    (UBoot.normalize (UBoot.decoded (UBoot.abData u1))) c'
  have hvalid : (UBoot.decrementTries (UBoot.normalize (UBoot.decoded (UBoot.abData u1))) c').sealed.Valid := by
    refine AvbABData.valid_sealed ?_ ?_
    · rw [hmagic]
      exact (UBoot.valid_decoded _).1
    · rw [hversion]
      exact (UBoot.valid_decoded _).2
  have hmisc := (hd1.trans hd2).misc
  have hdisk : Bl2.Disk b x.bl2 (writeBack b s' u').bl2 _ _ := disk_writeBack (hd0.trans hd) hmisc
  refine ⟨u', hrun, hloads, hc', rfl, ?_, h.of_disk hdisk hvalid (hu1.of_disk hd2)⟩
  rw [Device.block, hdisk.abData_eq, AvbABData.slots_sealed]

theorem FullBoot.spec (h : Works b x) (hver : Verified v) (hb : FullBoot b v x r x') :
    ∃ e c, Loads (x.block b) e c ∧
      (∀ c', UBoot.avbGetBootableSlot (UBoot.normalize e) = some c' → Outcome b v x r x' e c c') ∧
      (UBoot.avbGetBootableSlot (UBoot.normalize e) = none → r.1 ≠ .ok) := by
  obtain ⟨hpart, hout, hipl, hboot, hinc, hflow⟩ := hb
  rename_i s s' t u u' c depth a o
  obtain ⟨u1, e, hinc', hu1, he, hloads, hrun⟩ := outcome_of_flow h hver hpart hout hipl hboot
  rw [hinc] at hinc'
  cases hinc'
  refine ⟨e, c, hloads, fun c' hc' => ?_, fun hnone => ?_⟩
  · cases depth with
    | zero => cases hflow
    | succ depth =>
      obtain ⟨u'', hrun', hresult⟩ := hrun c' hc' depth a o
      rw [hflow] at hrun'
      cases hrun'
      exact hresult
  · rw [he] at hnone
    exact UBoot.avbAbFlow_ne_ok hu1 hver hflow hnone

/-- A boot that hands a slot over. -/
theorem FullBoot.outcome (h : Works b x) (hver : Verified v) (hb : FullBoot b v x r x')
    (hr : HandsOver r c') : ∃ e c, Outcome b v x r x' e c c' := by
  obtain ⟨e, c, -, hsome, hnone⟩ := hb.spec h hver
  rcases hc : UBoot.avbGetBootableSlot (UBoot.normalize e) with _ | c''
  · exact absurd hr.1 (hnone hc)
  · have ho := hsome c'' hc
    rw [ho.result, handsOver_verify hver] at hr
    exact ⟨e, c, hr ▸ ho⟩

/-- A boot takes place when U-Boot finds a slot to boot in what BL2 leaves. -/
theorem exists_fullBoot (h : Works b x) (hver : Verified v)
    (hc : Chosen AVB_AB_SLOT_B (x.block b) c)
    (hsel : ∀ e, Prepared (x.block b) e c → UBoot.avbGetBootableSlot (UBoot.normalize e) ≠ none) :
    ∃ r x' e c', FullBoot b v x r x' ∧ Outcome b v x r x' e c c' := by
  obtain ⟨t, hipl⟩ := h.intact x.bl2 h.ready fun _ _ => rfl
  obtain ⟨s', hb⟩ := (boots_iff h.ready h.valid hipl).mpr hc
  obtain ⟨u1, e, hinc, hu1, he, hloads, hrun⟩ := outcome_of_flow h hver rfl rfl hipl hb
  obtain ⟨c', hc'⟩ := Option.ne_none_iff_exists'.mp (hsel e hloads.prepared)
  obtain ⟨u', hflow, hresult⟩ := hrun c' hc' 0 UBoot.unused UBoot.unused
  exact ⟨_, _, e, c', .mk rfl rfl hipl hb hinc hflow, hresult⟩

end Boot

/-! ## What a boot does to the tries -/

/-- No slot is illegal, and every slot that is not bootable is zero. -/
def Normalized (d : AvbABData) : Prop := ∀ c, UBoot.normalizeSlot (d.slots c) = d.slots c

theorem priority_of_normalized (hx : UBoot.normalizeSlot x = x) (hb : x.isBootable = false) :
    x.priority = 0 := by
  rw [← hx, UBoot.normalizeSlot_of_not_isBootable hb]
  rfl

/-- The slot that BL2 boots has a higher priority than a normalised slot that it does not boot, or
it is slot B and they tie. -/
theorem priority_of_chosen (hc : Chosen AVB_AB_SLOT_B d c)
    (hn : UBoot.normalizeSlot (d.slots c.other) = d.slots c.other) :
    (d.slots c.other).priority < (d.slots c).priority ∨
      c = AVB_AB_SLOT_B ∧ (d.slots c.other).priority = (d.slots c).priority := by
  cases hb : (d.slots c.other).isBootable
  · rw [priority_of_normalized hn hb]
    exact .inl ((AvbABSlotData.isBootable_iff _).mp hc.1).1
  · exact hc.2 hb

theorem activeSlot_of_priority (h : (d.slots c.other).priority < (d.slots c).priority ∨
    c = AVB_AB_SLOT_B ∧ (d.slots c.other).priority = (d.slots c).priority) : activeSlot d = c := by
  rcases c.eq_zero_or_one with rfl | rfl
  · exact if_pos (h.resolve_right fun h => absurd h.1 (by decide))
  · refine if_neg fun hlt => ?_
    rcases h with h | ⟨-, h⟩
    · exact UInt8.lt_irrefl _ (UInt8.lt_trans h hlt)
    · exact UInt8.ne_of_lt hlt h.symm

/-- The slot as U-Boot loads it, when it never booted successfully. -/
structure Reloaded (x y : AvbABSlotData) : Prop where
  tries : y.triesRemaining.toNat = if x.triesRemaining.toNat = 1 then 0
    else if x.triesRemaining.toNat ≤ 7 then x.triesRemaining.toNat else x.triesRemaining.toNat - 1
  successful : y.successfulBoot = 0
  bootable : y.isBootable = true ↔ x.triesRemaining.toNat ≠ 1
  priority : y.isBootable = true → y.priority = x.priority

theorem reloaded (hx : x.isBootable = true) (hs : x.successfulBoot = 0) :
    Reloaded x (UBoot.normalizeSlot (giveBack (useOne x))) := by
  obtain ⟨hp, hboot⟩ := (AvbABSlotData.isBootable_iff x).mp hx
  have ht : 0 < x.triesRemaining := hboot.resolve_left fun h => h hs
  have h1 : x.triesRemaining = 1 ↔ x.triesRemaining.toNat = 1 := UInt8.toNat_inj.symm
  have hb := isBootable_normalizeSlot_self hx (.inl rfl)
  simp only [hs, h1, true_and, ne_eq, not_true_eq_false, and_false, not_false_eq_true, and_true] at hb
  have hsucc : (giveBack (useOne x)).successfulBoot = 0 := by simp [hs]
  refine ⟨?_, ?_, hb, fun hby => ?_⟩
  · rw [← triesRemaining_giveBack_useOne hs ht]
    rcases UBoot.normalizeSlot_eq_or (giveBack (useOne x)) with h | h <;> rw [h]
    -- a slot that is set unbootable had no try left
    have hz : (UBoot.normalizeSlot (giveBack (useOne x))).isBootable = false := by rw [h]; rfl
    have h1 : x.triesRemaining.toNat = 1 := by
      by_contra hne
      rw [hb.mpr hne] at hz
      cases hz
    rw [triesRemaining_giveBack_useOne hs ht, if_pos h1]
    rfl
  · rcases UBoot.normalizeSlot_eq_or (giveBack (useOne x)) with h | h <;> rw [h]
    · exact hsucc
    · rfl
  · rw [priority_normalizeSlot hby]
    simp

/-- A successful slot is loaded as it was. -/
theorem reloaded_of_successful (hs : x.successfulBoot ≠ 0) : giveBack (useOne x) = x := by
  rw [useOne_of_successful hs, giveBack_of_successful hs]

theorem decrementTries_spec (hb : (d.slots c).isBootable = true)
    (hs : (d.slots c).successfulBoot = 0) :
    ((UBoot.decrementTries d c).slots c).triesRemaining.toNat + 1 =
        (d.slots c).triesRemaining.toNat ∧
      ((UBoot.decrementTries d c).slots c).priority = (d.slots c).priority ∧
      ((UBoot.decrementTries d c).slots c).successfulBoot = 0 ∧
      (UBoot.decrementTries d c).slots c.other = d.slots c.other := by
  have ht : 0 < (d.slots c).triesRemaining :=
    ((AvbABSlotData.isBootable_iff _).mp hb).2.resolve_left fun h => h hs
  simp only [UBoot.decrementTries, if_pos (And.intro hs ht), AvbABData.slots_setSlot_same]
  exact ⟨Bl2.toNat_sub_one ht, trivial, hs, AvbABData.slots_setSlot_ne _ _ c.other_ne⟩

/-- The metadata that U-Boot's flow works on after BL2 has booted slot `c`. -/
structure Worked (d y : AvbABData) (c : Slot) : Prop where
  reloaded : (d.slots c).isBootable = true → (d.slots c).successfulBoot = 0 →
    Reloaded (d.slots c) (y.slots c)
  successful : (d.slots c).successfulBoot ≠ 0 → UBoot.normalizeSlot (d.slots c) = d.slots c →
    y.slots c = d.slots c
  other : y.slots c.other = UBoot.normalizeSlot (d.slots c.other)

theorem Prepared.worked (h : Prepared d e c)
    (hp : (d.slots c.other).priority < (d.slots c).priority ∨
      c = AVB_AB_SLOT_B ∧ (d.slots c.other).priority = (d.slots c).priority) :
    Worked d (UBoot.normalize e) c := by
  have hself : (UBoot.normalize e).slots c = UBoot.normalizeSlot (giveBack (useOne (d.slots c))) := by
    rw [UBoot.slots_normalize, h.self, activeSlot_of_priority hp, if_pos rfl]
  refine ⟨fun hb hs => ?_, fun hs hn => ?_, ?_⟩
  · rw [hself]
    exact RCar.reloaded hb hs
  · rw [hself, reloaded_of_successful hs, hn]
  · rw [UBoot.slots_normalize, h.other]

/-! ## One boot -/

section Count

variable {x x' : Device} {r : FlowResult × Option SlotVerifyData}

/-- The tries of a slot on the card. -/
def Device.tries (b : ℕ) (x : Device) (c : Slot) : ℕ := ((x.block b).slots c).triesRemaining.toNat

/-- A boot that hands over a slot that never booted successfully takes one try from it, and none
from the other slot. -/
def CountsOne (b : ℕ) (v : Verifier) (x : Device) : Prop :=
  ∀ r x' c, FullBoot b v x r x' → HandsOver r c → ((x.block b).slots c).successfulBoot = 0 →
    x'.tries b c + 1 = x.tries b c ∧ x'.tries b c.other = x.tries b c.other

/-- The counters come out right when BL2 boots `c`: not on its last try beside a slot with tries,
and not with more than seven tries unless U-Boot boots the other, successful, slot. -/
structure KeepsCount (d : AvbABData) (c : Slot) : Prop where
  lastTry : ¬ ((d.slots c).triesRemaining.toNat = 1 ∧ (d.slots c.other).isBootable = true ∧
    (d.slots c.other).successfulBoot = 0)
  surplus : 8 ≤ (d.slots c).triesRemaining.toNat → c = AVB_AB_SLOT_B ∧
    (d.slots c.other).isBootable = true ∧ (d.slots c.other).successfulBoot ≠ 0 ∧
      (d.slots c.other).priority = (d.slots c).priority

theorem other_other (c : Slot) : c.other.other = c := Slot.other_eq_of_ne c.other_ne

theorem Outcome.bootable {c : Slot} (h : Outcome b v x r x' e c c') :
    ((UBoot.normalize e).slots c').isBootable = true :=
  UBoot.isBootable_of_avbGetBootableSlot h.selects

theorem Outcome.handsOver (hver : Verified v) (h : Outcome b v x r x' e c c') : HandsOver r c' := by
  rw [h.result]
  exact (handsOver_verify hver).mpr rfl

/-- The slot that a boot hands over has one try less than U-Boot has loaded. -/
theorem Outcome.tries (h : Outcome b v x r x' e c c')
    (hs : ((UBoot.normalize e).slots c').successfulBoot = 0) :
    x'.tries b c' + 1 = ((UBoot.normalize e).slots c').triesRemaining.toNat ∧
      x'.tries b c'.other = ((UBoot.normalize e).slots c'.other).triesRemaining.toNat := by
  obtain ⟨htries, -, -, hother⟩ := decrementTries_spec h.bootable hs
  rw [Device.tries, Device.tries, h.slots, hother]
  exact ⟨htries, rfl⟩

/-- A boot that gives up the last try of a slot, or one of a surplus, does not count one. -/
theorem CountsOne.keepsCount (h : Works b x) (hver : Verified v) (hn : Normalized (x.block b)) (hall : CountsOne b v x) :
    ∀ c, Chosen AVB_AB_SLOT_B (x.block b) c → ((x.block b).slots c).successfulBoot = 0 →
      KeepsCount (x.block b) c := by
  intro c hc hs
  have hprio := priority_of_chosen hc (hn c.other)
  have hworked : ∀ e, Prepared (x.block b) e c → Worked (x.block b) (UBoot.normalize e) c :=
    fun e he => he.worked hprio
  refine ⟨fun ⟨h1, hob, hos⟩ => ?_, fun h8 => ?_⟩
  · obtain ⟨r, x', e, c', hfb, ho⟩ := exists_fullBoot h hver hc fun e he hnone => by
      have := UBoot.avbGetBootableSlot_eq_none.mp hnone c.other
      rw [(hworked e he).other, hn, hob] at this
      cases this
    have hw := hworked e ho.loads.prepared
    have hrel := hw.reloaded hc.1 hs
    have hne : c' ≠ c := by
      rintro rfl
      exact hrel.bootable.mp ho.bootable h1
    obtain rfl : c.other = c' := Slot.other_eq_of_ne hne.symm
    have hsucc : ((UBoot.normalize e).slots c.other).successfulBoot = 0 := by
      rw [hw.other, hn, hos]
    have hlost := (ho.tries hsucc).2
    have hkept := (hall r x' c.other hfb (ho.handsOver hver) hos).2
    rw [hlost, other_other, hrel.tries, if_pos h1, Device.tries, h1] at hkept
    cases hkept
  · have h1 : ((x.block b).slots c).triesRemaining.toNat ≠ 1 := by omega
    have hkept : ∀ e, Prepared (x.block b) e c →
        ((UBoot.normalize e).slots c).triesRemaining.toNat + 1 = x.tries b c := by
      intro e he
      rw [((hworked e he).reloaded hc.1 hs).tries, if_neg h1, if_neg (by omega), Device.tries]
      omega
    obtain ⟨r, x', e, c', hfb, ho⟩ := exists_fullBoot h hver hc fun e he hnone => by
      have := UBoot.avbGetBootableSlot_eq_none.mp hnone c
      rw [((hworked e he).reloaded hc.1 hs).bootable.mpr h1] at this
      cases this
    have hw := hworked e ho.loads.prepared
    have hrel := hw.reloaded hc.1 hs
    have hbc := hrel.bootable.mpr h1
    have htries := hkept e ho.loads.prepared
    have hhand := ho.handsOver hver
    by_cases hcc : c' = c
    · subst hcc
      have hone := (hall r x' c' hfb hhand hs).1
      have hlost := (ho.tries hrel.successful).1
      omega
    · obtain rfl : c.other = c' := Slot.other_eq_of_ne fun h => hcc h.symm
      have hob := ho.bootable
      rw [hw.other, hn] at hob
      have htie : c = AVB_AB_SLOT_B ∧
          ((x.block b).slots c.other).priority = ((x.block b).slots c).priority := by
        refine hprio.resolve_left fun hlt => ?_
        have hbest := (avbGetBootableSlot_eq_some_iff.mp ho.selects).2
        rw [other_other, hrel.priority hbc, hw.other, hn] at hbest
        rcases hbest hbc with h' | ⟨-, h'⟩
        · exact UInt8.lt_irrefl _ (UInt8.lt_trans hlt h')
        · exact UInt8.ne_of_lt hlt h'.symm
      refine ⟨htie.1, hob, fun hos => ?_, htie.2⟩
      have hsucc : ((UBoot.normalize e).slots c.other).successfulBoot = 0 := by
        rw [hw.other, hn, hos]
      have hlost := (ho.tries hsucc).2
      have hsame := (hall r x' c.other hfb hhand hos).2
      rw [other_other] at hlost hsame
      omega

theorem countsOne_of_keepsCount (h : Works b x) (hver : Verified v) (hn : Normalized (x.block b))
    (hall : ∀ c, Chosen AVB_AB_SLOT_B (x.block b) c → ((x.block b).slots c).successfulBoot = 0 →
      KeepsCount (x.block b) c) : CountsOne b v x := by
  intro r x' c' hfb hhand hs
  obtain ⟨e, c, ho⟩ := hfb.outcome h hver hhand
  have hc := ho.loads.chosen
  have hprio := priority_of_chosen hc (hn c.other)
  have hw := ho.loads.prepared.worked hprio
  by_cases hsc : ((x.block b).slots c).successfulBoot = 0
  · have hrel := hw.reloaded hc.1 hsc
    have hk := hall c hc hsc
    by_cases hcc : c' = c
    · subst hcc
      have h1 := hrel.bootable.mp ho.bootable
      have h8 : ¬ 8 ≤ ((x.block b).slots c').triesRemaining.toNat := by
        intro h8
        obtain ⟨hB, hob, -, heq⟩ := hk.surplus h8
        have hbest := (avbGetBootableSlot_eq_some_iff.mp ho.selects).2
        rw [hw.other, hn, hrel.priority ho.bootable, heq] at hbest
        rcases hbest hob with h' | ⟨h', -⟩
        · exact UInt8.lt_irrefl _ h'
        · exact absurd (h'.symm.trans hB) (by decide)
      obtain ⟨hself, hother⟩ := ho.tries hrel.successful
      rw [hrel.tries, if_neg h1, if_pos (by omega)] at hself
      rw [hw.other, hn] at hother
      exact ⟨hself, hother⟩
    · obtain rfl : c.other = c' := Slot.other_eq_of_ne fun h => hcc h.symm
      have hob := ho.bootable
      have hsucc : ((UBoot.normalize e).slots c.other).successfulBoot = 0 := by
        rw [hw.other, hn, hs]
      rw [hw.other, hn] at hob
      have h1 : ((x.block b).slots c).triesRemaining.toNat ≠ 1 := fun h1 => hk.lastTry ⟨h1, hob, hs⟩
      have h8 : ¬ 8 ≤ ((x.block b).slots c).triesRemaining.toNat := fun h8 =>
        (hk.surplus h8).2.2.1 hs
      obtain ⟨hself, hother⟩ := ho.tries hsucc
      rw [hw.other, hn] at hself
      rw [other_other, hrel.tries, if_neg h1, if_pos (by omega)] at hother
      rw [other_other]
      exact ⟨hself, hother⟩
  · have hsame := hw.successful hsc (hn c)
    have hcc : c' ≠ c := fun h => hsc (h ▸ hs)
    obtain rfl : c.other = c' := Slot.other_eq_of_ne hcc.symm
    have hsucc : ((UBoot.normalize e).slots c.other).successfulBoot = 0 := by
      rw [hw.other, hn, hs]
    obtain ⟨hself, hother⟩ := ho.tries hsucc
    rw [hw.other, hn] at hself
    rw [other_other, hsame] at hother
    rw [other_other]
    exact ⟨hself, hother⟩

theorem countsOne_iff (h : Works b x) (hver : Verified v) (hn : Normalized (x.block b)) :
    CountsOne b v x ↔ ∀ c, Chosen AVB_AB_SLOT_B (x.block b) c →
      ((x.block b).slots c).successfulBoot = 0 → KeepsCount (x.block b) c :=
  ⟨CountsOne.keepsCount h hver hn, countsOne_of_keepsCount h hver hn⟩

/-! ## Boots until a slot is given up -/

/-- Slot `c` is handed over in exactly `n` boots, and in the next one it is not. -/
def HandedOver (b : ℕ) (v : Verifier) (c : Slot) : ℕ → Device → Prop
  | 0, x => ∀ r x', FullBoot b v x r x' → ¬ HandsOver r c
  | n + 1, x => (∃ r x', FullBoot b v x r x') ∧
      ∀ r x', FullBoot b v x r x' → HandsOver r c ∧ HandedOver b v c n x'

theorem HandedOver.unique {n m : ℕ} (hn : HandedOver b v c n x) (hm : HandedOver b v c m x) :
    n = m := by
  induction n generalizing x m with
  | zero =>
    cases m with
    | zero => rfl
    | succ m =>
      obtain ⟨⟨r, x', hb⟩, hall⟩ := hm
      exact absurd (hall r x' hb).1 (hn r x' hb)
  | succ n ih =>
    obtain ⟨⟨r, x', hb⟩, hall⟩ := hn
    cases m with
    | zero => exact absurd (hall r x' hb).1 (hm r x' hb)
    | succ m => rw [ih (hall r x' hb).2 (hm.2 r x' hb).2]

/-- How many boots a slot with `t` tries gets: the last one is lost in BL2, and above seven
each boot takes two. -/
def handovers : ℕ → ℕ
  | 0 => 0
  | 1 => 0
  | t + 2 => if t + 2 ≤ 7 then t + 1 else handovers t + 1

theorem handovers_lt {t : ℕ} (ht : 0 < t) : handovers t < t := by
  induction t using handovers.induct with
  | case1 => exact absurd ht (by decide)
  | case2 => exact Nat.zero_lt_one
  | case3 t h =>
    rw [handovers, if_pos h]
    omega
  | case4 t h ih =>
    rw [handovers, if_neg h]
    have := ih (by omega)
    omega

/-- Slot `c` has been made active and has not booted successfully since. -/
structure Active (d : AvbABData) (c : Slot) : Prop where
  priority : (d.slots c.other).priority < (d.slots c).priority
  successful : (d.slots c).successfulBoot = 0
  other : UBoot.normalizeSlot (d.slots c.other) = d.slots c.other

theorem Active.isBootable_iff (h : Active d c) :
    (d.slots c).isBootable = true ↔ 0 < (d.slots c).triesRemaining.toNat := by
  rw [AvbABSlotData.isBootable_iff, toNat_pos]
  constructor
  · rintro ⟨-, hb⟩
    exact (toNat_pos _).mp (hb.resolve_left fun hs => hs h.successful)
  · exact fun ht => ⟨(toNat_pos _).mp (UInt8.lt_of_le_of_lt UInt8.zero_le h.priority),
      .inr ((toNat_pos _).mpr ht)⟩

/-- BL2 boots the active slot while it has tries. -/
theorem Active.chosen_iff (h : Active d c) (ht : 0 < (d.slots c).triesRemaining.toNat) :
    Chosen AVB_AB_SLOT_B d c' ↔ c' = c := by
  constructor
  · intro hc
    by_contra hne
    obtain rfl : c.other = c' := Slot.other_eq_of_ne fun he => hne he.symm
    have hbest := hc.2
    rw [other_other] at hbest
    rcases hbest (h.isBootable_iff.mpr ht) with hlt | ⟨-, heq⟩
    · exact UInt8.lt_irrefl _ (UInt8.lt_trans h.priority hlt)
    · exact UInt8.ne_of_lt h.priority heq.symm
  · rintro rfl
    exact ⟨h.isBootable_iff.mpr ht, fun _ => .inl h.priority⟩

/-- With at most one try the slot does not reach the kernel. -/
theorem Active.given_up (h : Works b x) (hver : Verified v) (ha : Active (x.block b) c)
    (ht : x.tries b c ≤ 1) : HandedOver b v c 0 x := by
  intro r x' hb hhand
  obtain ⟨e, c0, ho⟩ := hb.outcome h hver hhand
  by_cases hcc : c0 = c
  · subst hcc
    have hw := ho.loads.prepared.worked (.inl ha.priority)
    have hrel := hw.reloaded ho.loads.chosen.1 ha.successful
    have hpos := ha.isBootable_iff.mp ho.loads.chosen.1
    refine hrel.bootable.mp ho.bootable ?_
    rw [Device.tries] at ht
    omega
  · obtain rfl : c.other = c0 := Slot.other_eq_of_ne fun he => hcc he.symm
    have hother := ho.loads.prepared.other
    have hb := ho.bootable
    rw [other_other] at hother
    rw [UBoot.slots_normalize, hother, UBoot.isBootable_normalizeSlot, ha.isBootable_iff] at hb
    exact hcc ((ha.chosen_iff hb.1).mp ho.loads.chosen)

/-- With more tries it does, and the boot takes one or two of them. -/
theorem Active.boot (h : Works b x) (hver : Verified v) (ha : Active (x.block b) c)
    (ht : 2 ≤ x.tries b c) (hb : FullBoot b v x r x') :
    HandsOver r c ∧ Works b x' ∧ Active (x'.block b) c ∧
      x'.tries b c + (if x.tries b c ≤ 7 then 1 else 2) = x.tries b c := by
  have hpos : 0 < ((x.block b).slots c).triesRemaining.toNat := by
    rw [Device.tries] at ht
    omega
  obtain ⟨e, c0, hl, hsome, -⟩ := hb.spec h hver
  obtain rfl := (ha.chosen_iff hpos).mp hl.chosen
  have hw := hl.prepared.worked (.inl ha.priority)
  have hrel := hw.reloaded hl.chosen.1 ha.successful
  have h1 : ((x.block b).slots c0).triesRemaining.toNat ≠ 1 := by
    rw [Device.tries] at ht
    omega
  have hbc := hrel.bootable.mpr h1
  have hsel : UBoot.avbGetBootableSlot (UBoot.normalize e) = some c0 := by
    refine avbGetBootableSlot_eq_some_iff.mpr ⟨hbc, fun _ => .inl ?_⟩
    rw [hrel.priority hbc, hw.other, ha.other]
    exact ha.priority
  have ho := hsome c0 hsel
  obtain ⟨-, hprio, hsucc, hother⟩ := decrementTries_spec hbc hrel.successful
  have hself := (ho.tries hrel.successful).1
  rw [← ho.slots, hw.other, ha.other] at hother
  rw [← ho.slots] at hprio hsucc
  refine ⟨ho.handsOver hver, ho.works, ⟨?_, hsucc, ?_⟩, ?_⟩
  · rw [hprio, hrel.priority hbc, hother]
    exact ha.priority
  · rw [hother]
    exact ha.other
  · rw [hrel.tries, if_neg h1] at hself
    rw [Device.tries] at ht ⊢
    rw [Device.tries] at hself ⊢
    split_ifs at hself ⊢ <;> omega

theorem Active.exists_boot (h : Works b x) (hver : Verified v) (ha : Active (x.block b) c)
    (ht : 2 ≤ x.tries b c) : ∃ r x', FullBoot b v x r x' := by
  have hpos : 0 < ((x.block b).slots c).triesRemaining.toNat := by
    rw [Device.tries] at ht
    omega
  have hc := (ha.chosen_iff hpos).mpr rfl
  obtain ⟨r, x', -, -, hb, -⟩ := exists_fullBoot h hver hc fun e he hnone => by
    have hrel := (he.worked (.inl ha.priority)).reloaded hc.1 ha.successful
    have := UBoot.avbGetBootableSlot_eq_none.mp hnone c
    rw [hrel.bootable.mpr (by rw [Device.tries] at ht; omega)] at this
    cases this
  exact ⟨r, x', hb⟩

theorem Active.handedOver (h : Works b x) (hver : Verified v) (ha : Active (x.block b) c) {t : ℕ}
    (ht : x.tries b c = t) : HandedOver b v c (handovers t) x := by
  induction t using Nat.strong_induction_on generalizing x with
  | _ t ih =>
    by_cases h1 : t ≤ 1
    · have h0 : handovers t = 0 := by
        obtain rfl | rfl : t = 0 ∨ t = 1 := by omega
        · rfl
        · rfl
      rw [h0]
      exact ha.given_up h hver (by omega)
    · obtain ⟨n, rfl⟩ : ∃ n, t = n + 2 := ⟨t - 2, by omega⟩
      have hex := ha.exists_boot h hver (by omega)
      by_cases h7 : n + 2 ≤ 7
      · have hnext : handovers (n + 2) = handovers (n + 1) + 1 := by
          obtain rfl | hn : n = 0 ∨ 0 < n := by omega
          · rfl
          · obtain ⟨k, rfl⟩ : ∃ k, n = k + 1 := ⟨n - 1, by omega⟩
            rw [handovers, if_pos h7, handovers, if_pos (by omega)]
        rw [hnext]
        refine ⟨hex, fun r x' hb => ?_⟩
        obtain ⟨hhand, hworks, hactive, htries⟩ := ha.boot h hver (by omega) hb
        rw [if_pos (by omega)] at htries
        exact ⟨hhand, ih (n + 1) (by omega) hworks hactive (by omega)⟩
      · rw [handovers, if_neg h7]
        refine ⟨hex, fun r x' hb => ?_⟩
        obtain ⟨hhand, hworks, hactive, htries⟩ := ha.boot h hver (by omega) hb
        rw [if_neg (by omega)] at htries
        exact ⟨hhand, ih n (by omega) hworks hactive (by omega)⟩

/-- One boot takes one try of a slot that never booted successfully if and only if it is not the
last try beside a slot that has tries, and not one of more than seven. A slot made active with
`t` tries is handed over `handovers t` times before it is given up, which is `t` only for 0. -/
theorem tries_counted_iff (h : Works b x) (hver : Verified v) :
    (Normalized (x.block b) → (CountsOne b v x ↔ ∀ c, Chosen AVB_AB_SLOT_B (x.block b) c →
        ((x.block b).slots c).successfulBoot = 0 → KeepsCount (x.block b) c)) ∧
      ∀ c, Active (x.block b) c → HandedOver b v c (handovers (x.tries b c)) x ∧
        (HandedOver b v c (x.tries b c) x ↔ x.tries b c = 0) := by
  refine ⟨countsOne_iff h hver, fun c ha => ⟨ha.handedOver h hver rfl, fun ht => ?_, fun ht => ?_⟩⟩
  · by_contra hne
    have heq := (ha.handedOver h hver rfl).unique ht
    have hlt := handovers_lt (Nat.pos_of_ne_zero hne)
    omega
  · have := ha.handedOver h hver ht
    rwa [ht]

end Count

/-! ## A new device -/

/-- A new card, on which slot A is active with seven tries. -/
def newPhone : Device := ⟨Bl2.newCard, UBoot.newDevice⟩

/-- Every slot verifies. -/
def acceptAll : Verifier := ⟨fun c => (.ok, some ⟨slotSuffixes c, fun _ => 0⟩), false⟩

theorem verified_acceptAll : Verified acceptAll := fun _ => ⟨_, rfl, rfl⟩

theorem block_newPhone : newPhone.block 34 = blockOf ⟨15, 7, 0, 0⟩ ⟨14, 7, 0, 0⟩ :=
  Bl2.abData_card _ _ fun _ => true

theorem works_newPhone : Works 34 newPhone := by
  have hready : Ready 34 Bl2.newCard := Bl2.ready_card _ _ _
  have himages : Bl2.Images Bl2.newCard fun _ => true := Bl2.images_card _ _ _
  refine ⟨hready, ?_, fun s1 hs1 hp => ?_, UBoot.allOk_device _ _⟩
  · rw [block_newPhone]
    exact valid_blockOf _ _
  · have himages1 : Bl2.Images s1 fun _ => true := fun c => by
      rw [hp _ (by rcases c.eq_zero_or_one with rfl | rfl <;> decide)]
      exact himages c
    exact Bl2.iplResults_of_images hs1 himages1

theorem active_newPhone : Active (newPhone.block 34) AVB_AB_SLOT_A := by
  rw [block_newPhone]
  exact ⟨by decide, by decide, by decide⟩

theorem tries_newPhone : newPhone.tries 34 AVB_AB_SLOT_A = 7 := by
  rw [Device.tries, block_newPhone]
  decide

theorem tries_counted_newPhone : HandedOver 34 acceptAll AVB_AB_SLOT_A 6 newPhone := by
  have := ((tries_counted_iff works_newPhone verified_acceptAll).2 AVB_AB_SLOT_A active_newPhone).1
  rwa [tries_newPhone] at this

/-- Slot A of a new device is handed over six times, not seven. -/
theorem seven_tries_six_boots :
    newPhone.tries 34 AVB_AB_SLOT_A = 7 ∧ HandedOver 34 acceptAll AVB_AB_SLOT_A 6 newPhone ∧
      ¬ HandedOver 34 acceptAll AVB_AB_SLOT_A 7 newPhone := by
  have h6 : HandedOver 34 acceptAll AVB_AB_SLOT_A 6 newPhone :=
    active_newPhone.handedOver works_newPhone verified_acceptAll tries_newPhone
  exact ⟨tries_newPhone, h6, fun h7 => absurd (h6.unique h7) (by decide)⟩

end RCar
