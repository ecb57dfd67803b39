import RCarM3N.Lib.Traces
import RCarM3N.Model.CarModel

/-! The car model never hangs: after every update the product of the speed and the translation is at most 6000, so the
loop of `locUpdateRpm` ends with its first turn. -/

namespace RCar.CarModel

/-- The translations of the gears. -/
def translation (gear : ℤ) : ℚ := (gearTrans gear).getD 0

def InGear (gear : ℤ) : Prop := 1 ≤ gear ∧ gear ≤ 5

variable {s t : Car} {gear : ℤ} {rpm : UInt16} {turns : ℕ}

/-! ## Gears -/

theorem translation_values : translation 1 = 200 ∧ translation 2 = 150 ∧ translation 3 = 100 ∧ translation 4 = 50 ∧
    translation 5 = 25 := ⟨rfl, rfl, rfl, rfl, rfl⟩

theorem InGear.cases (h : InGear gear) : gear = 1 ∨ gear = 2 ∨ gear = 3 ∨ gear = 4 ∨ gear = 5 := by
  obtain ⟨h1, h5⟩ := h
  omega

theorem InGear.up (h : InGear gear) (h5 : gear < 5) : InGear (gear + 1) := ⟨by linarith [h.1], by omega⟩

theorem InGear.down (h : InGear gear) (h1 : 1 < gear) : InGear (gear - 1) := ⟨by omega, by linarith [h.2]⟩

theorem gearTrans_eq (h : InGear gear) : gearTrans gear = some (translation gear) := by
  rcases h.cases with rfl | rfl | rfl | rfl | rfl <;> rfl

theorem translation_bounds (h : InGear gear) : 25 ≤ translation gear ∧ translation gear ≤ 200 := by
  rcases h.cases with rfl | rfl | rfl | rfl | rfl <;> norm_num [translation_values]

theorem translation_up (h : InGear gear) (h5 : gear < 5) : translation (gear + 1) ≤ 3 / 4 * translation gear := by
  have hcases : gear = 1 ∨ gear = 2 ∨ gear = 3 ∨ gear = 4 := by
    have := h.cases
    omega
  rcases hcases with rfl | rfl | rfl | rfl <;> norm_num [translation_values]

theorem translation_down (h : InGear gear) (h1 : 1 < gear) : translation (gear - 1) ≤ 2 * translation gear := by
  have hcases : gear = 2 ∨ gear = 3 ∨ gear = 4 ∨ gear = 5 := by
    have := h.cases
    omega
  rcases hcases with rfl | rfl | rfl | rfl <;> norm_num [translation_values]

/-- At high speeds only the last gear has a small product. -/
theorem translation_fast (h : InGear gear) {speed : ℚ} (hfast : 239 < speed) (hprod : speed * translation gear ≤ 6000) :
    translation gear = 25 := by
  rcases h.cases with rfl | rfl | rfl | rfl | rfl <;> norm_num [translation_values] at hprod ⊢ <;> linarith

/-! ## The engine speed -/

theorem toUint16_spec {x : ℚ} (h0 : 0 ≤ x) (h : x < 65536) : ∃ n, toUint16 x = some n ∧ (n.toNat : ℤ) = ⌊x⌋ := by
  have hfloor : ⌊x⌋ < 65536 := Int.floor_lt.mpr (by exact_mod_cast h)
  have hpos : 0 ≤ ⌊x⌋ := Int.floor_nonneg.mpr h0
  refine ⟨_, if_pos ⟨by linarith, h⟩, ?_⟩
  rw [UInt16.toNat_ofNat_of_lt' (by change ⌊x⌋.toNat < 65536; omega)]
  exact Int.toNat_of_nonneg hpos

theorem rpmIn_spec (hgear : InGear gear) (h0 : 0 ≤ s.speed) (h : s.speed ≤ 240) : ∃ rpm,
    rpmIn s gear = some rpm ∧ (rpm.toNat : ℤ) = ⌊s.speed * translation gear⌋ := by
  obtain ⟨hlow, hhigh⟩ := translation_bounds hgear
  rw [rpmIn, gearTrans_eq hgear]
  apply toUint16_spec
  · positivity
  · nlinarith

/-- What holds after every call. -/
structure Driving (s : Car) : Prop where
  slow : 10 ≤ s.speed
  fast : s.speed ≤ 240
  gear : InGear s.gear
  direction : s.direction = 1 ∨ s.direction = -1
  product : s.speed * translation s.gear ≤ 6000

/-! ## locUpdateSpeed -/

/-- What holds between the two parts of an update: one step faster than after a call. -/
structure Updating (s : Car) : Prop where
  slow : 10 ≤ s.speed
  fast : s.speed ≤ 240
  gear : InGear s.gear
  direction : s.direction = 1 ∨ s.direction = -1
  product : s.speed * translation s.gear ≤ 6190
  braking : s.direction = -1 → s.speed * translation s.gear ≤ 6000

theorem Driving.updating (h : Driving s) : Updating s :=
  ⟨h.slow, h.fast, h.gear, h.direction, by linarith [h.product], fun _ => h.product⟩

/-- A step of the speed, up or down. -/
theorem Driving.step (h : Driving s) : (s.speed + 0.95 * s.direction) * translation s.gear ≤ 6190 ∧
    (s.direction = -1 → (s.speed + 0.95 * s.direction) * translation s.gear ≤ 6000) ∧
    s.speed + 0.95 * s.direction ≤ s.speed + 0.95 := by
  obtain ⟨hlow, hhigh⟩ := translation_bounds h.gear
  have hprod := h.product
  rcases h.direction with hdir | hdir
  · simp only [hdir]
    norm_num
    linarith
  · simp only [hdir]
    norm_num
    refine ⟨?_, ?_⟩ <;> linarith

theorem Driving.changeSpeed (h : Driving s) : Updating (changeSpeed s) := by
  obtain ⟨hprod, hbraking, hstep⟩ := h.step
  unfold CarModel.changeSpeed LOC_ACCELERATION_FACTOR LOC_CM_SPEED_MAX LOC_CM_SPEED_MIN
  simp only
  split_ifs with hmax hmin
  · -- the highest speed is driven in the last gear
    have htop : translation s.gear = 25 := translation_fast h.gear (by linarith) h.product
    refine ⟨by norm_num, le_rfl, h.gear, Or.inr rfl, ?_, fun _ => ?_⟩ <;> norm_num [htop]
  · have hhigh := (translation_bounds h.gear).2
    refine ⟨le_rfl, by norm_num, h.gear, Or.inl rfl, ?_, fun h => by cases h⟩
    change 10 * translation s.gear ≤ 6190
    linarith
  · exact ⟨(not_le.mp hmin).le, not_lt.mp hmax, h.gear, h.direction, hprod, hbraking⟩

theorem Driving.locUpdateSpeed (h : Driving s) : Updating (locUpdateSpeed s) := by
  unfold CarModel.locUpdateSpeed
  split_ifs
  · exact Driving.updating (s := { s with cc := s.cc + 1 }) ⟨h.slow, h.fast, h.gear, h.direction, h.product⟩
  · exact Driving.changeSpeed (s := { s with cc := 0 }) ⟨h.slow, h.fast, h.gear, h.direction, h.product⟩
  · exact h.changeSpeed

/-! ## locUpdateRpm -/

/-- The engine speed is that of the speed and the gear. -/
def Turning (s : Car) : Prop := (s.rpm.toNat : ℤ) = ⌊s.speed * translation s.gear⌋

theorem Updating.rpmIn (h : Updating s) (hgear : InGear gear) : ∃ rpm,
    rpmIn s gear = some rpm ∧ (rpm.toNat : ℤ) = ⌊s.speed * translation gear⌋ :=
  rpmIn_spec hgear (by linarith [h.slow]) h.fast

theorem Updating.shift (h : Updating s) (hgear : InGear gear) (hprod : s.speed * translation gear ≤ 6000) :
    ∃ t, shift s gear = some t ∧ Driving t ∧ Turning t := by
  obtain ⟨rpm, hrpm, hfloor⟩ := h.rpmIn hgear
  exact ⟨_, congrArg (Option.map _) hrpm, ⟨h.slow, h.fast, hgear, h.direction, hprod⟩, hfloor⟩

/-- One turn of the loop chooses a gear in which the product is small enough. -/
theorem Updating.rpmPass (h : Updating s) : ∃ t, rpmPass s = some t ∧ Driving t ∧ Turning t := by
  obtain ⟨rpm, hrpm, hfloor⟩ := h.rpmIn h.gear
  have hkeep : s.speed * translation s.gear ≤ 6000 →
      Driving { s with rpm := rpm } ∧ Turning { s with rpm := rpm } :=
    fun hprod => ⟨⟨h.slow, h.fast, h.gear, h.direction, hprod⟩, hfloor⟩
  have hslow := h.slow
  have hproduct : s.speed * translation s.gear < rpm.toNat + 1 := by
    have hlt := Int.lt_floor_add_one (s.speed * translation s.gear)
    rwa [← hfloor] at hlt
  rw [CarModel.rpmPass, hrpm, Option.bind_some]
  split_ifs with hup hgear hdown hgear
  · refine h.shift (h.gear.up hgear) ?_
    nlinarith [translation_up h.gear hgear, h.product]
  · have htop : s.gear = 5 := le_antisymm h.gear.2 (not_lt.mp hgear)
    refine ⟨_, rfl, hkeep ?_⟩
    rw [htop, translation_values.2.2.2.2]
    linarith [h.fast]
  · have hrpm : (rpm.toNat : ℚ) < 2700 := by exact_mod_cast UInt16.lt_iff_toNat_lt.mp hdown.1
    refine h.shift (h.gear.down hgear) ?_
    nlinarith [translation_down h.gear hgear]
  · have hdir : s.direction = -1 := h.direction.resolve_left (by linarith [hdown.2])
    exact ⟨_, rfl, hkeep (h.braking hdir)⟩
  · refine ⟨_, rfl, hkeep ?_⟩
    rcases h.direction with hdir | hdir
    · have hle : rpm.toNat ≤ 5500 := by
        by_contra hgt
        exact hup ⟨UInt16.lt_iff_toNat_lt.mpr (not_le.mp hgt), by rw [hdir]; decide⟩
      have hrpm : (rpm.toNat : ℚ) ≤ 5500 := by exact_mod_cast hle
      linarith
    · exact h.braking hdir

theorem Turning.bounds (h : Driving s) (hturn : Turning s) : 100 ≤ s.rpm.toNat ∧ s.rpm.toNat ≤ 8000 := by
  have hlow := (translation_bounds h.gear).1
  have hproduct := h.product
  have hslow := h.slow
  have hfloor : 100 ≤ ⌊s.speed * translation s.gear⌋ := Int.le_floor.mpr (by push_cast; nlinarith)
  have hceil : ⌊s.speed * translation s.gear⌋ ≤ 8000 := Int.floor_le_iff.mpr (by push_cast; linarith)
  unfold Turning at hturn
  omega

/-- The loop ends with its first turn. -/
theorem Updating.locUpdateRpm (h : Updating s) (turns : ℕ) :
    ∃ t, locUpdateRpm (turns + 1) s = some t ∧ Driving t ∧ Turning t := by
  obtain ⟨t, ht, hdriving, hturning⟩ := h.rpmPass
  obtain ⟨hmin, hmax⟩ := hturning.bounds hdriving
  refine ⟨t, ?_, hdriving, hturning⟩
  rw [CarModel.locUpdateRpm, ht, Option.bind_some, if_neg]
  rw [not_or, UInt16.not_lt, UInt16.not_lt, UInt16.le_iff_toNat_le, UInt16.le_iff_toNat_le]
  exact ⟨hmax, hmin⟩

/-- Without the bound the loop can go on for ever: when braking at a high speed in the first gear. -/
theorem locUpdateRpm_hangs (hgear : s.gear = 1) (hdir : s.direction = -1) (hlow : 8001 ≤ s.speed * 200)
    (hhigh : s.speed ≤ 240) (turns : ℕ) : locUpdateRpm turns s = none := by
  induction turns generalizing s with
  | zero => rfl
  | succ turns ih =>
    have hfirst : InGear 1 := ⟨le_rfl, by norm_num⟩
    obtain ⟨rpm, hrpm, hfloor⟩ := rpmIn_spec (s := s) hfirst (by linarith) hhigh
    have hrpm_gt : 8000 < rpm.toNat := by
      have : 8001 ≤ ⌊s.speed * translation 1⌋ := Int.le_floor.mpr (by push_cast; exact hlow)
      omega
    have hpass : rpmPass s = some { s with rpm := rpm } := by
      rw [rpmPass, hgear, hrpm, Option.bind_some, if_neg, if_neg]
      · rw [not_and_or, UInt16.not_lt, UInt16.le_iff_toNat_le]
        exact Or.inl (hrpm_gt.le.trans' (by decide))
      · rw [hdir]
        exact fun h => absurd h.2 (by decide)
    have hmax : LOC_CM_RPM_MAX < rpm := UInt16.lt_iff_toNat_lt.mpr hrpm_gt
    rw [locUpdateRpm, hpass, Option.bind_some, if_pos (Or.inl hmax)]
    exact ih hgear hdir hlow hhigh

/-! ## Calls -/

theorem initCarModel_driving (s : Car) : Driving (initCarModel s) := by
  refine ⟨?_, ?_, ⟨le_rfl, ?_⟩, Or.inl rfl, ?_⟩ <;> norm_num [initCarModel, translation_values]

/-- A call returns with the speed and the gear in their ranges; an update with the product in its bounds, and with the
engine speed that it stands for. -/
def CallRight (turns : ℕ) (s : Car) (c : Call) : Prop :=
  ∃ t, call turns s c = some t ∧ (10 ≤ t.speed ∧ t.speed ≤ 240) ∧ (1 ≤ t.gear ∧ t.gear ≤ 5) ∧
    (c = .update → ∃ trans, gearTrans t.gear = some trans ∧ 100 ≤ t.speed * trans ∧ t.speed * trans ≤ 8000 ∧
      (t.rpm.toNat : ℤ) = ⌊t.speed * trans⌋)

theorem init_right (s : Car) (turns : ℕ) : CallRight turns s .init := by
  have hinit := initCarModel_driving s
  exact ⟨_, rfl, ⟨hinit.slow, hinit.fast⟩, hinit.gear, fun h => by cases h⟩

theorem Driving.call (h : Driving s) (turns : ℕ) (c : Call) :
    CallRight (turns + 1) s c ∧ ∃ t, call (turns + 1) s c = some t ∧ Driving t := by
  cases c with
  | init => exact ⟨init_right s _, _, rfl, initCarModel_driving s⟩
  | update =>
    obtain ⟨t, ht, hdriving, hturning⟩ := h.locUpdateSpeed.locUpdateRpm turns
    have hlow := (translation_bounds hdriving.gear).1
    have hslow := hdriving.slow
    refine ⟨⟨t, ht, ⟨hslow, hdriving.fast⟩, hdriving.gear, fun _ => ⟨_, gearTrans_eq hdriving.gear, ?_, ?_, hturning⟩⟩,
      t, ht, hdriving⟩
    · nlinarith
    · linarith [hdriving.product]

/-- After `InitCarModel` every call of a sequence returns, and no loop takes more than one turn. -/
theorem carModel_never_hangs (s : Car) (turns : ℕ) (calls : List Call) :
    CallRight (turns + 1) s .init ∧
      ∀ x ∈ trace (call (turns + 1)) (initCarModel s) calls, CallRight (turns + 1) x.1 x.2 := by
  exact ⟨init_right s _, trace_right (fun s c h => h.call turns c) (initCarModel_driving s) calls⟩

end RCar.CarModel
