import Mathlib

/-! The speed, the gear and the engine speed of the cluster's car model (`app_cl_carmodel.c`). The speed is an exact
number; the other parts of an update write only what these do not read. -/

namespace RCar.CarModel

def LOC_ACCELERATION_FACTOR : ℚ := 0.95
def LOC_CM_SPEED_MAX : ℚ := 240
def LOC_CM_SPEED_MIN : ℚ := 10
def LOC_CM_SPEED_MID : ℚ := 50
def LOC_CM_RPM_MAX : UInt16 := 8000
def LOC_CM_RPM_MIN : UInt16 := 100
def LOC_CM_GEARDOWN_RPM : UInt16 := 2700
def LOC_CM_GEARUP_RPM : UInt16 := 5500
def LOC_CM_GEAR_MAX : ℤ := 5
def LOC_CM_GEAR_MIN : ℤ := 1

def locGearTrans : List ℚ := [200, 200, 150, 100, 50, 25]

/-- `CarData`, with the counter of `locUpdateSpeed`. -/
structure Car where
  rpm : UInt16
  speed : ℚ
  gear : ℤ
  direction : ℤ
  cc : ℤ

/-- The translation of a gear, where there is one in the table. -/
def gearTrans (gear : ℤ) : Option ℚ := if 0 ≤ gear then locGearTrans[gear.toNat]? else none

/-- The conversion to `uint16_t`, which has no meaning for a number that does not fit. -/
def toUint16 (x : ℚ) : Option UInt16 := if -1 < x ∧ x < 65536 then some (UInt16.ofNat ⌊x⌋.toNat) else none

/-! ## locUpdateSpeed -/

/-- At the ends and in the middle of its range the speed stays for a while. -/
def Rests (s : Car) : Prop :=
  s.speed ≤ LOC_CM_SPEED_MIN ∨ (LOC_CM_SPEED_MID ≤ s.speed ∧ s.speed < LOC_CM_SPEED_MID + LOC_ACCELERATION_FACTOR) ∨
    LOC_CM_SPEED_MAX ≤ s.speed

instance (s : Car) : Decidable (Rests s) := inferInstanceAs (Decidable (_ ∨ _))

/-- The update of the speed when it does not rest. -/
def changeSpeed (s : Car) : Car :=
  let speed := s.speed + LOC_ACCELERATION_FACTOR * s.direction
  if LOC_CM_SPEED_MAX < speed then { s with speed := LOC_CM_SPEED_MAX, direction := -1 }
  else if speed ≤ LOC_CM_SPEED_MIN then { s with speed := LOC_CM_SPEED_MIN, direction := 1 }
  else { s with speed := speed }

def locUpdateSpeed (s : Car) : Car :=
  if Rests s ∧ s.cc < 100 then
    if s.cc + 1 < 100 then { s with cc := s.cc + 1 } else changeSpeed { s with cc := 0 }
  else changeSpeed s

/-! ## locUpdateRpm -/

/-- The product that is assigned to the engine speed. -/
def rpmIn (s : Car) (gear : ℤ) : Option UInt16 := (gearTrans gear).bind fun trans => toUint16 (s.speed * trans)

/-- The gear is changed, and the engine speed with it. -/
def shift (s : Car) (gear : ℤ) : Option Car := (rpmIn s gear).map fun rpm => { s with rpm := rpm, gear := gear }

/-- The body of the loop. -/
def rpmPass (s : Car) : Option Car :=
  (rpmIn s s.gear).bind fun rpm =>
    if LOC_CM_GEARUP_RPM < rpm ∧ 0 < s.direction then
      if s.gear < LOC_CM_GEAR_MAX then shift s (s.gear + 1) else some { s with rpm := rpm }
    else if rpm < LOC_CM_GEARDOWN_RPM ∧ s.direction < 0 then
      if LOC_CM_GEAR_MIN < s.gear then shift s (s.gear - 1) else some { s with rpm := rpm }
    else some { s with rpm := rpm }

/-- `none` is an access outside the table, a product that does not fit, or a loop that needs more turns. -/
def locUpdateRpm : ℕ → Car → Option Car
  | 0, _ => none
  | turns + 1, s => (rpmPass s).bind fun s =>
    if LOC_CM_RPM_MAX < s.rpm ∨ s.rpm < LOC_CM_RPM_MIN then locUpdateRpm turns s else some s

/-! ## Calls -/

def carModelUpdate (turns : ℕ) (s : Car) : Option Car := locUpdateRpm turns (locUpdateSpeed s)

def initCarModel (s : Car) : Car := { s with speed := 30, rpm := 25, gear := 1, direction := 1 }

inductive Call where
  | init
  | update

/-- A call, with the turns that a loop may take. -/
def call (turns : ℕ) (s : Car) : Call → Option Car
  | .init => some (initCarModel s)
  | .update => carModelUpdate turns s

end RCar.CarModel
