import Mathlib

/-! The sizes of the small index types are not zero; the numerals of these types rest on these instances everywhere. -/

namespace RCar

instance neZero_two : NeZero 2 := ⟨by decide⟩

instance neZero_four : NeZero 4 := ⟨by decide⟩

instance neZero_eight : NeZero 8 := ⟨by decide⟩

end RCar
