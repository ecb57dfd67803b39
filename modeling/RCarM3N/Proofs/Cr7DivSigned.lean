import RCarM3N.Proofs.Cr7Div

/-! When the signed division of the loader of the Cortex-R7 returns what it is for. It returns the
quotient in both registers, so that quotient and remainder have to be the same; and its quotient is
right if the search for the first shift that takes the divisor above the numerator ends before the
shifted divisor leaves the positive numbers. -/

namespace RCar.Cr7

open Arm

variable {a b q x : Word}

/-! ## Rounds -/

theorem toInt_eq_toNat (h : x.toNat < 2 ^ 31) : x.toInt = x.toNat :=
  BitVec.toInt_eq_toNat_of_msb (by rw [BitVec.msb_eq_false_iff_two_mul_lt]; omega)

theorem toNat_half (h : x.toNat < 2 ^ 31) : (x.sshiftRight 1).toNat = x.toNat / 2 := by
  rw [BitVec.sshiftRight_eq_of_msb_false (by rw [BitVec.msb_eq_false_iff_two_mul_lt]; omega),
    BitVec.toNat_ushiftRight, Nat.shiftRight_one]

/-- Setting a clear bit adds it. -/
theorem toNat_or_bit {j : ℕ} (hj : j < 32) (hq : q.toNat % 2 ^ (j + 1) = 0) :
    (q ||| 1#32 <<< j).toNat = q.toNat + 2 ^ j := by
  have hone : (1#32 <<< j).toNat = 2 ^ j := by
    rw [← BitVec.twoPow_eq, BitVec.toNat_twoPow, Nat.mod_eq_of_lt (Nat.pow_lt_pow_right (by decide) hj)]
  obtain ⟨c, hc⟩ := Nat.dvd_of_mod_eq_zero hq
  rw [BitVec.toNat_or, hone, hc, Nat.mul_comm, ← Nat.shiftLeft_eq, ← Nat.shiftLeft_add_eq_or_of_lt]
  exact Nat.pow_lt_pow_right (by decide) (Nat.lt_succ_self j)

/-- The rounds divide, as long as the shifted divisor is a positive number. -/
theorem divideRounds_toNat {d j : ℕ} (hj : j ≤ 31) (hx : ∀ i, j = i + 1 → x.toNat = d * 2 ^ i)
    (hfits : ∀ i, j = i + 1 → d * 2 ^ i < 2 ^ 31) (ha : a.toNat < d * 2 ^ j) (ha31 : a.toNat < 2 ^ 31)
    (hq : q.toNat % 2 ^ j = 0) : (divideRounds j q x a).toNat = q.toNat + a.toNat / d := by
  have hd : 0 < d := Nat.pos_of_ne_zero fun h => by simp [h] at ha
  induction j generalizing q x a with
  | zero => rw [divideRounds, Nat.div_eq_of_lt (by simpa using ha), Nat.add_zero]
  | succ j ih =>
    have hx := hx j rfl
    have hfits := hfits j rfl
    have hxhalf : ∀ i, j = i + 1 → (x.sshiftRight 1).toNat = d * 2 ^ i := by
      rintro i rfl
      rw [toNat_half (by omega), hx, pow_succ, ← Nat.mul_assoc, Nat.mul_div_cancel _ (by decide)]
    have hfits' : ∀ i, j = i + 1 → d * 2 ^ i < 2 ^ 31 := by
      rintro i rfl
      refine lt_of_le_of_lt ?_ hfits
      gcongr
      · decide
      · omega
    have hq' : 2 ^ j ∣ q.toNat := (pow_dvd_pow 2 (Nat.le_succ j)).trans (Nat.dvd_of_mod_eq_zero hq)
    rw [divideRounds]
    split_ifs with hzero hle
    · simp [hzero]
    · rw [toInt_eq_toNat (by omega), toInt_eq_toNat ha31, Nat.cast_le] at hle
      have hsub : (a - x).toNat = a.toNat - d * 2 ^ j := by
        rw [BitVec.toNat_sub_of_le (BitVec.le_def.mpr hle), hx]
      rw [pow_succ, ← Nat.mul_assoc] at ha
      rw [ih (by omega) hxhalf hfits' (by omega) (by omega), toNat_or_bit (by omega) hq, hsub]
      · rw [hx] at hle
        have : a.toNat / d = 2 ^ j + (a.toNat - d * 2 ^ j) / d := by
          conv_lhs => rw [← Nat.sub_add_cancel hle, Nat.add_mul_div_left _ _ hd]
          exact Nat.add_comm _ _
        omega
      · rw [toNat_or_bit (by omega) hq]
        exact Nat.mod_eq_zero_of_dvd (dvd_add hq' dvd_rfl)
    · rw [toInt_eq_toNat (by omega), toInt_eq_toNat ha31, Nat.cast_le] at hle
      exact ih (by omega) hxhalf hfits' (by omega) ha31 (Nat.mod_eq_zero_of_dvd hq')

/-- A bit that is set stays set. -/
theorem getLsbD_divideRounds (j k : ℕ) (h : q.getLsbD k = true) : (divideRounds j q x a).getLsbD k = true := by
  induction j generalizing q x a with
  | zero => exact h
  | succ j ih =>
    rw [divideRounds]
    split_ifs
    · exact h
    · exact ih (by simp [h])
    · exact ih h

theorem divideRounds_zero (j : ℕ) (q x : Word) : divideRounds j q x 0 = q := by
  cases j <;> simp [divideRounds]

/-! ## Search -/

theorem searchFrom_eq_some_iff {k : ℕ} : searchFrom a b 0 32 = some k ↔
    k < 32 ∧ a.toInt < (b <<< k).toInt ∧ ∀ i < k, ¬ a.toInt < (b <<< i).toInt := by
  rw [searchFrom, ← List.range_eq_range', List.find?_range_eq_some]
  simp only [decide_eq_true_eq, List.mem_range, Bool.not_eq_true', decide_eq_false_iff_not]
  tauto

theorem searchFrom_eq_none_iff : searchFrom a b 0 32 = none ↔ ∀ k < 32, ¬ a.toInt < (b <<< k).toInt := by
  rw [searchFrom, ← List.range_eq_range', List.find?_range_eq_none]
  simp only [Bool.not_eq_true', decide_eq_false_iff_not]

theorem toNat_shiftLeft_of_lt {k : ℕ} (h : b.toNat * 2 ^ k < 2 ^ 32) : (b <<< k).toNat = b.toNat * 2 ^ k := by
  rw [BitVec.toNat_shiftLeft, Nat.shiftLeft_eq, Nat.mod_eq_of_lt h]

theorem toInt_shiftLeft_of_lt {k : ℕ} (h : b.toNat * 2 ^ k < 2 ^ 31) : (b <<< k).toInt = (b.toNat * 2 ^ k : ℕ) := by
  have hnat := toNat_shiftLeft_of_lt (b := b) (k := k) (by omega)
  rw [toInt_eq_toNat (by omega), hnat]

/-- The shift before the one that the search has found. -/
theorem shift_pred {k : ℕ} (hk : k < 32) (hpos : 0 < k) : (BitVec.ofNat 32 k - 1).toNat % 256 = k - 1 := by
  rw [BitVec.toNat_sub_of_le] <;> simp [BitVec.le_def] <;> omega

/-- Where a shift takes the divisor above the numerator within the positive numbers, the quotient
is right. -/
theorem divideWord_of_fits {k : ℕ} (hlt : a.toNat < b.toNat * 2 ^ k) (hfits : b.toNat * 2 ^ k < 2 ^ 31) :
    (divideWord a b).toNat = a.toNat / b.toNat := by
  have hb : 0 < b.toNat := Nat.pos_of_ne_zero fun h => by simp [h] at hlt
  have hpow : ∀ i ≤ k, b.toNat * 2 ^ i < 2 ^ 31 := fun i hi =>
    (Nat.mul_le_mul_left _ (Nat.pow_le_pow_right (by decide) hi)).trans_lt hfits
  have hk : k < 31 := (Nat.pow_lt_pow_iff_right (by decide)).mp
    ((Nat.le_mul_of_pos_left _ hb).trans_lt hfits)
  have ha : a.toInt = a.toNat := toInt_eq_toNat (hlt.trans hfits)
  have hfound : a.toInt < (b <<< k).toInt := by
    rw [ha, toInt_shiftLeft_of_lt hfits]
    exact_mod_cast hlt
  cases hsearch : searchFrom a b 0 32 with
  | none => exact absurd hfound (searchFrom_eq_none_iff.mp hsearch k (by omega))
  | some j =>
    obtain ⟨hj, hjlt, hbefore⟩ := searchFrom_eq_some_iff.mp hsearch
    have hjk : j ≤ k := not_lt.mp fun h => hbefore k h hfound
    rw [ha, toInt_shiftLeft_of_lt (hpow j hjk), Nat.cast_lt] at hjlt
    have hx : ∀ i, j = i + 1 → (b <<< ((BitVec.ofNat 32 j - 1).toNat % 256)).toNat = b.toNat * 2 ^ i := by
      rintro i rfl
      have := hpow i (by omega)
      rw [shift_pred hj (by omega), Nat.add_sub_cancel, toNat_shiftLeft_of_lt (by omega)]
    rw [divideWord, hsearch]
    simp only [handedOn]
    rw [divideRounds_toNat (by omega) hx (fun i hi => hpow i (by omega)) hjlt (by omega) (by simp)]
    simp

/-- Where no shift does, it is one. -/
theorem divideWord_of_none (hnone : ∀ k < 32, ¬ a.toInt < (b <<< k).toInt) (ha : a ≠ 0) :
    divideWord a b = 1 := by
  have hle : b.toInt ≤ a.toInt := by simpa using hnone 0 (by decide)
  rw [divideWord, searchFrom_eq_none_iff.mpr hnone]
  simp only [handedOn]
  rw [divideRounds, if_neg ha, if_pos hle]
  rfl

theorem divideWord_zero (b : Word) : divideWord 0 b = 0 := divideRounds_zero _ _ _

/-- Where the first such shift leaves the positive numbers, a bit above the quotient is set. -/
theorem divideWord_of_some {k : ℕ} (hsome : searchFrom a b 0 32 = some k) (hk : 0 < k) (ha : a ≠ 0) :
    (divideWord a b).getLsbD (k - 1) = true := by
  obtain ⟨h32, -, hbefore⟩ := searchFrom_eq_some_iff.mp hsome
  obtain ⟨j, rfl⟩ := Nat.exists_eq_add_of_le' hk
  have hle : (b <<< j).toInt ≤ a.toInt := not_lt.mp (hbefore j (by omega))
  rw [divideWord, hsome]
  simp only [handedOn, shift_pred h32 hk, Nat.add_sub_cancel]
  rw [divideRounds, if_neg ha, if_pos hle]
  apply getLsbD_divideRounds
  simp [← BitVec.twoPow_eq]
  omega

/-- The quotient of two magnitudes is right where a shift takes the divisor above the numerator within
the positive numbers, and where none does at all and it is one. -/
theorem divideWord_iff (ha31 : a.toNat < 2 ^ 31) (ha : a ≠ 0) :
    (divideWord a b).toNat = a.toNat / b.toNat ↔
      (∃ k, a.toNat < b.toNat * 2 ^ k ∧ b.toNat * 2 ^ k < 2 ^ 31) ∨
        a.toNat / b.toNat = 1 ∧ ∀ k < 32, (b <<< k).toInt ≤ (a.toNat : ℤ) := by
  have haInt : a.toInt = a.toNat := toInt_eq_toNat ha31
  constructor
  · intro h
    by_contra hnot
    rw [not_or, not_exists] at hnot
    obtain ⟨hleaves, hone⟩ := hnot
    have hleaves (k : ℕ) (hk : a.toNat < b.toNat * 2 ^ k) : 2 ^ 31 ≤ b.toNat * 2 ^ k :=
      not_lt.mp fun hlt => hleaves k ⟨hk, hlt⟩
    cases hsearch : searchFrom a b 0 32 with
    | none =>
      have hnone := searchFrom_eq_none_iff.mp hsearch
      rw [divideWord_of_none hnone ha] at h
      exact hone ⟨h.symm, fun k hk => by have := hnone k hk; omega⟩
    | some k =>
      obtain ⟨hk, hlt, -⟩ := searchFrom_eq_some_iff.mp hsearch
      rw [haInt] at hlt
      -- the shifted divisor has left the positive numbers and come back to them
      have hout (i : ℕ) (hi : b.toNat * 2 ^ i < 2 ^ 32) (h : (a.toNat : ℤ) < (b <<< i).toInt) : False := by
        rw [BitVec.toInt_eq_toNat_cond, toNat_shiftLeft_of_lt hi] at h
        have := hleaves i
        split_ifs at h <;> omega
      have hpos : 0 < k := Nat.pos_of_ne_zero fun h0 => by
        subst h0
        exact hout 0 (by simpa using b.isLt) hlt
      have hbelow : a.toNat < b.toNat * 2 ^ (k - 1) := by
        by_contra hle
        have hdouble : b.toNat * 2 ^ k = b.toNat * 2 ^ (k - 1) * 2 := by
          rw [Nat.mul_assoc, ← pow_succ, Nat.sub_add_cancel (show 1 ≤ k from hpos)]
        exact hout k (by omega) hlt
      have hquot : a.toNat / b.toNat < 2 ^ (k - 1) := Nat.div_lt_of_lt_mul hbelow
      have hbit := divideWord_of_some hsearch hpos ha
      rw [← BitVec.testBit_toNat, h, Nat.testBit_lt_two_pow hquot] at hbit
      cases hbit
  · rintro (⟨k, hlt, hfits⟩ | ⟨hone, hnone⟩)
    · exact divideWord_of_fits hlt hfits
    · rw [divideWord_of_none (fun k hk => by have := hnone k hk; omega) ha, hone]
      rfl

/-! ## Signs -/

theorem toNat_magnitude (x : Word) : (magnitude x).toNat = x.toInt.natAbs := by
  have hx := BitVec.toInt_eq_toNat_cond x
  have hlt := x.isLt
  unfold magnitude
  split_ifs with h
  · rw [BitVec.toNat_neg]
    split_ifs at hx <;> omega
  · split_ifs at hx <;> omega

theorem tdiv_eq (n d : ℤ) : n.tdiv d =
    if n < 0 ↔ d < 0 then ((n.natAbs / d.natAbs : ℕ) : ℤ) else -((n.natAbs / d.natAbs : ℕ) : ℤ) := by
  by_cases hn : n < 0 <;> by_cases hd : d < 0
  · rw [if_pos (iff_of_true hn hd), Int.ofNat_tdiv, Int.ofNat_natAbs_of_nonpos hn.le,
      Int.ofNat_natAbs_of_nonpos hd.le, Int.neg_tdiv_neg]
  · rw [if_neg (by simp [hn, hd]), Int.ofNat_tdiv, Int.ofNat_natAbs_of_nonpos hn.le,
      Int.natAbs_of_nonneg (not_lt.mp hd), Int.neg_tdiv, neg_neg]
  · rw [if_neg (by simp [hn, hd]), Int.ofNat_tdiv, Int.natAbs_of_nonneg (not_lt.mp hn),
      Int.ofNat_natAbs_of_nonpos hd.le, Int.tdiv_neg, neg_neg]
  · rw [if_pos (iff_of_false hn hd), Int.ofNat_tdiv, Int.natAbs_of_nonneg (not_lt.mp hn),
      Int.natAbs_of_nonneg (not_lt.mp hd)]

theorem toInt_signed_iff {c : Prop} [Decidable c] {m : ℕ} (hm : m < 2 ^ 31) :
    (if c then x else -x).toInt = (if c then (m : ℤ) else -m) ↔ x.toNat = m := by
  have hx := BitVec.toInt_eq_toNat_cond x
  have hlt := x.isLt
  split_ifs with h
  · split_ifs at hx <;> omega
  · rw [BitVec.toInt_neg, Int.bmod_def]
    split_ifs at hx ⊢ <;> omega

/-! ## Division -/

/-- What a signed division has to return. -/
def SignedDivision (n d : ℤ) (t : State) : Prop :=
  (t.reg .r0).toInt = n.tdiv d ∧ (t.reg .r1).toInt = n.tmod d

/-- What an unsigned division has to return. -/
def UnsignedDivision (n d : ℕ) (t : State) : Prop :=
  (t.reg .r0).toNat = n / d ∧ (t.reg .r1).toNat = n % d

/-- The operands whose quotient is also their remainder, and for which the search of the shift ends
where it should: a shift takes the divisor above the numerator before it leaves the positive numbers;
or there is no shift of 32 bits at all that does, and the quotient is one. -/
def DividesRight (n d : ℤ) : Prop :=
  n.tdiv d = n.tmod d ∧ (n = 0 ∨ (∃ k, n.natAbs < d.natAbs * 2 ^ k ∧ d.natAbs * 2 ^ k < 2 ^ 31) ∨
    n.natAbs < 2 ^ 31 ∧ n.natAbs / d.natAbs = 1 ∧
      ∀ k < 32, ((d.natAbs * 2 ^ k : ℕ) : ℤ).bmod (2 ^ 32) ≤ (n.natAbs : ℤ))

theorem idivmod_returns_iff (s : State) : Returns aeabiIdivmod s (SignedDivision (s.reg .r0).toInt (s.reg .r1).toInt) ↔
    (idivResult (s.reg .r0) (s.reg .r1)).toInt = (s.reg .r0).toInt.tdiv (s.reg .r1).toInt ∧
      (s.reg .r0).toInt.tdiv (s.reg .r1).toInt = (s.reg .r0).toInt.tmod (s.reg .r1).toInt := by
  constructor
  · intro h
    obtain ⟨-, t, -, hdiv, h0, h1⟩ := (idivmod_returns s).and h
    rw [hdiv.r0] at h0
    rw [hdiv.r1] at h1
    exact ⟨h0, h0.symm.trans h1⟩
  · intro ⟨h0, h1⟩
    refine (idivmod_returns s).mono fun t ht => ⟨?_, ?_⟩
    · rw [ht.r0, h0]
    · rw [ht.r1, h0, h1]

theorem toInt_shiftLeft_eq (b : Word) (k : ℕ) :
    (b <<< k).toInt = ((b.toNat * 2 ^ k : ℕ) : ℤ).bmod (2 ^ 32) := by
  rw [BitVec.toInt_eq_toNat_bmod, BitVec.toNat_shiftLeft, Nat.shiftLeft_eq, Int.natCast_mod, Int.emod_bmod]

/-- The smallest number is below every positive divisor, so that its quotient is zero. -/
theorem divideWord_intMin {a b : Word} (ha : a.toNat = 2 ^ 31) (hb : b.toNat < 2 ^ 31) : divideWord a b = 0 := by
  have hfound : searchFrom a b 0 32 = some 0 := by
    refine searchFrom_eq_some_iff.mpr ⟨by decide, ?_, fun i hi => absurd hi (Nat.not_lt_zero i)⟩
    rw [BitVec.shiftLeft_zero, toInt_eq_toNat hb, BitVec.toInt_eq_toNat_cond]
    split_ifs <;> omega
  rw [divideWord, hfound]
  rfl

theorem idivResult_iff (n d : Word) : ((idivResult n d).toInt = n.toInt.tdiv d.toInt ∧
    n.toInt.tdiv d.toInt = n.toInt.tmod d.toInt) ↔ DividesRight n.toInt d.toInt := by
  rw [DividesRight, and_comm]
  refine and_congr_right fun hqr => ?_
  have ha := toNat_magnitude n
  have hb := toNat_magnitude d
  by_cases hzero : n.toInt = 0
  · have hn : magnitude n = 0 := BitVec.toNat_inj.mp (by rw [ha, hzero]; rfl)
    rw [idivResult, hn, divideWord_zero]
    simp [hzero]
  by_cases h31 : n.toInt.natAbs < 2 ^ 31
  · have hn : magnitude n ≠ 0 := fun h => by
      rw [h] at ha
      exact hzero (Int.natAbs_eq_zero.mp ha.symm)
    have hquot : n.toInt.natAbs / d.toInt.natAbs < 2 ^ 31 := (Nat.div_le_self _ _).trans_lt h31
    rw [idivResult, tdiv_eq, toInt_signed_iff hquot, ← ha, ← hb, divideWord_iff (by rwa [ha]) hn]
    simp only [hzero, false_or, toInt_shiftLeft_eq]
    rw [ha]
    simp only [h31, true_and]
  · have hmin (x : Word) (hx : ¬ x.toInt.natAbs < 2 ^ 31) : x.toInt = -2 ^ 31 := by
      have := BitVec.le_two_mul_toInt (x := x)
      have := BitVec.two_mul_toInt_lt (x := x)
      omega
    have hn := hmin n h31
    refine iff_of_false (fun h => ?_) ?_
    · by_cases hd31 : d.toInt.natAbs < 2 ^ 31
      · rw [idivResult, divideWord_intMin (ha.trans (by rw [hn]; rfl)) (by rwa [hb])] at h
        have hq : n.toInt.tdiv d.toInt = 0 := by
          rw [← h]
          split_ifs <;> rfl
        have := Int.mul_tdiv_add_tmod n.toInt d.toInt
        rw [← hqr, hq] at this
        simp at this
        omega
      · rw [hmin d hd31, hn, Int.tdiv_self (by decide), Int.tmod_self] at hqr
        exact absurd hqr (by decide)
    · rintro (h | ⟨k, h1, h2⟩ | ⟨h, -⟩)
      · exact hzero h
      · omega
      · exact h31 h

/-- The unsigned division is right for every divisor. The signed one returns its quotient in both
registers, and is right for the operands of `DividesRight` alone. -/
theorem division_iff (s : State) (hd : s.reg .r1 ≠ 0) :
    Returns aeabiUidivmod s (UnsignedDivision (s.reg .r0).toNat (s.reg .r1).toNat) ∧
      (Returns aeabiIdivmod s (SignedDivision (s.reg .r0).toInt (s.reg .r1).toInt) ↔
        DividesRight (s.reg .r0).toInt (s.reg .r1).toInt) :=
  ⟨(uidivmod_returns s hd).mono fun _ h => ⟨h.quotient, h.remainder⟩,
    (idivmod_returns_iff s).trans (idivResult_iff _ _)⟩

/-- A call with the operands in `r0` and `r1`. -/
def callState (n d : Word) : State where
  reg
    | .r0 => n
    | .r1 => d
    | _ => 0
  flags := ⟨false, false, false, false⟩
  mem _ := 0
  stack := []

/-- Eight divided by three: quotient and remainder are two. -/
theorem division_eight_three : Returns aeabiUidivmod (callState 8 3) (UnsignedDivision 8 3) ∧
    Returns aeabiIdivmod (callState 8 3) (SignedDivision 8 3) :=
  have h := division_iff (callState 8 3) (by decide)
  ⟨h.1, h.2.mpr ⟨by decide, .inr (.inl ⟨2, by decide⟩)⟩⟩

/-- Seven divided by three leaves one, and not two. -/
theorem division_seven_three : ¬ Returns aeabiIdivmod (callState 7 3) (SignedDivision 7 3) := by
  intro h
  obtain ⟨h0, h1⟩ := (idivmod_returns_iff (callState 7 3)).mp h
  exact absurd h1 (by decide)

end RCar.Cr7
