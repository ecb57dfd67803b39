import RCarM3N.Model.DualEcc

/-! Which bytes of the DRAM are filled, and for which of them the registers enable ECC. Both are
sets of extra areas, of every area one eighth, so that they are compared extra area by extra area:
they are the same if and only if no area but the one that the split register names has something
to fill and its split flag set. -/

namespace RCar.DualEcc

variable {cfg : Config} {t : Tables} {prr : BitVec 32} {r : Regs} {s : Sizes} {fs : List Fill}

/-! ## Flags -/

theorem Flags.area_cases (f : Flags) (i : Fin AREA_NUM) : f.area i = OFF_BIT ∨ f.area i = ON_BIT :=
  f.flag _

theorem Flags.area_eq_off_iff (f : Flags) (i : Fin AREA_NUM) :
    f.area i = OFF_BIT ↔ f.area i ≠ ON_BIT := by
  rcases f.area_cases i with h | h <;> simp [h, OFF_BIT, ON_BIT]

theorem Flags.area_eq_on_iff (f : Flags) (i : Fin AREA_NUM) :
    f.area i = ON_BIT ↔ (f.area i).getLsbD 0 := by
  rcases f.area_cases i with h | h <;> simp [h, OFF_BIT, ON_BIT]

/-- The flag of an area is the bit of its number. -/
theorem getLsbD_registerParam (f : Flags) (i : Fin AREA_NUM) :
    (registerParam f.entry).getLsbD i ↔ f.area i = ON_BIT := by
  rw [registerParam, Bits.getLsbD_pack f.flag, f.area_eq_on_iff]
  have hi : i.val < 8 := i.isLt
  constructor
  · rintro ⟨j, hj, hji, -⟩
    obtain rfl : j = reverseSet i := by
      rw [reverseSet, ← Fin.rev_eq_iff]
      exact Fin.ext hji
    exact hj
  · intro h
    exact ⟨reverseSet i, h, by simp [reverseSet], by omega⟩

theorem getLsbD_registerParam_of_le (f : Flags) {k : ℕ} (hk : AREA_NUM ≤ k) :
    (registerParam f.entry).getLsbD k = false := by
  rw [Bool.eq_false_iff]
  intro h
  obtain ⟨j, -, hj, -⟩ := (Bits.getLsbD_pack f.flag k).mp h
  have := (reverseSet j).isLt
  omega

/-- Where no area has ECC together with the extra area of its number. -/
theorem and_eq_off_iff (f g : Flags) : registerParam f.entry &&& registerParam g.entry = OFF_BIT ↔
    ∀ i, ¬ (f.area i = ON_BIT ∧ g.area i = ON_BIT) := by
  have hbit (i : Fin AREA_NUM) : (registerParam f.entry &&& registerParam g.entry).getLsbD i ↔
      f.area i = ON_BIT ∧ g.area i = ON_BIT := by
    rw [BitVec.getLsbD_and, Bool.and_eq_true, getLsbD_registerParam, getLsbD_registerParam]
  constructor
  · intro h i hi
    have := (hbit i).mpr hi
    simp [h, OFF_BIT] at this
  · intro h
    apply BitVec.eq_of_getLsbD_eq
    intro k _
    by_cases hk : k < AREA_NUM
    · simpa [OFF_BIT] using Bool.eq_false_iff.mpr (mt (hbit ⟨k, hk⟩).mp (h ⟨k, hk⟩))
    · simp [getLsbD_registerParam_of_le f (not_lt.mp hk), OFF_BIT]

/-- The area of the lowest number is the one that stays split. -/
theorem getLsbD_extraSplitEnable (t : Tables) (i : Fin AREA_NUM) : (extraSplitEnable t).getLsbD i ↔
    t.extraSplitEnableBit.area i = ON_BIT ∧ ∀ k < i, t.extraSplitEnableBit.area k ≠ ON_BIT := by
  rw [extraSplitEnable, Bits.getLsbD_keepLowest fun k => getLsbD_registerParam_of_le _,
    getLsbD_registerParam]
  refine and_congr_right fun _ => ⟨fun h k hk hon => ?_, fun h k hk => ?_⟩
  · have := (getLsbD_registerParam t.extraSplitEnableBit k).mpr hon
    simp [h k hk] at this
  · let k' : Fin AREA_NUM := ⟨k, hk.trans i.isLt⟩
    exact Bool.eq_false_iff.mpr (mt (getLsbD_registerParam _ k').mp (h k' hk))

/-! ## Registers -/

/-- The area split register: the one of the channels that `setting` takes. -/
def splitRegister (cfg : Config) (prr : BitVec 32) (r : Regs) : BitVec 32 :=
  match cfg.split with
  | .auto => if isH3 prr then r.adsplcr1 else r.adsplcr0
  | .ch4 => r.adsplcr1
  | .ch2 => r.adsplcr0
  | .linear => r.adsplcr0

/-- Bit `i` of the field SPLITSEL of the area split register. -/
def splitsel (cfg : Config) (prr : BitVec 32) (r : Regs) (i : Fin AREA_NUM) : Prop :=
  (splitRegister cfg prr r).getLsbD (16 + i)

/-- Bit `i` of the field DFUSASEL. -/
def dfusasel (r : Regs) (i : Fin AREA_NUM) : Prop := r.fusacr.getLsbD (16 + i)

/-- Bit `j` of the field EFUSASEL. -/
def efusasel (r : Regs) (j : Fin AREA_NUM) : Prop := r.fusacr.getLsbD (24 + j)

/-- The field AREA of a split register. -/
def areaField (x : BitVec 32) : ℕ := (x >>> 8 &&& 0xFF).toNat

/-- The sizes that the registers hold. -/
def programmedSizes (cfg : Config) (prr : BitVec 32) (r : Regs) : Sizes :=
  ⟨areaField (splitRegister cfg prr r), areaField r.adsplcr3⟩

/-- Bit by bit: the selection from bit 16 on, below it the exponent, from bit 8 on, and `SWP`. -/
theorem getLsbD_adsplcr_eq (sel : BitVec 32) (area k : ℕ) (hk : k < 32) :
    (adsplcr sel area).getLsbD k = ((decide (16 ≤ k) && sel.getLsbD (k - 16)) ||
      (decide (8 ≤ k) && area.testBit (k - 8)) || (12).testBit k) := by
  rw [adsplcr, ADRMODE_DEFAULT, SPLITSEL, AREA, show SWP = BitVec.ofNat 32 12 from rfl]
  simp only [BitVec.zero_shiftLeft, BitVec.zero_or, BitVec.getLsbD_or, BitVec.getLsbD_shiftLeft,
    BitVec.getLsbD_ofNat, hk, decide_true, Bool.true_and, show k - 8 < 32 by omega, ← not_le,
    Bool.not_not, decide_not]

theorem testBit_eq_false {x n k : ℕ} (hx : x < 2 ^ n) (hk : n ≤ k) : x.testBit k = false :=
  Nat.testBit_lt_two_pow (hx.trans_le (Nat.pow_le_pow_right (by decide) hk))

theorem getLsbD_adsplcr (sel : BitVec 32) {area : ℕ} (harea : area < 2 ^ 8) (i : Fin AREA_NUM) :
    (adsplcr sel area).getLsbD (16 + i) = sel.getLsbD i := by
  have hi : i.val < 8 := i.isLt
  rw [getLsbD_adsplcr_eq sel area _ (by omega), testBit_eq_false harea (by omega),
    testBit_eq_false (show 12 < 2 ^ 8 by decide) (by omega)]
  simp

theorem getLsbD_lowByte (x : BitVec 32) (k : ℕ) :
    (x &&& 0xFF).getLsbD k = (x.getLsbD k && decide (k < 8)) := by
  rw [show (0xFF : BitVec 32) = BitVec.ofNat 32 (2 ^ 8 - 1) from rfl, BitVec.getLsbD_and,
    BitVec.getLsbD_ofNat, Nat.testBit_two_pow_sub_one, Bool.eq_iff_iff]
  simp
  omega

theorem areaField_adsplcr (sel : BitVec 32) {area : ℕ} (harea : area < 2 ^ 8) :
    areaField (adsplcr sel area) = area := by
  apply Nat.eq_of_testBit_eq
  intro k
  rw [areaField, BitVec.testBit_toNat, getLsbD_lowByte, BitVec.getLsbD_ushiftRight]
  by_cases hk : k < 8
  · rw [getLsbD_adsplcr_eq sel area _ (by omega),
      testBit_eq_false (show 12 < 2 ^ 8 by decide) (by omega)]
    simp [hk, show ¬ 16 ≤ 8 + k by omega]
  · rw [testBit_eq_false harea (by omega)]
    simp [hk]

/-- The two fields of FUSACR lie beside one another. -/
theorem getLsbD_fusacr (x y : BitVec 32) (i : Fin AREA_NUM) :
    (EFUSASEL x ||| DFUSASEL y).getLsbD (16 + i) = y.getLsbD i ∧
      (EFUSASEL x ||| DFUSASEL y).getLsbD (24 + i) = x.getLsbD i := by
  have hi : i.val < 8 := i.isLt
  simp only [EFUSASEL, DFUSASEL, BitVec.getLsbD_or, BitVec.getLsbD_shiftLeft, getLsbD_lowByte]
  constructor
  · simp [hi, show 16 + i.val < 24 by omega, show 16 + i.val < 32 by omega]
  · simp [hi, show 24 + i.val < 32 by omega, show ¬ 24 + i.val - 16 < 8 by omega]

/-! ## Extra areas -/

theorem sizes_cases (h : sizes cfg prr = some s) : s = AREA_1GB ∨ s = AREA_2GB ∨ s = AREA_4GB := by
  unfold sizes at h
  split_ifs at h <;> cases h <;> simp

/-- An area is eight extra areas, and the areas fit into one half. -/
theorem sizes_fit (h : sizes cfg prr = some s) : 2 ^ s.areaSize = 8 * 2 ^ s.extraAreaSize ∧
    8 * 2 ^ s.areaSize ≤ 2 ^ 32 ∧ s.areaSize < 2 ^ 8 ∧ s.extraAreaSize < 2 ^ 8 := by
  rcases sizes_cases h with rfl | rfl | rfl <;> decide

/-- The first address of each half of the DRAM; on M3 there is one alone. -/
def halves (h3 : Bool) : List ℕ := if h3 then [ECC_BASE1, ECC_BASE2] else [ECC_BASE1]

def areaBytes (s : Sizes) (base : ℕ) (i : Fin AREA_NUM) : Set ℕ :=
  Set.Ico (base + 2 ^ s.areaSize * i.val) (base + 2 ^ s.areaSize * i.val + 2 ^ s.areaSize)

def extraAreaBytes (s : Sizes) (base : ℕ) (i j : Fin AREA_NUM) : Set ℕ :=
  Set.Ico (base + (2 ^ s.areaSize * i.val + 2 ^ s.extraAreaSize * j.val))
    (base + (2 ^ s.areaSize * i.val + 2 ^ s.extraAreaSize * j.val) + 2 ^ s.extraAreaSize)

/-- The bytes of the extra areas that a relation picks. -/
def bytesOf (h3 : Bool) (s : Sizes) (P : Fin AREA_NUM → Fin AREA_NUM → Prop) : Set ℕ :=
  {a | ∃ base ∈ halves h3, ∃ i j, P i j ∧ a ∈ extraAreaBytes s base i j}

/-- The number of the extra area that a byte lies in. -/
theorem mem_extraAreaBytes (h : sizes cfg prr = some s) (base a : ℕ) (i j : Fin AREA_NUM) :
    a ∈ extraAreaBytes s base i j ↔ base ≤ a ∧ (a - base) / 2 ^ s.extraAreaSize = 8 * i.val + j.val := by
  obtain ⟨hsize, -⟩ := sizes_fit h
  have hpos : 0 < 2 ^ s.extraAreaSize := by positivity
  have hoff : 2 ^ s.areaSize * i.val + 2 ^ s.extraAreaSize * j.val = (8 * i.val + j.val) * 2 ^ s.extraAreaSize := by
    rw [hsize]
    ring
  rw [extraAreaBytes, Set.mem_Ico, hoff, Nat.div_eq_iff hpos]
  omega

theorem mem_areaBytes (h : sizes cfg prr = some s) (base a : ℕ) (i : Fin AREA_NUM) :
    a ∈ areaBytes s base i ↔ ∃ j, a ∈ extraAreaBytes s base i j := by
  obtain ⟨hsize, -⟩ := sizes_fit h
  have hpos : 0 < 2 ^ s.extraAreaSize := by positivity
  have harea : a ∈ areaBytes s base i ↔
      base ≤ a ∧ 8 * i.val ≤ (a - base) / 2 ^ s.extraAreaSize ∧
        (a - base) / 2 ^ s.extraAreaSize < 8 * (i.val + 1) := by
    rw [areaBytes, Set.mem_Ico, hsize, Nat.le_div_iff_mul_le hpos, Nat.div_lt_iff_lt_mul hpos,
      show 8 * 2 ^ s.extraAreaSize * i.val = 8 * i.val * 2 ^ s.extraAreaSize by ring,
      show 8 * (i.val + 1) * 2 ^ s.extraAreaSize = 8 * i.val * 2 ^ s.extraAreaSize + 8 * 2 ^ s.extraAreaSize by ring]
    omega
  simp only [harea, mem_extraAreaBytes h]
  constructor
  · intro ⟨hbase, hlow, hhigh⟩
    refine ⟨⟨(a - base) / 2 ^ s.extraAreaSize - 8 * i, ?_⟩, hbase, ?_⟩
    · show _ < 8
      omega
    · show _ = 8 * i.val + ((a - base) / 2 ^ s.extraAreaSize - 8 * i.val)
      omega
  · rintro ⟨j, hbase, hj⟩
    have : j.val < 8 := j.isLt
    omega

theorem exists_mem_extraAreaBytes (s : Sizes) (base : ℕ) (i j : Fin AREA_NUM) :
    ∃ a, a ∈ extraAreaBytes s base i j :=
  ⟨_, Set.left_mem_Ico.mpr (Nat.lt_add_of_pos_right (by positivity))⟩

/-- A byte of the first half lies in one extra area. -/
theorem extraArea_unique (h : sizes cfg prr = some s) {h3 : Bool} {base a : ℕ}
    {i j i' j' : Fin AREA_NUM} (hbase : base ∈ halves h3) (ha : a ∈ extraAreaBytes s ECC_BASE1 i j)
    (ha' : a ∈ extraAreaBytes s base i' j') : i' = i ∧ j' = j := by
  obtain ⟨hsize, hfit, -⟩ := sizes_fit h
  have hpos : 0 < 2 ^ s.extraAreaSize := by positivity
  have hi : i.val < 8 := i.isLt
  have hj : j.val < 8 := j.isLt
  have hj' : j'.val < 8 := j'.isLt
  rw [mem_extraAreaBytes h] at ha ha'
  obtain rfl : base = ECC_BASE1 := by
    by_contra hne
    have hbase2 : base = ECC_BASE2 := by
      unfold halves at hbase
      split_ifs at hbase <;> simp_all
    have hlt : a - ECC_BASE1 < (8 * i.val + j.val + 1) * 2 ^ s.extraAreaSize := by
      rw [← Nat.div_lt_iff_lt_mul hpos]
      omega
    have hle : (8 * i.val + j.val + 1) * 2 ^ s.extraAreaSize ≤ 64 * 2 ^ s.extraAreaSize := by
      gcongr
      omega
    have : ECC_BASE2 = ECC_BASE1 + 2 ^ 32 := rfl
    omega
  exact ⟨Fin.ext (by omega), Fin.ext (by omega)⟩

theorem bytesOf_subset_iff (h : sizes cfg prr = some s) (h3 : Bool)
    {P Q : Fin AREA_NUM → Fin AREA_NUM → Prop} :
    bytesOf h3 s P ⊆ bytesOf h3 s Q ↔ ∀ i j, P i j → Q i j := by
  constructor
  · intro hsub i j hP
    obtain ⟨a, ha⟩ := exists_mem_extraAreaBytes s ECC_BASE1 i j
    have hfirst : ECC_BASE1 ∈ halves h3 := by
      unfold halves
      split_ifs <;> simp
    obtain ⟨base, hbase, i', j', hQ, ha'⟩ := hsub ⟨_, hfirst, i, j, hP, ha⟩
    obtain ⟨rfl, rfl⟩ := extraArea_unique h hbase ha ha'
    exact hQ
  · rintro hPQ a ⟨base, hbase, i, j, hP, ha⟩
    exact ⟨base, hbase, i, j, hPQ i j hP, ha⟩

/-- The sets of bytes are the same where the relations are. -/
theorem bytesOf_eq_iff (h : sizes cfg prr = some s) (h3 : Bool)
    {P Q : Fin AREA_NUM → Fin AREA_NUM → Prop} :
    bytesOf h3 s P = bytesOf h3 s Q ↔ ∀ i j, P i j ↔ Q i j := by
  rw [Set.Subset.antisymm_iff, bytesOf_subset_iff h, bytesOf_subset_iff h]
  exact ⟨fun h i j => ⟨h.1 i j, h.2 i j⟩, fun h => ⟨fun i j => (h i j).mp, fun i j => (h i j).mpr⟩⟩

/-! ## Fills -/

/-- The bytes that a list of fills covers. -/
def filled (fs : List Fill) : Set ℕ := {a | ∃ f ∈ fs, a ∈ Set.Ico f.dst (f.dst + f.len)}

/-- The extra areas that the loops go through: those of the areas with ECC that are not split, and
of every split area those with ECC. -/
def FilledAt (t : Tables) (i j : Fin AREA_NUM) : Prop :=
  (t.areaEccEnableBit.area i = ON_BIT ∧ t.extraSplitEnableBit.area i ≠ ON_BIT ∧
      t.areaFillEnableBit.area i = ON_BIT) ∨
    t.extraSplitEnableBit.area i = ON_BIT ∧ t.extraAreaEccEnableBit.area j = ON_BIT ∧
      t.extraAreaFillEnableBit.area j = ON_BIT

theorem mem_filled (fs : List Fill) (a : ℕ) :
    a ∈ filled fs ↔ ∃ f ∈ fs, a ∈ Set.Ico f.dst (f.dst + f.len) := Iff.rfl

@[simp] theorem filled_nil : filled [] = ∅ := by
  ext a
  simp [mem_filled]

theorem mem_filled_append (fs gs : List Fill) (a : ℕ) :
    a ∈ filled (fs ++ gs) ↔ a ∈ filled fs ∨ a ∈ filled gs := by
  simp [mem_filled, or_and_right, exists_or]

theorem mem_filled_flatMap {n : ℕ} (g : Fin n → List Fill) (a : ℕ) :
    a ∈ filled ((List.finRange n).flatMap g) ↔ ∃ i, a ∈ filled (g i) := by
  simp only [mem_filled, List.mem_flatMap, List.mem_finRange, true_and]
  exact ⟨fun ⟨f, ⟨i, hf⟩, ha⟩ => ⟨i, f, hf, ha⟩, fun ⟨i, f, hf, ha⟩ => ⟨f, ⟨i, hf⟩, ha⟩⟩

theorem mem_fillHalves (h3 : Bool) (off len a : ℕ) : a ∈ filled (fillHalves h3 off len) ↔
    ∃ base ∈ halves h3, a ∈ Set.Ico (base + off) (base + off + len) := by
  cases h3 <;> simp [mem_filled, fillHalves, halves]

theorem mem_fillExtraArea (h3 : Bool) (i j : Fin AREA_NUM) (a : ℕ) :
    a ∈ filled (fillExtraArea t s h3 i j) ↔
      (t.extraAreaEccEnableBit.area j = ON_BIT ∧ t.extraAreaFillEnableBit.area j = ON_BIT) ∧
        ∃ base ∈ halves h3, a ∈ extraAreaBytes s base i j := by
  unfold fillExtraArea
  split_ifs with hecc hfill
  · rw [mem_fillHalves]
    simp only [hecc, hfill, true_and]
    rfl
  · simp [hfill]
  · simp [hecc]

theorem mem_fillNormalArea (h3 : Bool) (i : Fin AREA_NUM) (a : ℕ) :
    a ∈ filled (fillNormalArea t s h3 i) ↔
      (t.areaEccEnableBit.area i = ON_BIT ∧ t.extraSplitEnableBit.area i ≠ ON_BIT ∧
        t.areaFillEnableBit.area i = ON_BIT) ∧ ∃ base ∈ halves h3, a ∈ areaBytes s base i := by
  unfold fillNormalArea
  rw [← Flags.area_eq_off_iff]
  split_ifs with hecc hfill
  · rw [mem_fillHalves]
    simp only [hecc, hfill, true_and]
    rfl
  · simp [hfill]
  · rw [filled_nil]
    simp only [Set.mem_empty_iff_false, false_iff]
    exact fun h => hecc ⟨h.1.1, h.1.2.1⟩

theorem mem_fillExtraAreas (h3 : Bool) (i : Fin AREA_NUM) (a : ℕ) :
    a ∈ filled (fillExtraAreas t s h3 i) ↔ t.extraSplitEnableBit.area i = ON_BIT ∧
      ∃ j, (t.extraAreaEccEnableBit.area j = ON_BIT ∧ t.extraAreaFillEnableBit.area j = ON_BIT) ∧
        ∃ base ∈ halves h3, a ∈ extraAreaBytes s base i j := by
  unfold fillExtraAreas
  split_ifs with hsplit
  · simp only [mem_filled_flatMap, mem_fillExtraArea, hsplit, true_and]
  · simp [hsplit]

theorem mem_fillArea (h : sizes cfg prr = some s) (h3 : Bool) (i : Fin AREA_NUM) (a : ℕ) :
    a ∈ filled (fillArea t s h3 i) ↔
      ∃ base ∈ halves h3, ∃ j, FilledAt t i j ∧ a ∈ extraAreaBytes s base i j := by
  rw [fillArea, mem_filled_append, mem_fillNormalArea, mem_fillExtraAreas]
  simp only [mem_areaBytes h]
  constructor
  · rintro (⟨hn, base, hb, j, ha⟩ | ⟨hs, j, hx, base, hb, ha⟩)
    · exact ⟨base, hb, j, .inl hn, ha⟩
    · exact ⟨base, hb, j, .inr ⟨hs, hx⟩, ha⟩
  · rintro ⟨base, hb, j, hn | ⟨hs, hx⟩, ha⟩
    · exact .inl ⟨hn, base, hb, j, ha⟩
    · exact .inr ⟨hs, j, hx, base, hb, ha⟩

theorem filled_eq (h : sizes cfg prr = some s) (h3 : Bool) :
    filled ((List.finRange AREA_NUM).flatMap (fillArea t s h3)) = bytesOf h3 s (FilledAt t) := by
  ext a
  rw [mem_filled_flatMap]
  simp only [mem_fillArea h]
  exact ⟨fun ⟨i, base, hb, j, h⟩ => ⟨base, hb, i, j, h⟩, fun ⟨base, hb, i, j, h⟩ => ⟨i, base, hb, j, h⟩⟩

/-! ## Registers and fills -/

/-- The bytes with a fill flag whose ECC the registers enable, the sizes of the areas among them:
those of a normal area that is not the split one, and those of an extra area of the split one. -/
def eccFilled (cfg : Config) (t : Tables) (prr : BitVec 32) (r : Regs) : Set ℕ :=
  {a | ∃ base ∈ halves (isH3 prr),
    (∃ i, dfusasel r i ∧ ¬ splitsel cfg prr r i ∧ t.areaFillEnableBit.area i = ON_BIT ∧
      a ∈ areaBytes (programmedSizes cfg prr r) base i) ∨
    ∃ i j, splitsel cfg prr r i ∧ efusasel r j ∧ t.extraAreaFillEnableBit.area j = ON_BIT ∧
      a ∈ extraAreaBytes (programmedSizes cfg prr r) base i j}

/-- Area `i` is the split area of the lowest number. -/
def FirstSplit (t : Tables) (i : Fin AREA_NUM) : Prop :=
  t.extraSplitEnableBit.area i = ON_BIT ∧ ∀ k < i, t.extraSplitEnableBit.area k ≠ ON_BIT

/-- The registers after the setting: the split register of the channels in use, and the sizes. -/
theorem setting_spec (hs : sizes cfg prr = some s) (he : r = errorDetection .initial) :
    splitRegister cfg prr (setting cfg t prr s r) = adsplcr (extraSplitEnable t) s.areaSize ∧
      areaField (setting cfg t prr s r).adsplcr3 = s.extraAreaSize ∧
      (setting cfg t prr s r).fusacr = 0#32 := by
  have hzero : r.adsplcr0 = 0 ∧ r.adsplcr1 = 0 ∧ r.adsplcr3 = 0 ∧ r.fusacr = 0 := by
    subst he
    exact ⟨rfl, rfl, rfl, rfl⟩
  obtain ⟨-, -, -, hextra⟩ := sizes_fit hs
  have hlinear : ADRMODE_DEFAULT ||| AREA s.extraAreaSize ||| SWP = adsplcr 0 s.extraAreaSize := by
    simp [adsplcr, SPLITSEL]
  unfold setting splitRegister
  cases cfg.split with
  | linear =>
    simp [dualEccSettingLinear, hzero, hlinear, areaField_adsplcr _ hextra]
  | ch4 => simp [dualEccSetting4ch, hzero, areaField_adsplcr _ hextra]
  | ch2 => simp [dualEccSetting2ch, hzero, areaField_adsplcr _ hextra]
  | auto =>
    by_cases h3 : isH3 prr
    · simp [h3, dualEccSetting4ch, hzero, areaField_adsplcr _ hextra]
    · simp [h3, dualEccSetting2ch, hzero, areaField_adsplcr _ hextra]

/-- What the initialisation programs, in the terms of the tables. -/
theorem dramDualEccInit_spec (h : dramDualEccInit cfg t prr .initial = some (r, fs)) :
    ∃ s, sizes cfg prr = some s ∧ programmedSizes cfg prr r = s ∧
      (∀ i, ¬ (t.areaEccEnableBit.area i = ON_BIT ∧ t.extraAreaEccEnableBit.area i = ON_BIT)) ∧
      (∀ i, splitsel cfg prr r i ↔ FirstSplit t i) ∧
      (∀ i, dfusasel r i ↔ t.areaEccEnableBit.area i = ON_BIT) ∧
      (∀ j, efusasel r j ↔ t.extraAreaEccEnableBit.area j = ON_BIT) ∧
      fs = (List.finRange AREA_NUM).flatMap (fillArea t s (isH3 prr)) := by
  unfold dramDualEccInit at h
  split at h
  · cases h
  rename_i s hs
  dsimp only at h
  split_ifs at h with hcheck
  cases h
  have hcheck := not_not.mp hcheck
  obtain ⟨hsplit, hextra, hfusacr⟩ := setting_spec (t := t) hs rfl
  obtain ⟨-, -, hsize, -⟩ := sizes_fit hs
  have hcheck := (and_eq_off_iff _ _).mp hcheck
  refine ⟨s, hs, ?_, hcheck, fun i => ?_, fun i => ?_, fun j => ?_, rfl⟩
  · show Sizes.mk (areaField (splitRegister cfg prr (setting cfg t prr s _)))
      (areaField (setting cfg t prr s _).adsplcr3) = s
    rw [hsplit, hextra, areaField_adsplcr _ hsize]
  · show (splitRegister cfg prr (setting cfg t prr s _)).getLsbD _ ↔ _
    rw [hsplit, getLsbD_adsplcr _ hsize, getLsbD_extraSplitEnable]
    rfl
  · show BitVec.getLsbD (_ ||| _ ||| _) _ ↔ _
    rw [hfusacr, BitVec.zero_or, (getLsbD_fusacr _ _ i).1]
    exact getLsbD_registerParam _ i
  · show BitVec.getLsbD (_ ||| _ ||| _) _ ↔ _
    rw [hfusacr, BitVec.zero_or, (getLsbD_fusacr _ _ j).2]
    exact getLsbD_registerParam _ j

/-- The extra areas whose ECC the registers enable and that have a fill flag. -/
def EnabledAt (t : Tables) (i j : Fin AREA_NUM) : Prop :=
  (t.areaEccEnableBit.area i = ON_BIT ∧ ¬ FirstSplit t i ∧ t.areaFillEnableBit.area i = ON_BIT) ∨
    FirstSplit t i ∧ t.extraAreaEccEnableBit.area j = ON_BIT ∧
      t.extraAreaFillEnableBit.area j = ON_BIT

theorem eccFilled_eq (h : dramDualEccInit cfg t prr .initial = some (r, fs))
    (hs : sizes cfg prr = some s) : eccFilled cfg t prr r = bytesOf (isH3 prr) s (EnabledAt t) := by
  obtain ⟨s', hs', hsize, -, hsplit, hd, he, -⟩ := dramDualEccInit_spec h
  obtain rfl : s = s' := Option.some.inj (hs.symm.trans hs')
  ext a
  simp only [eccFilled, bytesOf, Set.mem_ofPred_eq, hsize, hsplit, hd, he, mem_areaBytes hs]
  refine exists_congr fun base => and_congr_right fun _ => ?_
  constructor
  · rintro (⟨i, h1, h2, h3, j, ha⟩ | ⟨i, j, h1, h2, h3, ha⟩)
    · exact ⟨i, j, .inl ⟨h1, h2, h3⟩, ha⟩
    · exact ⟨i, j, .inr ⟨h1, h2, h3⟩, ha⟩
  · rintro ⟨i, j, ⟨h1, h2, h3⟩ | ⟨h1, h2, h3⟩, ha⟩
    · exact .inl ⟨i, h1, h2, h3, j, ha⟩
    · exact .inr ⟨i, j, h1, h2, h3, ha⟩

/-- The area has nothing to fill, neither as a whole nor in an extra area. -/
def NothingToFill (t : Tables) (i : Fin AREA_NUM) : Prop :=
  ¬ (t.areaEccEnableBit.area i = ON_BIT ∧ t.areaFillEnableBit.area i = ON_BIT) ∧
    ∀ j, ¬ (t.extraAreaEccEnableBit.area j = ON_BIT ∧ t.extraAreaFillEnableBit.area j = ON_BIT)

instance (t : Tables) (i : Fin AREA_NUM) : Decidable (FirstSplit t i) := inferInstanceAs (Decidable (_ ∧ _))

instance (t : Tables) (i j : Fin AREA_NUM) : Decidable (FilledAt t i j) := inferInstanceAs (Decidable (_ ∨ _))

instance (t : Tables) (i j : Fin AREA_NUM) : Decidable (EnabledAt t i j) := inferInstanceAs (Decidable (_ ∨ _))

instance (t : Tables) (i : Fin AREA_NUM) : Decidable (NothingToFill t i) := inferInstanceAs (Decidable (_ ∧ _))

/-- The two relations differ in the split areas after the first alone. -/
theorem filledAt_iff_enabledAt (t : Tables)
    (hcheck : ∀ i, ¬ (t.areaEccEnableBit.area i = ON_BIT ∧ t.extraAreaEccEnableBit.area i = ON_BIT)) :
    (∀ i j, FilledAt t i j ↔ EnabledAt t i j) ↔
      ∀ i, t.extraSplitEnableBit.area i = ON_BIT → ¬ FirstSplit t i → NothingToFill t i := by
  constructor
  · intro h i hi hfirst
    have hrow (j) : (t.extraAreaEccEnableBit.area j = ON_BIT ∧
        t.extraAreaFillEnableBit.area j = ON_BIT) ↔
        t.areaEccEnableBit.area i = ON_BIT ∧ t.areaFillEnableBit.area i = ON_BIT := by
      simpa [FilledAt, EnabledAt, hi, hfirst] using h i j
    -- all eight extra areas would have ECC, and so the one of the number of `i`
    have harea : ¬ (t.areaEccEnableBit.area i = ON_BIT ∧ t.areaFillEnableBit.area i = ON_BIT) :=
      fun ha => hcheck i ⟨ha.1, ((hrow i).mpr ha).1⟩
    exact ⟨harea, fun j hj => harea ((hrow j).mp hj)⟩
  · intro h i j
    by_cases hi : t.extraSplitEnableBit.area i = ON_BIT
    · by_cases hfirst : FirstSplit t i
      · simp [FilledAt, EnabledAt, hi, hfirst]
      · obtain ⟨harea, hextra⟩ := h i hi hfirst
        have hextra := hextra j
        simp only [FilledAt, EnabledAt, hi, hfirst]
        tauto
    · have hfirst : ¬ FirstSplit t i := fun hf => hi hf.1
      simp [FilledAt, EnabledAt, hi, hfirst]

/-- What is filled is what has ECC and a fill flag if and only if the split areas after the first
have nothing to fill. -/
theorem filled_eq_eccFilled_iff (h : dramDualEccInit cfg t prr .initial = some (r, fs)) :
    filled fs = eccFilled cfg t prr r ↔ ∀ i, t.extraSplitEnableBit.area i = ON_BIT →
      (∃ k < i, t.extraSplitEnableBit.area k = ON_BIT) → NothingToFill t i := by
  obtain ⟨s, hs, -, hcheck, -, -, -, hfs⟩ := dramDualEccInit_spec h
  rw [eccFilled_eq h hs, hfs, filled_eq hs, bytesOf_eq_iff hs, filledAt_iff_enabledAt t hcheck]
  refine forall_congr' fun i => forall_congr' fun hi => ?_
  simp [FirstSplit, hi]

/-- The tables of the file have one split area. -/
theorem filled_eq_eccFilled_tables : ∃ r fs, dramDualEccInit ⟨.auto, false⟩ tables 0x4F20 .initial = some (r, fs) ∧
    filled fs = eccFilled ⟨.auto, false⟩ tables 0x4F20 r :=
  ⟨_, _, rfl, (filled_eq_eccFilled_iff rfl).mpr (by decide)⟩

/-- The tables of the file, with the split flag of area 1 set too. -/
def twoSplit : Tables := { tables with extraSplitEnableBit := .of (· ≤ 1) }

/-- The extra area 0 of area 1 is then filled, without ECC. -/
theorem filled_ne_eccFilled_twoSplit :
    ∃ r fs, dramDualEccInit ⟨.auto, false⟩ twoSplit 0x4F20 .initial = some (r, fs) ∧
      filled fs ≠ eccFilled ⟨.auto, false⟩ twoSplit 0x4F20 r := by
  have hs : sizes ⟨.auto, false⟩ 0x4F20 = some AREA_2GB := rfl
  refine ⟨_, _, rfl, fun h => ?_⟩
  have hsub := (filled_eq hs _).symm.subset.trans (h.subset.trans (eccFilled_eq rfl hs).subset)
  exact absurd ((bytesOf_subset_iff hs _).mp hsub 1 0 (by decide)) (by decide)

end RCar.DualEcc
