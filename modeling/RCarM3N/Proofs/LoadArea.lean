import RCarM3N.Model.LoadArea

/-! When an accepted load area is one: over the integers, in one DRAM window and clear of the
protected region. -/

namespace RCar.Bl2

/-- A window of the DRAM and the region in it that is reserved for the secure firmware. -/
structure DramWindow where
  start : ℕ
  stop : ℕ
  protStart : ℕ
  protStop : ℕ

def legacyWindow : DramWindow := ⟨0x40000000, 0xC0000000, 0x43F00000, 0x47E00000⟩

def window40 : DramWindow := ⟨0x400000000, 0x800000000, 0x403F00000, 0x407E00000⟩

/-- The bytes that an image of `len` bytes at `dst` takes, over the integers. -/
def area (dst len : ℕ) : Set ℕ := Set.Ico dst (dst + len)

/-- The image lies in one of the windows and no byte of it in a protected region. -/
structure LoadSafe (dst len : ℕ) : Prop where
  inWindow : area dst len ⊆ Set.Ico legacyWindow.start legacyWindow.stop ∨
    area dst len ⊆ Set.Ico window40.start window40.stop
  clear : Disjoint (area dst len) (Set.Ico legacyWindow.protStart legacyWindow.protStop)
  clear40 : Disjoint (area dst len) (Set.Ico window40.protStart window40.protStop)

/-- The window against which the check compares: the sum wraps around. -/
def windowOf (dst len : ℕ) : DramWindow :=
  if (dst + len) % 2 ^ 64 ≤ 0xFFFFFFFE then legacyWindow else window40

/-- Accepted for the right reason. -/
structure Within (w : DramWindow) (dst len : ℕ) : Prop where
  start : w.start ≤ dst
  stop : dst + len ≤ w.stop
  clear : dst < w.protStart ∧ dst + len ≤ w.protStart ∨ w.protStop ≤ dst

/-- Accepted because a subtraction of the length wraps around: `dram_end - len`, or
`prot_start - len` for an image that begins below the protected region and covers it. -/
structure Evades (w : DramWindow) (dst len : ℕ) : Prop where
  start : w.start ≤ dst
  outside : ¬ (w.protStart ≤ dst ∧ dst < w.protStop)
  wraps : w.stop < len ∧ dst + len ≤ 2 ^ 64 + w.stop ∨
    dst < w.protStart ∧ w.protStart < len ∧ dst + len ≤ w.stop

theorem checkLoadArea_eq_success_iff (dst len : UInt64) :
    checkLoadArea dst len = IO_SUCCESS ↔
      let w := windowOf dst.toNat len.toNat
      w.start ≤ dst.toNat ∧ dst.toNat ≤ (2 ^ 64 - len.toNat + w.stop) % 2 ^ 64 ∧
        ¬ (w.protStart ≤ dst.toNat ∧ dst.toNat < w.protStop) ∧
        ¬ (dst.toNat < w.protStart ∧ (2 ^ 64 - len.toNat + w.protStart) % 2 ^ 64 < dst.toNat) := by
  have hlegacy : dst + len ≤ UINT32_MAX - 1 ↔ (dst.toNat + len.toNat) % 2 ^ 64 ≤ 0xFFFFFFFE := by
    rw [UInt64.le_iff_toNat_le, UInt64.toNat_add]
    rfl
  have htest : ∀ start stop protStart protEnd : UInt64,
      (if dst < start ∨ dst > stop - len then IO_FAIL
        else if dst < protStart ∧ dst > protStart - len then IO_FAIL
        else if dst ≥ protStart ∧ dst < protEnd then IO_FAIL else IO_SUCCESS) = IO_SUCCESS ↔
      start.toNat ≤ dst.toNat ∧ dst.toNat ≤ (2 ^ 64 - len.toNat + stop.toNat) % 2 ^ 64 ∧
        ¬ (protStart.toNat ≤ dst.toNat ∧ dst.toNat < protEnd.toNat) ∧
        ¬ (dst.toNat < protStart.toNat ∧
          (2 ^ 64 - len.toNat + protStart.toNat) % 2 ^ 64 < dst.toNat) := by
    intro start stop protStart protEnd
    simp only [UInt64.lt_iff_toNat_lt, UInt64.le_iff_toNat_le, gt_iff_lt, ge_iff_le,
      UInt64.toNat_sub, IO_FAIL, IO_SUCCESS]
    split_ifs <;> simp_all
    omega
  unfold checkLoadArea windowOf
  simp only [hlegacy]
  by_cases h : (dst.toNat + len.toNat) % 2 ^ 64 ≤ 0xFFFFFFFE
  · simp only [h, if_true]
    exact htest _ _ _ _
  · simp only [h, if_false]
    exact htest _ _ _ _

/-- The check accepts the images that are safe, and those for which it compares with a
difference that wrapped around. -/
theorem checkLoadArea_success_iff (dst len : UInt64) :
    checkLoadArea dst len = IO_SUCCESS ↔
      Within (windowOf dst.toNat len.toNat) dst.toNat len.toNat ∨
        Evades (windowOf dst.toNat len.toNat) dst.toNat len.toNat := by
  have hd := UInt64.toNat_lt dst
  have hl := UInt64.toNat_lt len
  rw [checkLoadArea_eq_success_iff]
  generalize dst.toNat = d at *
  generalize len.toNat = n at *
  simp only [windowOf]
  split_ifs with h
  · simp only [legacyWindow]
    constructor
    · rintro ⟨h1, h2, h3, h4⟩
      by_cases hsafe : d + n ≤ 0xC0000000 ∧ (d < 0x43F00000 ∧ d + n ≤ 0x43F00000 ∨ 0x47E00000 ≤ d)
      · exact .inl ⟨h1, hsafe.1, hsafe.2⟩
      · exact .inr ⟨h1, h3, by simp only; omega⟩
    · rintro (⟨h1, h2, h3⟩ | ⟨h1, h2, h3⟩) <;> simp only at h1 h2 h3 <;> omega
  · simp only [window40]
    constructor
    · rintro ⟨h1, h2, h3, h4⟩
      by_cases hsafe : d + n ≤ 0x800000000 ∧ (d < 0x403F00000 ∧ d + n ≤ 0x403F00000 ∨ 0x407E00000 ≤ d)
      · exact .inl ⟨h1, hsafe.1, hsafe.2⟩
      · exact .inr ⟨h1, h3, by simp only; omega⟩
    · rintro (⟨h1, h2, h3⟩ | ⟨h1, h2, h3⟩) <;> simp only at h1 h2 h3 <;> omega

theorem windowOf_eq (dst len : ℕ) :
    windowOf dst len = legacyWindow ∧ (dst + len) % 2 ^ 64 ≤ 0xFFFFFFFE ∨
      windowOf dst len = window40 ∧ 0xFFFFFFFE < (dst + len) % 2 ^ 64 := by
  unfold windowOf
  split_ifs with h
  · exact .inl ⟨rfl, h⟩
  · exact .inr ⟨rfl, by omega⟩

theorem area_subset {dst len start stop : ℕ} (h1 : start ≤ dst) (h2 : dst + len ≤ stop) :
    area dst len ⊆ Set.Ico start stop :=
  Set.Ico_subset_Ico h1 h2

theorem area_disjoint {dst len start stop : ℕ} (h : dst + len ≤ start ∨ stop ≤ dst) :
    Disjoint (area dst len) (Set.Ico start stop) := by
  rw [Set.disjoint_left]
  rintro a ⟨h1, h2⟩ ⟨h3, h4⟩
  omega

theorem Within.safe {dst len : ℕ} (h : Within (windowOf dst len) dst len) : LoadSafe dst len := by
  obtain ⟨h1, h2, h3⟩ := h
  rcases windowOf_eq dst len with ⟨hw, -⟩ | ⟨hw, -⟩
  · rw [hw] at h1 h2 h3
    refine ⟨.inl (area_subset h1 h2), area_disjoint ?_, area_disjoint (.inl ?_)⟩
    · exact h3.imp_left And.right
    · exact h2.trans (by decide)
  · rw [hw] at h1 h2 h3
    refine ⟨.inr (area_subset h1 h2), area_disjoint (.inr ?_), area_disjoint ?_⟩
    · exact le_trans (by decide) h1
    · exact h3.imp_left And.right

/-- What evades the check is longer than a window, or has a byte in the protected region. -/
theorem Evades.not_safe {dst len : ℕ} (h : Evades (windowOf dst len) dst len) :
    ¬ LoadSafe dst len := by
  rintro ⟨hin, hclear, hclear40⟩
  obtain ⟨h1, h2, h3⟩ := h
  have hpos : 0 < len := by omega
  have hfirst : dst ∈ area dst len := ⟨le_refl _, by omega⟩
  have hlast : dst + len - 1 ∈ area dst len := ⟨by omega, by omega⟩
  have hstop : dst + len ≤ 0x800000000 := by
    rcases hin with hin | hin
    · have := (hin hlast).2
      simp only [legacyWindow] at this
      omega
    · have := (hin hlast).2
      simp only [window40] at this
      omega
  rcases windowOf_eq dst len with ⟨hw, hsum⟩ | ⟨hw, hsum⟩
  · rw [hw] at h1 h2 h3
    simp only [legacyWindow] at h1 h2 h3 hclear
    have hbyte : 0x43F00000 ∈ area dst len := ⟨by omega, by omega⟩
    exact Set.disjoint_left.mp hclear hbyte ⟨by decide, by decide⟩
  · rw [hw] at h1 h2 h3
    simp only [window40] at h1 h2 h3 hclear40
    have hbyte : 0x403F00000 ∈ area dst len := ⟨by omega, by omega⟩
    exact Set.disjoint_left.mp hclear40 hbyte ⟨by decide, by decide⟩

/-- The check is sound for exactly the images that do not make one of its subtractions wrap
around past the comparison. -/
theorem checkLoadArea_sound_iff (dst len : UInt64) :
    (checkLoadArea dst len = IO_SUCCESS → LoadSafe dst.toNat len.toNat) ↔
      ¬ Evades (windowOf dst.toNat len.toNat) dst.toNat len.toNat := by
  rw [checkLoadArea_success_iff]
  constructor
  · intro h he
    exact he.not_safe (h (.inr he))
  · rintro h (hw | he)
    · exact hw.safe
    · exact absurd he h

/-- An image of 1280 MiB at the start of the legacy window is accepted, and so is one whose end
wraps around the address space; the first covers the protected region, the second leaves the
DRAM. -/
theorem wrapped_areas_accepted :
    checkLoadArea 0x40000000 0x50000000 = IO_SUCCESS ∧ ¬ LoadSafe 0x40000000 0x50000000 ∧
      checkLoadArea 0xFFFFFFFF30000000 0xD0000000 = IO_SUCCESS ∧
      ¬ LoadSafe 0xFFFFFFFF30000000 0xD0000000 := by
  refine ⟨by decide, ?_, by decide, ?_⟩
  · exact Evades.not_safe ⟨by decide, by decide, by decide⟩
  · exact Evades.not_safe ⟨by decide, by decide, by decide⟩

end RCar.Bl2
