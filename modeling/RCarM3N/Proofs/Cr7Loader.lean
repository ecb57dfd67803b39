import RCarM3N.Lib.Bytes
import RCarM3N.Model.Cr7Loader

/-! When the check of the load area is sound: for the images whose end does not wrap around the
32-bit address space. The transfer writes no more than the image, rounded up to its unit. -/

namespace RCar.Cr7

variable (cfg : Config)

/-! ## Masks -/

/-- Clearing the fraction rounds down to the unit. -/
theorem toNat_clear (x : UInt32) : (x &&& ~~~DMA_FRACTION_MASK).toNat = x.toNat / 256 * 256 :=
  toNat_clearLow x (k := 8) (by decide) rfl

theorem toNat_fraction (x : UInt32) : (x &&& DMA_FRACTION_MASK).toNat = x.toNat % 256 := by
  rw [UInt32.toNat_and, show DMA_FRACTION_MASK.toNat = 2 ^ 8 - 1 from rfl, Nat.and_two_pow_sub_one_eq_mod]

theorem fraction_eq_zero_iff (x : UInt32) : x &&& DMA_FRACTION_MASK = 0 ↔ x.toNat % 256 = 0 := by
  rw [← toNat_fraction, ← UInt32.toNat_inj]
  rfl

/-! ## Transfer -/

/-- A length rounded up to the unit of the transfer. -/
def roundUp (len : ℕ) : ℕ := (len + 255) / 256 * 256

theorem execDMA_written {dst src len : UInt32} {t : Transfer} (hlen : len.toNat + 256 < 2 ^ 32)
    (h : execDMA dst src len = some t) : t.written = Set.Ico dst.toNat (dst.toNat + roundUp len.toNat) := by
  unfold execDMA at h
  dsimp only at h
  split at h
  · cases h
  split at h
  · cases h
  cases h
  have hround : 64 * ((if len &&& DMA_FRACTION_MASK ≠ 0 then (len + DMA_SIZE_UNIT) &&& ~~~DMA_FRACTION_MASK
      else len) >>> RDMTCR_CNT_SHIFT).toNat = roundUp len.toNat := by
    have hshift : ∀ x : UInt32, (x >>> RDMTCR_CNT_SHIFT).toNat = x.toNat / 64 := fun x => by
      rw [UInt32.toNat_shiftRight, Nat.shiftRight_eq_div_pow]
      rfl
    have hsum : (len + DMA_SIZE_UNIT).toNat = len.toNat + 256 := by
      rw [UInt32.toNat_add, show DMA_SIZE_UNIT.toNat = 256 from rfl, Nat.mod_eq_of_lt hlen]
    have hzero := fraction_eq_zero_iff len
    rw [hshift]
    unfold roundUp
    split
    · rename_i hfraction
      rw [ne_eq, hzero] at hfraction
      rw [toNat_clear, hsum]
      omega
    · rename_i hfraction
      rw [ne_eq, not_not, hzero] at hfraction
      omega
  unfold Transfer.written
  rw [hround]

/-! ## Check -/

/-- The memory in which the image may be put. -/
def region (image : Image) : Set ℕ := Set.Ico (addList cfg image).topadd.toNat (addList cfg image).endadd.toNat

/-- The end of the image wraps around, so that the check takes it for one below the end of the region;
the end in the flash passes its check, or wraps around as well. -/
structure Evades (image : Image) (dst len : ℕ) : Prop where
  top : (addList cfg image).topadd.toNat ≤ dst
  wraps : 2 ^ 32 ≤ dst + len
  stop : dst + len ≤ 2 ^ 32 + (addList cfg image).endadd.toNat
  flash : (image.flashAddr cfg).toNat + len ≤ 0x0C000000 ∨ 2 ^ 32 ≤ (image.flashAddr cfg).toNat + len

theorem flashAddr_bounds (image : Image) : 0x08000000 ≤ (image.flashAddr cfg).toNat ∧
    (image.flashAddr cfg).toNat ≤ 0x0C000000 := by
  rcases cfg with ⟨_ | _, _ | _⟩ <;> cases image <;> decide

theorem checkLoadArea_iff (dst len : UInt32) (image : Image) :
    checkLoadArea cfg dst (image.flashAddr cfg) len image = true ↔
      ((image.flashAddr cfg).toNat + len.toNat) % 2 ^ 32 ≤ 0x0C000000 ∧
        (addList cfg image).topadd.toNat ≤ dst.toNat ∧
        (dst.toNat + len.toNat) % 2 ^ 32 ≤ (addList cfg image).endadd.toNat := by
  have hsrc := flashAddr_bounds cfg image
  have hflash : (FLASH_BASE + FLASH_SIZE).toNat = 0x0C000000 := rfl
  have hbase : FLASH_BASE.toNat = 0x08000000 := rfl
  unfold checkLoadArea
  simp only [UInt32.lt_iff_toNat_lt, UInt32.toNat_add, hflash, hbase]
  split_ifs <;> simp <;> omega

/-- What is accepted lies in the region, or has evaded the check. -/
theorem checkLoadArea_cases {dst len : UInt32} {image : Image} :
    checkLoadArea cfg dst (image.flashAddr cfg) len image = true ↔
      ((addList cfg image).topadd.toNat ≤ dst.toNat ∧ dst.toNat + len.toNat ≤ (addList cfg image).endadd.toNat ∧
          ((image.flashAddr cfg).toNat + len.toNat) % 2 ^ 32 ≤ 0x0C000000) ∨
        Evades cfg image dst.toNat len.toNat := by
  have hd := dst.toNat_lt
  have hl := len.toNat_lt
  have hend := (addList cfg image).endadd.toNat_lt
  have hsrc := flashAddr_bounds cfg image
  rw [checkLoadArea_iff]
  constructor
  · rintro ⟨hflash, htop, hstop⟩
    by_cases hwrap : 2 ^ 32 ≤ dst.toNat + len.toNat
    · exact Or.inr ⟨htop, hwrap, by omega, by omega⟩
    · exact Or.inl ⟨htop, by omega, hflash⟩
  · rintro (⟨htop, hstop, hflash⟩ | ⟨htop, hwrap, hstop, hflash⟩)
    · exact ⟨hflash, htop, by omega⟩
    · exact ⟨by omega, htop, by omega⟩

/-- What evades the check leaves the region. -/
theorem Evades.not_subset {cfg : Config} {image : Image} {dst len : ℕ} (hdst : dst < 2 ^ 32)
    (h : Evades cfg image dst len) : ¬ Set.Ico dst (dst + len) ⊆ region cfg image := by
  intro hsub
  have hend := (addList cfg image).endadd.toNat_lt
  have hwraps := h.wraps
  have hlast := hsub (show dst + len - 1 ∈ Set.Ico dst (dst + len) from ⟨by omega, by omega⟩)
  have hlt := hlast.2
  omega

/-! ## Loads -/

/-- An accepted image lies in its region, and the transfer writes the image alone, up to the next unit. -/
structure LoadSound (magicNumber : UInt32) (image : Image) (cert : ℕ → UInt32) : Prop where
  area : let (len, dst) := getInfoFromCert magicNumber cert
    checkLoadArea cfg dst (image.flashAddr cfg) len image = true →
      Set.Ico dst.toNat (dst.toNat + len.toNat) ⊆ region cfg image
  transfer : let (len, dst) := getInfoFromCert magicNumber cert
    ∀ t, loadImage cfg magicNumber image cert = some t →
      t.written ⊆ Set.Ico dst.toNat (dst.toNat + roundUp len.toNat)

theorem maxSize_le (image : Image) : image.maxSize.toNat ≤ 0x01800000 := by
  cases image <;> decide

/-- The transfer keeps to the rounded image, whatever the certificate says. -/
theorem loadImage_written {magicNumber : UInt32} {image : Image} {cert : ℕ → UInt32} {t : Transfer}
    (h : loadImage cfg magicNumber image cert = some t) :
    let (len, dst) := getInfoFromCert magicNumber cert
    t.written = Set.Ico dst.toNat (dst.toNat + roundUp len.toNat) := by
  unfold loadImage at h
  generalize getInfoFromCert magicNumber cert = info at h ⊢
  rcases info with ⟨len, dst⟩
  dsimp only at h ⊢
  split at h
  · cases h
  split at h
  · cases h
  rename_i hmax
  split at h
  · have hle : len.toNat ≤ image.maxSize.toNat := by
      rw [gt_iff_lt, UInt32.lt_iff_toNat_lt] at hmax
      omega
    have hbound := maxSize_le image
    exact execDMA_written (by omega) h
  · cases h

theorem load_sound_iff (magicNumber : UInt32) (image : Image) (cert : ℕ → UInt32) :
    LoadSound cfg magicNumber image cert ↔
      ¬ Evades cfg image (getInfoFromCert magicNumber cert).2.toNat (getInfoFromCert magicNumber cert).1.toNat := by
  constructor
  · intro h hevades
    have haccept := (checkLoadArea_cases cfg).mpr (Or.inr hevades)
    exact hevades.not_subset (UInt32.toNat_lt _) (h.area haccept)
  · intro h
    refine ⟨fun haccept => ?_, fun t ht => (loadImage_written cfg ht).subset⟩
    rcases (checkLoadArea_cases cfg).mp haccept with ⟨htop, hstop, -⟩ | hevades
    · exact Set.Ico_subset_Ico htop hstop
    · exact absurd hevades h

/-- For a size that is let through, what evades the check is what begins above the start of the region
and wraps around. -/
theorem evades_iff {image : Image} {dst len : ℕ} (hlen : len ≤ image.maxSize.toNat) (hdst : dst < 2 ^ 32) :
    Evades cfg image dst len ↔ (addList cfg image).topadd.toNat ≤ dst ∧ 2 ^ 32 ≤ dst + len := by
  have hmax := maxSize_le image
  have hflash : (image.flashAddr cfg).toNat ≤ 0x08780000 := by
    rcases cfg with ⟨_ | _, _ | _⟩ <;> cases image <;> decide
  have hend : 0x01800000 ≤ (addList cfg image).endadd.toNat := by
    rcases cfg with ⟨_ | _, _ | _⟩ <;> cases image <;> decide
  constructor
  · exact fun h => ⟨h.top, h.wraps⟩
  · rintro ⟨htop, hwraps⟩
    exact ⟨htop, hwraps, by omega, Or.inl (by omega)⟩

/-- A certificate with the words of an image of 64 KiB at the end of the address space. -/
def wrappingCert : ℕ → UInt32 := fun off => if off = 0x264 then 0x4000 else if off = 0x154 then 0xFFFFFF00 else 0

/-- It passes every check, and the transfer to it is started. -/
theorem wrapping_cert_accepted :
    (loadImage ⟨false, false⟩ 0 .rtos wrappingCert).isSome = true ∧
      ¬ LoadSound ⟨false, false⟩ 0 .rtos wrappingCert := by
  have hevades : Evades ⟨false, false⟩ .rtos 0xFFFFFF00 0x10000 := ⟨by decide, by decide, by decide, by decide⟩
  refine ⟨by decide, fun h => ?_⟩
  exact hevades.not_subset (by decide) (h.area (by decide))

end RCar.Cr7
