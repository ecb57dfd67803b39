import RCarM3N.Proofs.VbMeta

/-! The walk over the descriptors of an image. It comes to the end exactly when the descriptors tile their region, and where
it does not, all that it has visited lies in the region but for one last descriptor, whose end wraps around the memory. -/

namespace RCar.VbMeta

open AvbRsa

/-- The size that the descriptor at `p` gives itself. -/
def sizeAt (m : Mem) (p : UInt64) : ℕ := 16 + (be64 m (p.toNat + 8)).toNat

/-- Descriptors of whole words, one after the other from `a` to `stop`. -/
def Tiles (m : Mem) (stop : ℕ) : ℕ → List UInt64 → Prop
  | a, [] => a = stop
  | a, p :: ds => p.toNat = a ∧ 8 ∣ sizeAt m p ∧ Tiles m stop (a + sizeAt m p) ds

instance decidableTiles (m : Mem) (stop : ℕ) : ∀ a ds, Decidable (Tiles m stop a ds)
  | a, [] => inferInstanceAs (Decidable (a = stop))
  | a, p :: ds =>
    have := decidableTiles m stop (a + sizeAt m p) ds
    inferInstanceAs (Decidable (p.toNat = a ∧ 8 ∣ sizeAt m p ∧ Tiles m stop (a + sizeAt m p) ds))

variable {m : Mem} {stop a : ℕ} {p descStart descEnd : UInt64} {ds : List UInt64}

theorem Tiles.le (h : Tiles m stop a ds) : a + 16 * ds.length ≤ stop := by
  induction ds generalizing a with
  | nil => exact h.le
  | cons p ds ih =>
    obtain ⟨-, -, hrest⟩ := h
    have hle := ih hrest
    rw [sizeAt] at hle
    rw [List.length_cons]
    omega

/-- Each tile is in the region. -/
theorem Tiles.inside (h : Tiles m stop a ds) (hp : p ∈ ds) : a ≤ p.toNat ∧ p.toNat + sizeAt m p ≤ stop := by
  induction ds generalizing a with
  | nil => cases hp
  | cons q ds ih =>
    obtain ⟨hq, -, hrest⟩ := h
    rcases List.mem_cons.mp hp with rfl | hmem
    · exact ⟨hq.ge, hq ▸ (Nat.le_add_right _ _).trans hrest.le⟩
    · obtain ⟨hge, hle⟩ := ih hrest hmem
      exact ⟨(Nat.le_add_right _ _).trans hge, hle⟩

/-- The descriptor at `p` is of whole words and ends in the region. -/
def Fits (m : Mem) (descEnd p : UInt64) : Prop := 8 ∣ sizeAt m p ∧ p.toNat + sizeAt m p ≤ descEnd.toNat

/-- Its end is past the last address, and comes out in the region again, at or after its start. -/
structure Wraps (m : Mem) (descStart p : UInt64) : Prop where
  words : 8 ∣ sizeAt m p
  size : sizeAt m p < 2 ^ 64
  back : 2 ^ 64 + descStart.toNat ≤ p.toNat + sizeAt m p

/-- What one pass of the loop does. -/
theorem foreachFrom_succ (fuel : ℕ) (hstart : descStart ≤ p) (hp : p < descEnd) :
    (Fits m descEnd p ∧ ∃ p' : UInt64, p'.toNat = p.toNat + sizeAt m p ∧
        foreachFrom m descStart descEnd (fuel + 1) p =
          ((foreachFrom m descStart descEnd fuel p').1, p :: (foreachFrom m descStart descEnd fuel p').2)) ∨
      (Wraps m descStart p ∧ foreachFrom m descStart descEnd (fuel + 1) p = (false, [p])) ∨
      (¬ Fits m descEnd p ∧ ¬ Wraps m descStart p ∧ foreachFrom m descStart descEnd (fuel + 1) p = (false, [])) := by
  have hstart' := UInt64.le_iff_toNat_le.mp hstart
  have hp' := UInt64.lt_iff_toNat_lt.mp hp
  have hend := descEnd.toNat_lt
  rw [foreachFrom, if_pos hp]
  rcases hsum : avbSafeAdd 16 (be64 m (p.toNat + 8)) with - | nbTotal
  · have hover : 2 ^ 64 ≤ sizeAt m p := avbSafeAdd_eq_none.mp hsum
    exact .inr (.inr ⟨fun hfits => by have := hfits.2; omega, fun hwraps => absurd hwraps.size (not_lt.mpr hover), rfl⟩)
  have hsize : nbTotal.toNat = sizeAt m p := avbSafeAdd_eq_some.mp hsum
  have hlt := nbTotal.toNat_lt
  simp only
  by_cases hwords : nbTotal &&& 7 ≠ 0
  · rw [if_pos hwords]
    have hdvd : ¬ 8 ∣ sizeAt m p := fun h => hwords (and_7_eq_zero.mpr (hsize ▸ h))
    exact .inr (.inr ⟨fun hfits => hdvd hfits.1, fun hwraps => hdvd hwraps.words, rfl⟩)
  rw [if_neg hwords]
  have hdvd : 8 ∣ sizeAt m p := hsize ▸ and_7_eq_zero.mp (not_not.mp hwords)
  have hmod : (nbTotal + p).toNat = (sizeAt m p + p.toNat) % 2 ^ 64 := by rw [UInt64.toNat_add, hsize]
  simp only [UInt64.lt_iff_toNat_lt, GT.gt, hmod]
  rcases hnext : avbSafeAdd p nbTotal with - | p'
  · have hover := avbSafeAdd_eq_none.mp hnext
    rw [hsize] at hover
    have hback : (sizeAt m p + p.toNat) % 2 ^ 64 = p.toNat + sizeAt m p - 2 ^ 64 := by
      rw [Nat.mod_eq_sub_mod (by omega), Nat.mod_eq_of_lt (by omega), Nat.add_comm]
    split_ifs with hout
    · exact .inr (.inr ⟨fun hfits => by have := hfits.2; omega, fun hwraps => by have := hwraps.back; omega, rfl⟩)
    · exact .inr (.inl ⟨⟨hdvd, hsize ▸ hlt, by omega⟩, rfl⟩)
  have hp'' := avbSafeAdd_eq_some.mp hnext
  have hlt' := p'.toNat_lt
  rw [hsize] at hp''
  rw [Nat.mod_eq_of_lt (by omega)]
  split_ifs with hout
  · refine .inr (.inr ⟨fun hfits => ?_, fun hwraps => ?_, rfl⟩)
    · have := hfits.2
      omega
    · have := hwraps.back
      omega
  · exact .inl ⟨⟨hdvd, by omega⟩, p', hp'', rfl⟩

/-- How a walk ends: at the end of the region, or at a descriptor that does not fit, which is only visited where its end
wraps around. -/
inductive Ending (m : Mem) (descStart descEnd : UInt64) (stop : ℕ) : Bool → List UInt64 → Prop
  | whole (h : stop = descEnd.toNat) : Ending m descStart descEnd stop true []
  | refused (q : UInt64) (hq : q.toNat = stop) (hlt : q < descEnd) (hfits : ¬ Fits m descEnd q)
      (hwraps : ¬ Wraps m descStart q) : Ending m descStart descEnd stop false []
  | wrapped (q : UInt64) (hq : q.toNat = stop) (hlt : q < descEnd) (hwraps : Wraps m descStart q) :
      Ending m descStart descEnd stop false [q]

theorem foreachFrom_spec (fuel : ℕ) (hstart : descStart ≤ p) (hp : p ≤ descEnd)
    (hfuel : descEnd.toNat < p.toNat + 16 * fuel) :
    ∃ ds last stop, (foreachFrom m descStart descEnd fuel p).2 = ds ++ last ∧ Tiles m stop p.toNat ds ∧
      Ending m descStart descEnd stop (foreachFrom m descStart descEnd fuel p).1 last := by
  induction fuel generalizing p with
  | zero =>
    have := UInt64.le_iff_toNat_le.mp hp
    omega
  | succ fuel ih =>
    by_cases hlt : p < descEnd
    · rcases foreachFrom_succ (m := m) fuel hstart hlt with ⟨hfits, p', hp', heq⟩ | ⟨hwraps, heq⟩ | ⟨hfits, hwraps, heq⟩
      · have hstart' := UInt64.le_iff_toNat_le.mp hstart
        have hsize : 16 ≤ sizeAt m p := Nat.le_add_right _ _
        have hnext := ih (p := p') (UInt64.le_iff_toNat_le.mpr (by omega))
          (UInt64.le_iff_toNat_le.mpr (hp'.trans_le hfits.2)) (by omega)
        obtain ⟨ds, last, stop, hlist, htiles, hend⟩ := hnext
        rw [heq]
        exact ⟨p :: ds, last, stop, by rw [hlist, List.cons_append], ⟨rfl, hfits.1, hp' ▸ htiles⟩, hend⟩
      · rw [heq]
        exact ⟨[], [p], p.toNat, rfl, rfl, .wrapped p rfl hlt hwraps⟩
      · rw [heq]
        exact ⟨[], [], p.toNat, rfl, rfl, .refused p rfl hlt hfits hwraps⟩
    · have hle := UInt64.le_iff_toNat_le.mp hp
      have hge := UInt64.le_iff_toNat_le.mp (UInt64.not_lt.mp hlt)
      rw [foreachFrom, if_neg hlt]
      exact ⟨[], [], p.toNat, rfl, rfl, .whole (le_antisymm hle hge)⟩

/-- The walk over a tiled region visits the tiles. -/
theorem foreachFrom_of_tiles {fuel : ℕ} (hstart : descStart ≤ p) (h : Tiles m descEnd.toNat p.toNat ds)
    (hfuel : ds.length < fuel) : foreachFrom m descStart descEnd fuel p = (true, ds) := by
  induction ds generalizing p fuel with
  | nil =>
    obtain ⟨fuel, rfl⟩ := Nat.exists_eq_succ_of_ne_zero hfuel.ne'
    have hend : p.toNat = descEnd.toNat := h
    rw [foreachFrom, if_neg fun hlt => (UInt64.lt_iff_toNat_lt.mp hlt).ne hend]
  | cons q ds ih =>
    obtain ⟨fuel, rfl⟩ := Nat.exists_eq_succ_of_ne_zero (Nat.ne_zero_of_lt hfuel)
    obtain ⟨hq, hdvd, hrest⟩ := h
    obtain rfl := UInt64.toNat_inj.mp hq
    have hle := hrest.le
    have hsize : 16 ≤ sizeAt m q := Nat.le_add_right _ _
    have hlt : q < descEnd := UInt64.lt_iff_toNat_lt.mpr (by omega)
    rcases foreachFrom_succ (m := m) fuel hstart hlt with ⟨-, p', hp', heq⟩ | ⟨hwraps, -⟩ | ⟨hfits, -⟩
    · have hstart' := UInt64.le_iff_toNat_le.mp hstart
      rw [heq, ih (UInt64.le_iff_toNat_le.mpr (by omega)) (hp' ▸ hrest) (Nat.lt_of_succ_lt_succ hfuel)]
    · have := hwraps.back
      have := descEnd.toNat_lt
      omega
    · exact absurd ⟨hdvd, by omega⟩ hfits

/-! ## The region of an image -/

/-- The region of the descriptors. Its two sums are of 64-bit words. -/
def descStartOf (m : Mem) (imageData : UInt64) : UInt64 :=
  imageData + 256 + (header m imageData.toNat).authenticationDataBlockSize + (header m imageData.toNat).descriptorsOffset

def descEndOf (m : Mem) (imageData : UInt64) : UInt64 := descStartOf m imageData + (header m imageData.toNat).descriptorsSize

/-- An image with a region of descriptors in it. -/
structure HasRegion (m : Mem) (imageData : UInt64) (imageSize : ℕ) : Prop where
  header : AVB_VBMETA_IMAGE_HEADER_SIZE ≤ imageSize
  magic : m.read imageData.toNat 4 = AVB_MAGIC
  low : imageData ≤ descStartOf m imageData
  high : descEndOf m imageData ≤ imageData + UInt64.ofNat imageSize
  order : descStartOf m imageData ≤ descEndOf m imageData

variable {imageData : UInt64} {imageSize : ℕ}

theorem foreach_eq (hfit : imageData.toNat + imageSize < 2 ^ 64) :
    (HasRegion m imageData imageSize ∧ avbDescriptorForeach m imageData imageSize =
      foreachFrom m (descStartOf m imageData) (descEndOf m imageData) (imageSize + 1) (descStartOf m imageData)) ∨
    (¬ HasRegion m imageData imageSize ∧ avbDescriptorForeach m imageData imageSize = (false, [])) := by
  unfold avbDescriptorForeach
  by_cases hheader : imageSize < AVB_VBMETA_IMAGE_HEADER_SIZE
  · rw [if_pos hheader]
    exact .inr ⟨fun h => absurd h.header (not_le.mpr hheader), rfl⟩
  rw [if_neg hheader]
  by_cases hmagic : m.read imageData.toNat 4 ≠ AVB_MAGIC
  · rw [if_pos hmagic]
    exact .inr ⟨fun h => hmagic h.magic, rfl⟩
  rw [if_neg hmagic]
  simp only [← header.eq_def, ← descStartOf.eq_def, ← descEndOf.eq_def]
  split
  · rename_i hout
    refine .inr ⟨fun h => ?_, rfl⟩
    have hlow := h.low
    have hhigh := h.high
    have horder := h.order
    simp only [UInt64.lt_iff_toNat_lt, UInt64.le_iff_toNat_le, GT.gt] at hout hlow hhigh horder
    omega
  · rename_i hin
    push Not at hin
    exact .inl ⟨⟨not_lt.mp hheader, not_not.mp hmagic, UInt64.not_lt.mp hin.1, UInt64.not_lt.mp hin.2.2.2.1,
      UInt64.not_lt.mp hin.2.2.2.2⟩, rfl⟩

theorem HasRegion.fuel (h : HasRegion m imageData imageSize) (hfit : imageData.toNat + imageSize < 2 ^ 64) :
    (descEndOf m imageData).toNat < (descStartOf m imageData).toNat + 16 * (imageSize + 1) := by
  have hlow := UInt64.le_iff_toNat_le.mp h.low
  have hhigh := UInt64.le_iff_toNat_le.mp h.high
  rw [UInt64.toNat_add, UInt64.toNat_ofNat', Nat.mod_eq_of_lt (by omega), Nat.mod_eq_of_lt (by omega)] at hhigh
  omega

/-- A walk succeeds, and visits what it visits, exactly when that tiles the region. -/
theorem foreach_iff (hfit : imageData.toNat + imageSize < 2 ^ 64) : avbDescriptorForeach m imageData imageSize = (true, ds) ↔
    HasRegion m imageData imageSize ∧ Tiles m (descEndOf m imageData).toNat (descStartOf m imageData).toNat ds := by
  rcases foreach_eq (m := m) hfit with ⟨hreg, heq⟩ | ⟨hreg, heq⟩
  · rw [heq, and_iff_right hreg]
    constructor
    · intro h
      obtain ⟨ds', last, stop, hlist, htiles, hend⟩ :=
        foreachFrom_spec (m := m) (imageSize + 1) (UInt64.le_refl _) hreg.order (hreg.fuel hfit)
      rw [h] at hlist hend
      cases hend with
      | whole hstop =>
        have hds : ds = ds' := hlist.trans (List.append_nil _)
        rw [hds, ← hstop]
        exact htiles
    · intro h
      have hle := h.le
      have hlow := UInt64.le_iff_toNat_le.mp hreg.low
      have hfuel := hreg.fuel hfit
      exact foreachFrom_of_tiles (UInt64.le_refl _) h (by omega)
  · rw [heq]
    exact iff_of_false (by simp) fun h => hreg h.1

/-- An image of a header and a property descriptor of 16 bytes, and one whose second descriptor ends where the first does. -/
def twoTiles (numBytes : UInt8) : Mem := fun i =>
  (AVB_MAGIC ++ List.replicate 107 0 ++ [32] ++ List.replicate 168 0 ++ List.replicate 7 numBytes ++ [numBytes &&& 0xe0]).getD i 0

theorem foreach_iff_two : avbDescriptorForeach (twoTiles 0) 0 288 = (true, [256, 272]) :=
  (foreach_iff (by decide)).mpr ⟨⟨by decide, by decide, by decide, by decide, by decide⟩, by decide⟩

end RCar.VbMeta
