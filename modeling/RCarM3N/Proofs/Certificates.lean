import RCarM3N.Model.IoRcar
import RCarM3N.Model.Cr7Loader

/-! One certificate in the hands of the two boot loaders. Both take the length and the destination
from the same words; BL2 alone looks at the format of the boot key certificate first. -/

namespace RCar.Certificate

open Bl2 (rcarReadCertificate RCAR_BOOT_KEY_CERT_NEW RCAR_CERT_MAGIC_NUM)

/-- The length and the address that the loader of the Cortex-R7 takes from the certificate. -/
def cr7Read (mem : Mem) (cert : ℕ) : UInt32 × UInt32 :=
  Cr7.getInfoFromCert (mem.le32 RCAR_BOOT_KEY_CERT_NEW) fun off => mem.le32 (cert % 2 ^ 32 + off)

/-- The same length, and the same address in the 32-bit range. A loader that rejects a certificate
returns two zeros. -/
def ReadAlike (mem : Mem) (cert : ℕ) : Prop :=
  (rcarReadCertificate mem cert).1 = (cr7Read mem cert).1.toNat ∧
    (rcarReadCertificate mem cert).2 % 2 ^ 32 = (cr7Read mem cert).2.toNat

/-- The boot ROM has left a certificate of the long format. -/
def LongFormat (mem : Mem) : Prop := (mem.le32 RCAR_BOOT_KEY_CERT_NEW).toNat = RCAR_CERT_MAGIC_NUM

instance (mem : Mem) : Decidable (LongFormat mem) := inferInstanceAs (Decidable (_ = _))

/-- The format that the boot key certificate names for itself. -/
def keyFormat (mem : Mem) : ℕ := (mem.le32 (RCAR_BOOT_KEY_CERT_NEW + 0xC)).toNat / 2 ^ 18 % 4

/-- The format that a certificate names for itself. -/
def certFormat (mem : Mem) (cert : ℕ) : ℕ := (mem.le32 (cert % 2 ^ 32 + 0xC)).toNat / 2 ^ 21 % 4

/-- Where a certificate of a format has its length and its destination. -/
def sizeOffset (format : ℕ) : ℕ := 0x264 + 0x100 * format

def dstOffset (format : ℕ) : ℕ := 0x154 + 0x80 * format

/-- A certificate that names no bytes at address 0, which is how both loaders write a rejection. -/
def Void (mem : Mem) (cert : ℕ) : Prop :=
  mem.le32 (cert % 2 ^ 32 + sizeOffset (certFormat mem cert)) * 4 = 0 ∧
    mem.le32 (cert % 2 ^ 32 + dstOffset (certFormat mem cert)) = 0

/-! ## The words that are read -/

theorem longFormat_iff (mem : Mem) : mem.le32 RCAR_BOOT_KEY_CERT_NEW = Cr7.RCAR_CERT_MAGIC_NUM ↔ LongFormat mem := by
  rw [← UInt32.toNat_inj]
  rfl

theorem certFormat_lt (mem : Mem) (cert : ℕ) : certFormat mem cert < 4 := Nat.mod_lt _ (by decide)

/-- The shift and the mask of the one loader are the division and the remainder of the other. -/
theorem toNat_format (x : UInt32) : ((x >>> 21) &&& 0x3).toNat = x.toNat / 2 ^ 21 % 4 := by
  rw [UInt32.toNat_and, UInt32.toNat_shiftRight, Nat.shiftRight_eq_div_pow]
  exact Nat.and_two_pow_sub_one_eq_mod _ 2

/-- What the Cortex-R7 reads, by the format of the certificate. -/
theorem cr7Read_eq (mem : Mem) (cert : ℕ) : cr7Read mem cert =
    if LongFormat mem then
      if certFormat mem cert = 3 then (0, 0)
      else (mem.le32 (cert % 2 ^ 32 + sizeOffset (certFormat mem cert)) * 4,
        mem.le32 (cert % 2 ^ 32 + dstOffset (certFormat mem cert)))
    else (mem.le32 (cert % 2 ^ 32 + sizeOffset 0) * 4, mem.le32 (cert % 2 ^ 32 + dstOffset 0)) := by
  have hformat : ∀ k : UInt32, (mem.le32 (cert % 2 ^ 32 + 0xC) >>> 21) &&& 0x3 = k ↔ certFormat mem cert = k.toNat := by
    intro k
    rw [← UInt32.toNat_inj, toNat_format, certFormat]
  have hlt := certFormat_lt mem cert
  simp only [cr7Read, Cr7.getInfoFromCert, hformat, longFormat_iff]
  split
  · generalize certFormat mem cert = format at hlt
    interval_cases format <;> rfl
  · rfl

/-- What BL2 reads, by the formats of both certificates. -/
theorem rcarReadCertificate_eq (mem : Mem) (cert : ℕ) :
    let read (format : ℕ) : ℕ × ℕ := ((mem.le32 (cert % 2 ^ 32 + sizeOffset format)).toNat * 4 % 2 ^ 32,
      (mem.le32 (cert % 2 ^ 32 + dstOffset format + 4)).toNat * 2 ^ 32 +
        (mem.le32 (cert % 2 ^ 32 + dstOffset format)).toNat)
    rcarReadCertificate mem cert =
      if LongFormat mem then
        if keyFormat mem ≠ 1 ∨ certFormat mem cert = 3 then (0, 0) else read (certFormat mem cert)
      else read 0 := by
  intro read
  have hlt := certFormat_lt mem cert
  unfold rcarReadCertificate
  by_cases hlong : LongFormat mem
  · have hmagic : (mem.le32 RCAR_BOOT_KEY_CERT_NEW).toNat = RCAR_CERT_MAGIC_NUM := hlong
    rw [if_pos hlong]
    simp only [if_pos hmagic]
    by_cases hkey : keyFormat mem = 1
    · have hkey' : (mem.le32 (RCAR_BOOT_KEY_CERT_NEW + 0xC)).toNat / 2 ^ 18 % 4 = 1 := hkey
      have hformat : (mem.le32 (cert % 2 ^ 32 + 0xC)).toNat / 2 ^ 21 % 4 = certFormat mem cert := rfl
      rw [if_neg (not_not.mpr hkey'), hformat]
      simp only [hkey, ne_eq, not_true_eq_false, false_or]
      generalize certFormat mem cert = format at hlt
      interval_cases format <;> rfl
    · rw [if_pos (Or.inl hkey)]
      exact if_pos hkey
  · rw [if_neg hlong]
    exact if_neg hlong

/-! ## Agreement -/

/-- The readings of one format agree. -/
theorem read_agree (size dst high : UInt32) : size.toNat * 4 % 2 ^ 32 = (size * 4).toNat ∧
    (high.toNat * 2 ^ 32 + dst.toNat) % 2 ^ 32 = dst.toNat := by
  constructor
  · rw [UInt32.toNat_mul]
    rfl
  · have := dst.toNat_lt
    omega

/-- The loaders read a certificate alike unless BL2 rejects it for the format of the boot key
certificate, which the Cortex-R7 does not look at, while it names something to load. -/
theorem readAlike_iff (mem : Mem) (cert : ℕ) :
    ReadAlike mem cert ↔ (LongFormat mem → keyFormat mem ≠ 1 → certFormat mem cert ≠ 3 → Void mem cert) := by
  unfold ReadAlike
  rw [cr7Read_eq, rcarReadCertificate_eq]
  by_cases hlong : LongFormat mem
  · simp only [hlong, if_true, true_imp_iff]
    by_cases hthree : certFormat mem cert = 3
    · simp [hthree]
    · by_cases hkey : keyFormat mem = 1
      · simp only [hkey, hthree, ne_eq, not_true_eq_false, or_self, if_false, false_imp_iff, iff_true]
        exact read_agree _ _ _
      · simp only [hkey, hthree, ne_eq, not_false_eq_true, true_or, if_true, if_false, true_imp_iff, Void]
        rw [← UInt32.toNat_inj, ← UInt32.toNat_inj]
        exact and_congr eq_comm eq_comm
  · simp only [hlong, if_false, false_imp_iff, iff_true]
    exact read_agree _ _ _

/-- A boot key certificate of the long format that names format 0 for itself, and an image of 4 bytes
at 0x40000000 under it. -/
def wrongKey : Mem := Mem.copy (Mem.copy (Mem.copy (fun _ => 0)
  0xE6300F00 (Mem.ofList [0x58, 0xF3, 0x91, 0xE2]) 0 4)
  (0x43F00000 + 0x264) (Mem.ofList [1, 0, 0, 0]) 0 4)
  (0x43F00000 + 0x154) (Mem.ofList [0, 0, 0, 0x40]) 0 4

theorem wrongKey_not_alike : ¬ ReadAlike wrongKey 0x43F00000 := by
  unfold ReadAlike
  decide +kernel

end RCar.Certificate
