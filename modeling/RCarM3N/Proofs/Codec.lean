import RCarM3N.Model.Bl2AbFlow
import RCarM3N.Model.UBootAb

/-! The two codecs of the A/B block. Both tables are the CRC-32 of the reversed polynomial
`0xEDB88320`, so one stage accepts what the other has sealed. -/

namespace RCar

/-- CRC-32 a bit at a time. -/
def crc32 (bytes : List UInt8) : UInt32 :=
  bytes.foldl (Crc.byteStep 0xEDB88320) (~~~0) ^^^ ~~~0

namespace Bl2

theorem iavbCrc32Tab_eq :
    ∀ i < 256, iavbCrc32Tab.getD i 0 = Crc.bitSteps 0xEDB88320 8 (UInt32.ofNat i) := by
  decide +kernel

theorem avbCrc32_eq (buf : Mem) (size : ℕ) : avbCrc32 buf size = crc32 (buf.read 0 size) := by
  have hstep : (Crc.tableStep fun i => iavbCrc32Tab.getD i 0) = Crc.byteStep 0xEDB88320 := by
    funext c b
    exact Crc.tableStep_eq _ _ iavbCrc32Tab_eq c b
  rw [avbCrc32, iavbCrc32, hstep, UInt32.zero_xor, crc32]

end Bl2

namespace UBoot

theorem iavbCrc32Tab_eq : iavbCrc32Tab = Bl2.iavbCrc32Tab := rfl

theorem avbCrc32_eq (buf : Mem) (size : ℕ) : avbCrc32 buf size = Bl2.avbCrc32 buf size := by
  rw [avbCrc32, iavbCrc32, iavbCrc32Tab_eq]
  rfl

end UBoot

namespace AvbABData

/-- The block with its checksum, as both stages store it. -/
def sealed (d : AvbABData) : AvbABData := { d with crc32 := Bl2.storedCrc d }

/-- What a stage accepts: magic, version and checksum are right. -/
structure Valid (d : AvbABData) : Prop where
  magic : d.magic = AVB_AB_MAGIC
  version : d.versionMajor ≤ AVB_AB_MAJOR_VERSION
  crc : d.crc32 = Bl2.storedCrc d

instance (d : AvbABData) : Decidable d.Valid :=
  decidable_of_iff (d.magic = AVB_AB_MAGIC ∧ d.versionMajor ≤ AVB_AB_MAJOR_VERSION ∧
    d.crc32 = Bl2.storedCrc d) ⟨fun ⟨h, h', h''⟩ => ⟨h, h', h''⟩, fun h => ⟨h.1, h.2, h.3⟩⟩

/-- The decoded block has its checksum in host order. -/
def hostOrder (d : AvbABData) : AvbABData := { d with crc32 := swap32 d.crc32 }

theorem read_mem_crc32 (d : AvbABData) (x : UInt32) :
    Mem.read { d with crc32 := x }.mem 0 28 = d.mem.read 0 28 := by
  apply Mem.read_congr
  intro i hi
  interval_cases i <;> rfl

theorem storedCrc_crc32 (d : AvbABData) (x : UInt32) :
    Bl2.storedCrc { d with crc32 := x } = Bl2.storedCrc d := by
  unfold Bl2.storedCrc
  rw [Bl2.avbCrc32_eq, Bl2.avbCrc32_eq, AVB_AB_DATA_SIZE, read_mem_crc32]

theorem valid_sealed {d : AvbABData} (hm : d.magic = AVB_AB_MAGIC)
    (hv : d.versionMajor ≤ AVB_AB_MAJOR_VERSION) : d.sealed.Valid :=
  ⟨hm, hv, (storedCrc_crc32 d _).symm⟩

theorem sealed_crc32 (d : AvbABData) (x : UInt32) : sealed { d with crc32 := x } = d.sealed := by
  rw [sealed, storedCrc_crc32]
  rfl

theorem Valid.sealed_eq {d : AvbABData} (h : d.Valid) : d.sealed = d := by
  rw [sealed, ← h.crc]

@[simp] theorem slots_sealed (d : AvbABData) : d.sealed.slots = d.slots := rfl

@[simp] theorem slots_hostOrder (d : AvbABData) : d.hostOrder.slots = d.slots := rfl

theorem sealed_hostOrder (d : AvbABData) : d.hostOrder.sealed = d.sealed := sealed_crc32 d _

end AvbABData

open AvbABData

theorem Bl2.avbAbCheckData_eq_ok (d : AvbABData) : avbAbCheckData d = .ok ↔ d.Valid := by
  unfold avbAbCheckData
  constructor
  · intro h
    split at h
    · cases h
    · split at h
      · cases h
      · split at h
        · cases h
        · rename_i h1 h2 h3
          exact ⟨(not_not.mp h1).symm, UInt8.not_lt.mp h2, (not_not.mp h3).symm⟩
  · intro h
    rw [if_neg (not_not.mpr h.magic.symm), if_neg (UInt8.not_lt.mpr h.version),
      if_neg (not_not.mpr h.crc.symm)]

/-- U-Boot decodes the blocks that BL2 accepts, and only those. -/
theorem UBoot.avbAbDataVerifyAndByteswap_eq (d : AvbABData) :
    avbAbDataVerifyAndByteswap d = if d.Valid then some d.hostOrder else none := by
  have hcrc : avbBe32toh d.crc32 =
      avbCrc32 { d with crc32 := avbBe32toh d.crc32 }.mem (AVB_AB_DATA_SIZE - 4) ↔
        d.crc32 = Bl2.storedCrc d := by
    rw [UBoot.avbCrc32_eq, Bl2.avbCrc32_eq, AVB_AB_DATA_SIZE, read_mem_crc32]
    unfold Bl2.storedCrc
    rw [Bl2.avbCrc32_eq, AVB_AB_DATA_SIZE]
    constructor
    · intro h
      exact (swap32_swap32 _).symm.trans (congrArg swap32 h)
    · intro h
      exact (congrArg swap32 h).trans (swap32_swap32 _)
  unfold avbAbDataVerifyAndByteswap
  by_cases hm : d.magic = AVB_AB_MAGIC
  · rw [if_neg (not_not.mpr hm)]
    by_cases hv : AVB_AB_MAJOR_VERSION < d.versionMajor
    · rw [if_pos hv, if_neg fun h => absurd hv (UInt8.not_lt.mpr h.version)]
    · rw [if_neg hv]
      by_cases hc : d.crc32 = Bl2.storedCrc d
      · rw [if_neg (not_not.mpr (hcrc.mpr hc)), if_pos ⟨hm, UInt8.not_lt.mp hv, hc⟩]
        rfl
      · rw [if_pos (fun h => hc (hcrc.mp h)), if_neg fun h => hc h.crc]
  · rw [if_pos hm, if_neg fun h => hm h.magic]

theorem UBoot.avbAbDataUpdateCrcAndByteswap_eq (d : AvbABData) :
    avbAbDataUpdateCrcAndByteswap d = d.sealed := by
  rw [avbAbDataUpdateCrcAndByteswap, UBoot.avbCrc32_eq]
  rfl

end RCar
