import RCarM3N.Proofs.Gpt
import RCarM3N.Proofs.UBootMisc

/-! The `misc` partition handed from one stage to the other: what one stores the other decodes. -/

namespace RCar

open Bl2 (Ready USER_PARTITION)

variable {b : ℕ} {s s' : Bl2.State} {u u' : UBoot.State} {d m : AvbABData} {v : MiscVirtABMsg}

/-- The partition that starts at sector `b` of a disk. -/
def miscPart (b : ℕ) (disk : Mem) : Mem := fun i => disk (512 * b + i)

theorem dataAt_miscPart (b : ℕ) (disk : Mem) : dataAt 0 (miscPart b disk) = dataAt b disk := by
  refine AvbABData.ofMem_congr fun i _ => ?_
  rw [miscPart, dataOffset_eq, dataOffset_eq]
  congr 1
  omega

/-- Only the bytes of the A/B block differ. -/
def OnlyBlock (b : ℕ) (s s' : Bl2.State) : Prop :=
  ∀ p a, p ≠ USER_PARTITION ∨ a < dataOffset b ∨ dataOffset b + AVB_AB_DATA_SIZE ≤ a →
    s'.part p a = s.part p a

theorem onlyBlock_of_disk (h : Bl2.Disk b s s' d (Bl2.virtMsg b s)) : OnlyBlock b s s' := by
  intro p a hpa
  by_cases hp : p = USER_PARTITION
  · subst hp
    rw [h.user, Bl2.virtMsg, putMisc_data]
    exact Mem.copy_out _ _ _ _ _ _ (hpa.resolve_left fun hne => hne rfl)
  · rw [h.other hp]

theorem hostOrder_sealed (m : AvbABData) :
    m.sealed.hostOrder = { m with crc32 := Bl2.avbCrc32 m.mem (AVB_AB_DATA_SIZE - 4) } := by
  simp only [AvbABData.hostOrder, AvbABData.sealed]
  congr 1
  exact swap32_swap32 _

/-- The codecs agree on every value with the magic and a supported version: what BL2 saves with
its checksum U-Boot decodes to that value, what it writes as it is U-Boot accepts if its
checksum is right, and both writes change nothing but the block; what U-Boot stores BL2 reads
back. Both checksums are the CRC-32 of the reversed polynomial. -/
theorem codecs_agree (hm : m.magic = AVB_AB_MAGIC) (hv : m.versionMajor ≤ AVB_AB_MAJOR_VERSION)
    (h : Ready b s) :
    (∃ s', (Bl2.avbAbUpdateAndSave m).run s = (some (.ok, m.sealed), s') ∧ OnlyBlock b s s' ∧
        UBoot.avbAbDataVerifyAndByteswap (Bl2.abData b s') =
          some { m with crc32 := Bl2.avbCrc32 m.mem (AVB_AB_DATA_SIZE - 4) }) ∧
      (∃ s', (Bl2.avbAbWriteData m).run s = (some .ok, s') ∧ OnlyBlock b s s' ∧
        UBoot.avbAbDataVerifyAndByteswap (Bl2.abData b s') =
          if m.crc32 = Bl2.storedCrc m then some m.hostOrder else none) ∧
      (∀ u u', (UBoot.avbAbDataWrite m).run u = (some .ok, u') →
        miscPart b (s.part USER_PARTITION) = u'.misc →
          Bl2.avbAbCheckData (UBoot.abData u') = .ok ∧
            ∃ s', Bl2.avbAbReadData.run s = (some (.ok, m.sealed), s')) ∧
      ∀ buf size, Bl2.avbCrc32 buf size = crc32 (buf.read 0 size) ∧
        UBoot.avbCrc32 buf size = crc32 (buf.read 0 size) := by
  have hvalid : m.sealed.Valid := AvbABData.valid_sealed hm hv
  refine ⟨?_, ?_, fun u u' hw hpart => ?_, fun buf size => ?_⟩
  · obtain ⟨s', hrun, hd⟩ := Bl2.run_avbAbUpdateAndSave h m
    refine ⟨s', hrun, onlyBlock_of_disk hd, ?_⟩
    rw [hd.abData_eq, UBoot.avbAbDataVerifyAndByteswap_eq, if_pos hvalid, hostOrder_sealed]
  · obtain ⟨s', hrun, hd⟩ := Bl2.run_avbAbWriteData h m
    refine ⟨s', hrun, onlyBlock_of_disk hd, ?_⟩
    rw [hd.abData_eq, UBoot.avbAbDataVerifyAndByteswap_eq]
    by_cases hc : m.crc32 = Bl2.storedCrc m
    · rw [if_pos hc, if_pos ⟨hm, hv, hc⟩]
    · rw [if_neg hc, if_neg fun h => hc h.crc]
  · have hdata := UBoot.abData_of_write hw
    have hsame : Bl2.abData b s = m.sealed := by
      rw [← hdata, UBoot.abData, ← hpart, dataAt_miscPart]
      rfl
    obtain ⟨s', hread, -⟩ := Bl2.run_avbAbReadData h
    rw [hsame, loaded_of_valid hvalid] at hread
    exact ⟨by rw [hdata]; exact (Bl2.avbAbCheckData_eq_ok _).mpr hvalid, s', hread⟩
  · exact ⟨Bl2.avbCrc32_eq _ _, by rw [UBoot.avbCrc32_eq, Bl2.avbCrc32_eq]⟩

/-- A new card, and metadata to be stored on it. -/
theorem codecs_agree_newCard :
    ∃ s', (Bl2.avbAbUpdateAndSave Bl2.avbAbDataInit).run
        (Bl2.card (blockOf ⟨15, 0, 1, 0⟩ ⟨14, 0, 1, 0⟩) (messageOf VIRTUAL_AB_NONE 0) fun _ => true) =
          (some (.ok, Bl2.avbAbDataInit.sealed), s') ∧
      UBoot.avbAbDataVerifyAndByteswap (Bl2.abData 34 s') = some { Bl2.avbAbDataInit with
        crc32 := Bl2.avbCrc32 Bl2.avbAbDataInit.mem (AVB_AB_DATA_SIZE - 4) } := by
  obtain ⟨⟨s', hrun, -, hdec⟩, -⟩ := codecs_agree (m := Bl2.avbAbDataInit) rfl (by decide)
    (Bl2.ready_card (blockOf ⟨15, 0, 1, 0⟩ ⟨14, 0, 1, 0⟩) (messageOf VIRTUAL_AB_NONE 0) fun _ => true)
  exact ⟨s', hrun, hdec⟩

/-- `avb_ab_write_data` alone stores the checksum that is in the structure: the initial metadata,
whose checksum is not computed yet, is stored and then rejected. -/
theorem unsealed_write_rejected :
    ∃ s', (Bl2.avbAbWriteData Bl2.avbAbDataInit).run
        (Bl2.card (blockOf ⟨15, 0, 1, 0⟩ ⟨14, 0, 1, 0⟩) (messageOf VIRTUAL_AB_NONE 0) fun _ => true) =
          (some .ok, s') ∧
      UBoot.avbAbDataVerifyAndByteswap (Bl2.abData 34 s') = none := by
  obtain ⟨s', hrun, hd⟩ := Bl2.run_avbAbWriteData (Bl2.ready_card
    (blockOf ⟨15, 0, 1, 0⟩ ⟨14, 0, 1, 0⟩) (messageOf VIRTUAL_AB_NONE 0) fun _ => true)
    Bl2.avbAbDataInit
  refine ⟨s', hrun, ?_⟩
  rw [hd.abData_eq]
  decide +kernel

end RCar
