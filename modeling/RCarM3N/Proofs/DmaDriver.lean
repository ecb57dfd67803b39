import RCarM3N.Model.DmaDriver
import RCarM3N.Proofs.LoadArea
import RCarM3N.Proofs.IoDrv

/-! What the DMA moves for a destination that the load area check accepts. -/

namespace RCar.Bl2

open Prog

/-- The transfer of a load: it starts at the image's address, has the image's length rounded up, and
stays in the image's DRAM window, clear of the protected regions. -/
structure StaysInArea (t : Transfer) (dst len : ℕ) : Prop where
  noCarry : t.dar + t.bytes ≤ 2 ^ 32
  starts : t.dst = dst
  rounded : t.bytes = (len + 255) / 256 * 256
  covers : area dst len ⊆ area t.dst t.bytes
  source : FLASH0_BASE ≤ t.sar ∧ t.sar + t.bytes ≤ FLASH0_BASE + FLASH_MEMORY_SIZE
  count : t.tcr ≤ DMATCR_MAX
  window : area t.dst t.bytes ⊆ Set.Ico (windowOf dst len).start (windowOf dst len).stop
  safe : LoadSafe t.dst t.bytes

def ReadStays (filePos : ℤ) (dst len : ℕ) : Prop :=
  ∀ t, memdrvRead filePos dst len = .success t → StaysInArea t dst len

/-! ## A transfer that the driver accepts -/

theorem not_rejects_iff {dst src len : ℕ} : ¬ DmaRejects dst src len ↔
    0 < roundedLength len ∧ roundedLength len ≤ DMA_LENGTH_LIMIT ∧ src % DMA_SIZE_UNIT = 0 ∧
      dst % 2 ^ 32 + roundedLength len ≤ DMADAR_BOUNDARY_ADDR ∧
      (dst + roundedLength len) % 2 ^ 64 ≤ DMA_DST_LIMIT ∧ dst % DMA_SIZE_UNIT = 0 := by
  unfold DmaRejects
  omega

theorem roundedLength_units (len : ℕ) : roundedLength len % DMA_SIZE_UNIT = 0 := by
  unfold roundedLength
  split
  · exact Nat.mul_mod_left _ _
  · rename_i h
    exact not_not.mp h

theorem roundedLength_eq {len : ℕ} (hlen : len < 2 ^ 32) (hpos : 0 < roundedLength len) :
    roundedLength len = (len + 255) / 256 * 256 := by
  unfold roundedLength DMA_SIZE_UNIT at *
  split_ifs at * <;> omega

theorem dmaStart_bytes {dst src len : ℕ} (h : len % DMA_SIZE_UNIT = 0) : (dmaStart dst src len).bytes = len := by
  unfold DMA_SIZE_UNIT at h
  simp only [dmaStart, Transfer.bytes, DMATCR_CNT_SHIFT]
  omega

theorem dmaStart_dst {dst src len : ℕ} (h : dst < 2 ^ 40) : (dmaStart dst src len).dst = dst := by
  simp only [dmaStart, Transfer.dst]
  omega

/-- A read of an open flash file runs the transfer that the registers describe. -/
theorem memdrvBlockRead_run (s : IoState) {buffer length : ℕ} (hbase : (s.file .memdrv).base = FLASH0_BASE)
    (hbuffer : buffer < 2 ^ 40) :
    match memdrvRead (s.file .memdrv).filePos buffer length with
    | .fail => (memdrvBlockRead buffer length).run s = (some (IO_FAIL, none), s)
    | .panics => (memdrvBlockRead buffer length).run s = (none, s)
    | .success t => ∃ s', (memdrvBlockRead buffer length).run s = (some (IO_SUCCESS, some length), s') ∧
        s'.mem = s.mem.copy t.dst s.mem t.sar t.bytes := by
  unfold memdrvBlockRead memdrvRead
  simp only [run_bind_get, hbase]
  by_cases hsize : FLASH_MEMORY_SIZE < (s.file .memdrv).filePos + toSigned length
  · rw [if_pos hsize, if_pos hsize]
    rfl
  rw [if_neg hsize, if_neg hsize]
  generalize (((FLASH0_BASE : ℤ) + (s.file .memdrv).filePos) % 2 ^ 32).toNat = src
  generalize length % 2 ^ 32 = len
  have hexec : (rcarDmaExec buffer src len).run s =
      if DmaRejects buffer src len then (none, s)
      else (some (), { s with mem := s.mem.copy buffer s.mem src (roundedLength len) }) := by
    unfold rcarDmaExec DmaRejects roundedLength
    simp only [run_ite]
    split_ifs <;> first | rfl | omega
  by_cases hrejects : DmaRejects buffer src len
  · rw [if_pos hrejects] at hexec ⊢
    exact run_bind_of_none hexec _
  · rw [if_neg hrejects] at hexec ⊢
    simp only [dmaStart_bytes (roundedLength_units len), dmaStart_dst hbuffer]
    exact ⟨_, run_bind_of_some hexec _, rfl⟩

/-! ## Staying in the area -/

/-- An image short enough for the DMA is accepted for the right reason, and rounding it up to the
unit does not reach a bound of its window. -/
theorem within_rounded {dst len bytes : ℕ} (haligned : dst % 256 = 0) (hbytes : bytes = (len + 255) / 256 * 256)
    (hlimit : bytes ≤ DMA_LENGTH_LIMIT)
    (haccepted : Within (windowOf dst len) dst len ∨ Evades (windowOf dst len) dst len) :
    windowOf dst bytes = windowOf dst len ∧ Within (windowOf dst len) dst bytes := by
  unfold DMA_LENGTH_LIMIT at hlimit
  have hwithin : Within (windowOf dst len) dst len := by
    rcases haccepted with h | ⟨-, -, h⟩
    · exact h
    · rcases windowOf_eq dst len with ⟨hw, -⟩ | ⟨hw, -⟩
      · rw [hw] at h
        simp only [legacyWindow] at h
        omega
      · rw [hw] at h
        simp only [window40] at h
        omega
  obtain ⟨h1, h2, h3⟩ := hwithin
  rcases windowOf_eq dst len with ⟨hw, hsum⟩ | ⟨hw, hsum⟩
  · rw [hw] at h1 h2 h3 ⊢
    simp only [legacyWindow] at h1 h2 h3
    exact ⟨if_pos (by omega), by simp only [legacyWindow]; omega, by simp only [legacyWindow]; omega,
      by simp only [legacyWindow]; omega⟩
  · rw [hw] at h1 h2 h3 ⊢
    simp only [window40] at h1 h2 h3
    exact ⟨if_neg (by omega), by simp only [window40]; omega, by simp only [window40]; omega,
      by simp only [window40]; omega⟩

/-- The source range of the rounded length, in 32-bit addresses. -/
def SourceInFlash (filePos : ℤ) (len : ℕ) : Prop :=
  FLASH0_BASE ≤ ((FLASH0_BASE + filePos) % 2 ^ 32).toNat ∧
    ((FLASH0_BASE + filePos) % 2 ^ 32).toNat + (len + 255) / 256 * 256 ≤ FLASH0_BASE + FLASH_MEMORY_SIZE

/-- The read or the DMA refuses the request, or its length is a 32-bit word and its position not
below the flash. -/
def LoadFits (filePos : ℤ) (dst len : ℕ) : Prop :=
  FLASH_MEMORY_SIZE < filePos + toSigned len ∨
    DmaRejects dst ((FLASH0_BASE + filePos) % 2 ^ 32).toNat (len % 2 ^ 32) ∨
    len < 2 ^ 32 ∧ (0 ≤ filePos ∨ SourceInFlash filePos len)

theorem staysInArea {filePos : ℤ} {dst len : ℕ} (hlen : len < 2 ^ 32)
    (haccepted : Within (windowOf dst len) dst len ∨ Evades (windowOf dst len) dst len)
    (hsource : SourceInFlash filePos len)
    (hdma : ¬ DmaRejects dst ((FLASH0_BASE + filePos) % 2 ^ 32).toNat len) :
    StaysInArea (dmaStart dst ((FLASH0_BASE + filePos) % 2 ^ 32).toNat (roundedLength len)) dst len := by
  obtain ⟨hpos, hlimit, -, hcarry, -, haligned⟩ := not_rejects_iff.mp hdma
  have hrounded := roundedLength_eq hlen hpos
  have hbytes : (dmaStart dst ((FLASH0_BASE + filePos) % 2 ^ 32).toNat (roundedLength len)).bytes = roundedLength len :=
    dmaStart_bytes (roundedLength_units len)
  obtain ⟨hwindow, hwithin⟩ := within_rounded haligned hrounded hlimit haccepted
  have hstop : (windowOf dst len).stop < 2 ^ 40 := by
    rcases windowOf_eq dst len with ⟨hw, -⟩ | ⟨hw, -⟩ <;> rw [hw] <;> decide
  have hdst : (dmaStart dst ((FLASH0_BASE + filePos) % 2 ^ 32).toNat (roundedLength len)).dst = dst := dmaStart_dst
    (lt_of_le_of_lt (Nat.le_of_add_right_le hwithin.stop) hstop)
  refine ⟨?_, hdst, by rw [hbytes, hrounded], ?_, ?_, ?_, ?_, ?_⟩
  · rw [hbytes]
    exact hcarry
  · rw [hdst, hbytes]
    exact Set.Ico_subset_Ico_right (by omega)
  · rw [hbytes, hrounded]
    exact hsource
  · simp only [dmaStart, DMATCR_CNT_SHIFT, DMATCR_MAX]
    unfold DMA_LENGTH_LIMIT at hlimit
    omega
  · rw [hdst, hbytes]
    exact area_subset hwithin.start hwithin.stop
  · rw [hdst, hbytes]
    rw [← hwindow] at hwithin
    exact hwithin.safe

end RCar.Bl2
