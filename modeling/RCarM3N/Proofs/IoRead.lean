import RCarM3N.Proofs.IoInit

/-! The contract of a block read of the eMMC: which positions, lengths and outcomes of the sector
read meet it, whatever the card and the memory hold. -/

namespace RCar.Bl2

open Prog

variable {s t : IoState}

/-- The file is open on the partition that the card has selected. -/
def Selected (s : IoState) : Prop := s.card.sel = (s.file .emmcdrv).partition

theorem emmcdrvSelect_selected {p : ℕ}
    (h : (emmcdrvSelect p).run s = (some IO_SUCCESS, t)) : Selected t := by
  obtain ⟨ok, c, hrun, -, -, -, -, hsel⟩ := run_emmcSelectPartition_iff s.card p
  have hcard := run_onCard (s := { s with
    file := Function.update s.file .emmcdrv { s.file .emmcdrv with partition := p } }) hrun
  unfold emmcdrvSelect setFile at h
  rw [run_bind_get, run_bind_modify, run_bind_of_some hcard] at h
  cases ok
  · cases congrArg Prod.fst h
  · obtain rfl := congrArg Prod.snd h
    unfold Selected
    simpa using hsel rfl

/-- A successful open selects the partition of the file. -/
theorem emmcdrvBlockOpen_selected (h : emmcdrvBlockOpen.run s = (some IO_SUCCESS, t)) :
    Selected t := by
  unfold emmcdrvBlockOpen setFile at h
  rw [run_bind_get, run_ite] at h
  by_cases huse : (s.file .emmcdrv).inUse = true
  · rw [if_pos huse] at h
    cases congrArg Prod.fst h
  rw [if_neg huse, run_bind_modify, run_ite] at h
  by_cases huser : s.emmcdrvBootpartition = PARTITION_ID_USER
  · rw [if_pos huser, run_bind_modify, run_ite] at h
    by_cases hboot : s.card.bootPartitionEn = PARTITION_ID_BOOT_1 ∨
        s.card.bootPartitionEn = PARTITION_ID_BOOT_2
    · rw [if_pos hboot] at h
      exact emmcdrvSelect_selected h
    · rw [if_neg hboot] at h
      cases congrArg Prod.fst h
  · rw [if_neg huser] at h
    exact emmcdrvSelect_selected h

theorem ioSeek_selected (hs : Selected s) {offset : ℤ} {rc : ℤ}
    (h : (ioSeek .emmcdrv offset).run s = (some rc, t)) : Selected t := by
  rw [run_ioSeek] at h
  obtain rfl := congrArg Prod.snd h
  unfold Selected at hs ⊢
  simpa using hs

theorem emmcdrvBlockRead_selected (hs : Selected s) {buffer length : ℕ} {r : ℤ × Option ℕ}
    (h : (emmcdrvBlockRead buffer length).run s = (some r, t)) : Selected t := by
  obtain ⟨ok, data, n, hrun, -⟩ := run_readSectors s buffer length
  rw [run_emmcdrvBlockRead_of_read hrun] at h
  obtain rfl := congrArg Prod.snd h
  unfold Selected at hs ⊢
  simpa using hs

/-- A read that fails leaves the position and reports nothing; one that succeeds delivers the bytes
at the position, and no others. -/
def ReadContract (s : IoState) (buffer length : ℕ) (r : Option (ℤ × Option ℕ) × IoState) : Prop :=
  (∃ rc, rc ≠ IO_SUCCESS ∧ r.1 = some (rc, some 0) ∧
    (r.2.file .emmcdrv).filePos = (s.file .emmcdrv).filePos) ∨
  (r.1 = some (IO_SUCCESS, some length) ∧ ∃ pos : ℕ, (s.file .emmcdrv).filePos = pos ∧
    (r.2.file .emmcdrv).filePos = pos + length ∧
    r.2.mem = s.mem.copy buffer (s.card.part (s.file .emmcdrv).partition) pos length)

/-- The read asks for nothing, or it asks for whole sectors and these are read. -/
def ReadsSectors (s : IoState) (length : ℕ) : Prop :=
  length = 0 ∨ (∃ pos : ℕ, (s.file .emmcdrv).filePos = pos ∧ EMMC_SECTOR_SIZE ∣ pos ∧
    EMMC_SECTOR_SIZE ∣ length ∧ pos / EMMC_SECTOR_SIZE < 2 ^ 32 ∧ length / EMMC_SECTOR_SIZE < 2 ^ 32 ∧
    s.card.outcomes s.card.pos = .success)

/-- The same files and outcomes over another content of card and memory. -/
def IoState.withContent (s : IoState) (part : ℕ → Mem) (mem : Mem) : IoState :=
  { s with card := { s.card with part := part }, mem := mem }

theorem sectorNum_zero : sectorNum 0 = 0 := by decide

theorem sectorNum_sectors {n : ℕ} (hn : n < 2 ^ 32) : sectorNum (EMMC_SECTOR_SIZE * n) = n := by
  unfold sectorNum EMMC_SECTOR_SIZE
  omega

/-- Whole sectors that are read are delivered. -/
theorem readContract_of_sectors (hsel : Selected s) {length : ℕ} (h : ReadsSectors s length)
    (buffer : ℕ) : ReadContract s buffer length ((emmcdrvBlockRead buffer length).run s) := by
  obtain ⟨ok, data, n, hrun, hok, hdata⟩ := run_readSectors s buffer length
  rw [run_emmcdrvBlockRead_of_read hrun]
  rcases h with rfl | ⟨pos, hpos, ⟨p, rfl⟩, ⟨k, rfl⟩, hlt, hlenlt, hout⟩
  · have hfail : ok = false := by
      rw [← Bool.not_eq_true, hok]
      exact fun h => h.1 sectorNum_zero
    subst hfail
    refine .inl ⟨IO_FAIL, by decide, rfl, ?_⟩
    simp [toSigned]
  · have hk : k < 2 ^ 32 := by
      rwa [Nat.mul_div_cancel_left k (by decide)] at hlenlt
    have hp : p < 2 ^ 32 := by
      rwa [Nat.mul_div_cancel_left p (by decide)] at hlt
    rw [sectorNum_sectors hk] at hok hdata ⊢
    by_cases hzero : k = 0
    · subst hzero
      have hfail : ok = false := by
        rw [← Bool.not_eq_true, hok]
        exact fun h => h.1 rfl
      subst hfail
      refine .inl ⟨IO_FAIL, by decide, rfl, ?_⟩
      simp [toSigned]
    · obtain rfl : ok = true := hok.mpr ⟨hzero, hout⟩
      have hsector : ((s.file .emmcdrv).filePos / 512 % 2 ^ 32).toNat = p := by
        rw [hpos]
        unfold EMMC_SECTOR_SIZE
        omega
      have hsigned : toSigned (EMMC_SECTOR_SIZE * k) = ((EMMC_SECTOR_SIZE * k : ℕ) : ℤ) := by
        unfold toSigned EMMC_SECTOR_SIZE
        rw [if_pos (by omega)]
      refine .inr ⟨rfl, EMMC_SECTOR_SIZE * p, hpos, ?_, ?_⟩
      · simp only [Function.update_self]
        rw [hpos, hsigned]
      · dsimp only
        rw [← hsel]
        refine Mem.copy_congr _ _ fun i hi => ?_
        rw [Nat.zero_add, hdata rfl i hi, hsector]
        rfl

/-- A card of zeros with a one at the position, and a memory of twos, show what a read delivers. -/
def IoState.marked (s : IoState) : IoState :=
  s.withContent (fun _ i => if (i : ℤ) = (s.file .emmcdrv).filePos then 1 else 0) fun _ => 2

theorem marked_part_ne_two (s : IoState) (p i : ℕ) : s.marked.card.part p i ≠ 2 := by
  unfold IoState.marked IoState.withContent
  dsimp only
  split_ifs <;> decide

theorem readsSectors_of_contract {buffer length : ℕ} (h : ReadContract s.marked buffer length
    ((emmcdrvBlockRead buffer length).run s.marked)) : ReadsSectors s length := by
  by_cases hlength : length = 0
  · exact .inl hlength
  obtain ⟨rc, v, hrun, hrc, -, hout, hin⟩ := run_emmcdrvBlockRead s.marked buffer length
  rw [hrun] at h
  rcases h with ⟨rc', -, hzero, -⟩ | ⟨hres, pos, hpos, -, hmem⟩
  · have hzero' := congrArg Prod.snd (Option.some.inj hzero)
    exact absurd (Option.some.inj hzero') hlength
  have hsucc : rc = IO_SUCCESS := congrArg Prod.fst (Option.some.inj hres)
  obtain ⟨hnum, hdone⟩ := hrc.mp hsucc
  replace hin := hin hsucc
  have hlen : length = EMMC_SECTOR_SIZE * sectorNum length := by
    unfold EMMC_SECTOR_SIZE
    rcases Nat.lt_trichotomy length (512 * sectorNum length) with hlt | heq | hgt
    · -- the byte after the buffer has been overwritten
      have h1 := hin length hlt
      rw [hmem, Mem.copy_out _ _ _ _ _ _ (by omega)] at h1
      exact absurd h1.symm (marked_part_ne_two s _ _)
    · exact heq
    · -- a byte of the buffer has not been written
      have h1 := hout (buffer + 512 * sectorNum length) (by omega)
      rw [hmem, Mem.copy_add _ _ _ _ _ _ hgt] at h1
      exact absurd h1 (marked_part_ne_two s _ _)
  have hstart : ((512 * ((s.file .emmcdrv).filePos / 512 % 2 ^ 32).toNat : ℕ) : ℤ) = pos := by
    have h1 := hin 0 (by omega)
    rw [hmem, Mem.copy_add _ _ _ _ _ _ (by omega)] at h1
    change (if ((pos + 0 : ℕ) : ℤ) = (s.file .emmcdrv).filePos then (1 : UInt8) else 0) =
      if ((512 * ((s.file .emmcdrv).filePos / 512 % 2 ^ 32).toNat + 0 : ℕ) : ℤ) =
        (s.file .emmcdrv).filePos then 1 else 0 at h1
    change (s.file .emmcdrv).filePos = pos at hpos
    rw [if_pos (by rw [hpos]; rfl)] at h1
    split_ifs at h1 with hq
    · exact hq.trans hpos
    · cases h1
  have hq : ((s.file .emmcdrv).filePos / 512 % 2 ^ 32).toNat < 2 ^ 32 := by omega
  have hn : sectorNum length < 2 ^ 32 := Nat.mod_lt _ (by decide)
  refine .inr ⟨pos, hpos, ⟨((s.file .emmcdrv).filePos / 512 % 2 ^ 32).toNat, ?_⟩, ⟨_, hlen⟩, ?_, ?_,
    hdone⟩
  · unfold EMMC_SECTOR_SIZE
    omega
  · unfold EMMC_SECTOR_SIZE
    omega
  · rw [hlen, Nat.mul_div_cancel_left _ (by decide)]
    omega

/-- The reads of this device fail. -/
def failingIo : IoState :=
  { newIo fun _ => 0 with card := { (newIo fun _ => 0).card with outcomes := fun _ => .failure 0 } }

end RCar.Bl2
