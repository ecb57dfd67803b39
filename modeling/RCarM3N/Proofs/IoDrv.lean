import RCarM3N.Model.IoDrv

/-! What the calls into the backends do, each as one lemma: when they succeed, and what they
leave alone. -/

namespace RCar.Bl2

open Prog

variable {s : IoState} {c : State} {dev : Dev} {p : ℕ}

/-! ## The card -/

/-- A selection succeeds. -/
def Selects (c : State) (p : ℕ) : Prop := c.sel = p ∨ c.outcomes c.pos = .success

/-- The position in the outcomes after a selection. -/
def selectPos (c : State) (p : ℕ) : ℕ := if c.sel = p then c.pos else c.pos + 1

theorem run_emmcSelectPartition_iff (c : State) (p : ℕ) :
    ∃ ok c', (emmcSelectPartition p).run c = (some ok, c') ∧ (ok = true ↔ Selects c p) ∧
      SameStore c c' ∧ c'.bootPartitionEn = c.bootPartitionEn ∧ c'.pos = selectPos c p ∧
      (ok = true → c'.sel = p) := by
  unfold emmcSelectPartition Selects selectPos
  rw [run_bind_get, run_ite]
  by_cases hsel : c.sel = p
  · rw [if_pos hsel, if_pos hsel]
    exact ⟨true, c, rfl, by simp [hsel], SameStore.refl c, rfl, rfl, fun _ => hsel⟩
  · rw [if_neg hsel, if_neg hsel, run_bind_of_some (run_command c)]
    rcases ho : c.outcomes c.pos with _ | moved
    · exact ⟨true, _, rfl, by simp, ⟨rfl, rfl, rfl, rfl⟩, rfl, rfl, fun _ => rfl⟩
    · exact ⟨false, _, rfl, by simp [hsel], ⟨rfl, rfl, rfl, rfl⟩, rfl, rfl, by simp⟩

theorem run_emmcReadSector_iff (c : State) (buf : Mem) (blk : ℕ) {count : ℕ} (hc : count ≠ 0) :
    ∃ ok data, (emmcReadSector buf blk count).run c = (some (ok, data), { c with pos := c.pos + 1 }) ∧
      (ok = true ↔ c.outcomes c.pos = .success) ∧
      (ok = true → ∀ i < 512 * count, data i = c.part c.sel (512 * blk + i)) := by
  unfold emmcReadSector
  rw [if_neg hc, run_bind_get, run_bind_of_some (run_command c)]
  rcases ho : c.outcomes c.pos with _ | moved
  · refine ⟨true, _, rfl, by simp, fun _ i hi => ?_⟩
    rw [Mem.copy_in _ _ _ _ _ _ (by omega) (by omega), Nat.sub_zero]
  · exact ⟨false, _, rfl, by simp, by simp⟩

theorem run_onCard {α : Type} {x : Prog State α} {a : α} {c' : State}
    (h : x.run s.card = (some a, c')) : (onCard x).run s = (some a, { s with card := c' }) := by
  change ((x.run s.card).1, { s with card := (x.run s.card).2 }) = _
  rw [h]

/-! ## Opening -/

/-- The partition that an open of the eMMC selects. -/
def openTarget (s : IoState) : ℕ :=
  if s.emmcdrvBootpartition = PARTITION_ID_USER then s.card.bootPartitionEn
  else if s.specPartition .emmcdrv = PARTITION_ID_USER ∨
      s.specPartition .emmcdrv = PARTITION_ID_BOOT_1 ∨
      s.specPartition .emmcdrv = PARTITION_ID_BOOT_2 then s.specPartition .emmcdrv
  else s.emmcdrvBootpartition

/-- What can make the open of a free backend fail: no boot partition, or a failed selection. -/
def MediaOpens (s : IoState) : Dev → Prop
  | .memdrv => True
  | .emmcdrv => (s.emmcdrvBootpartition ≠ PARTITION_ID_USER ∨
      s.card.bootPartitionEn = PARTITION_ID_BOOT_1 ∨ s.card.bootPartitionEn = PARTITION_ID_BOOT_2) ∧
      Selects s.card (openTarget s)

/-- What the calls into a backend leave alone. -/
structure Frame (dev : Dev) (s s' : IoState) : Prop where
  rcar : s'.rcar = s.rcar
  headerAddr : s'.headerAddr = s.headerAddr
  specPartition : s'.specPartition = s.specPartition
  other : ∀ d ≠ dev, s'.file d = s.file d
  store : SameStore s.card s'.card

theorem Frame.refl (dev : Dev) (s : IoState) : Frame dev s s :=
  ⟨rfl, rfl, rfl, fun _ _ => rfl, SameStore.refl _⟩

theorem Frame.trans {s' s'' : IoState} (h : Frame dev s s') (h' : Frame dev s' s'') :
    Frame dev s s'' :=
  ⟨h'.rcar.trans h.rcar, h'.headerAddr.trans h.headerAddr,
    h'.specPartition.trans h.specPartition, fun d hd => (h'.other d hd).trans (h.other d hd),
    h.store.trans h'.store⟩

theorem frame_update (dev : Dev) (s : IoState) (f : FileState) (c : State)
    (hc : SameStore s.card c) (mem : Mem) (n boot : ℕ) :
    Frame dev s { s with
      card := c
      mem := mem
      entityCount := n
      file := Function.update s.file dev f
      emmcdrvBootpartition := boot } :=
  ⟨rfl, rfl, rfl, fun _ hd => Function.update_of_ne hd _ _, hc⟩

/-- An open of a backend whose slot was free, whatever its result. -/
structure Opened (dev : Dev) (s s' : IoState) : Prop extends Frame dev s s' where
  mem : s'.mem = s.mem
  inUse : (s'.file dev).inUse = true

/-- A successful one. -/
structure OpenedOk (dev : Dev) (s s' : IoState) : Prop extends Opened dev s s' where
  base : dev = .memdrv → (s'.file dev).base = FLASH0_BASE
  sel : dev = .emmcdrv → s'.card.sel = openTarget s
  pos : dev = .emmcdrv → s'.card.pos = selectPos s.card (openTarget s)

theorem run_emmcdrvSelect (s : IoState) (p : ℕ) :
    ∃ rc s', (emmcdrvSelect p).run s = (some rc, s') ∧ (rc = IO_SUCCESS ↔ Selects s.card p) ∧
      Frame .emmcdrv s s' ∧ s'.mem = s.mem ∧ s'.entityCount = s.entityCount ∧
      (s'.file .emmcdrv).inUse = (s.file .emmcdrv).inUse ∧
      s'.card.pos = selectPos s.card p ∧ (rc = IO_SUCCESS → s'.card.sel = p) := by
  obtain ⟨ok, c, hrun, hok, hstore, -, hpos, hsel⟩ := run_emmcSelectPartition_iff s.card p
  have hcard := run_onCard (s := { s with
    file := Function.update s.file .emmcdrv { s.file .emmcdrv with partition := p } }) hrun
  have hframe := frame_update .emmcdrv s { s.file .emmcdrv with partition := p } c hstore s.mem
    s.entityCount s.emmcdrvBootpartition
  have huse : (Function.update s.file .emmcdrv { s.file .emmcdrv with partition := p }
      .emmcdrv).inUse = (s.file .emmcdrv).inUse := by rw [Function.update_self]
  unfold emmcdrvSelect setFile
  rw [run_bind_get, run_bind_modify, run_bind_of_some hcard]
  cases ok
  · exact ⟨IO_FAIL, _, rfl, by simp [← hok, IO_FAIL, IO_SUCCESS], hframe, rfl, rfl, huse, hpos,
      by simp [IO_FAIL, IO_SUCCESS]⟩
  · exact ⟨IO_SUCCESS, _, rfl, by simp [← hok], hframe, rfl, rfl, huse, hpos, fun _ => hsel rfl⟩

theorem run_emmcdrvBlockOpen (h : (s.file .emmcdrv).inUse = false) :
    ∃ rc s', emmcdrvBlockOpen.run s = (some rc, s') ∧ (rc = IO_SUCCESS ↔ MediaOpens s .emmcdrv) ∧
      s'.entityCount = s.entityCount ∧ Opened .emmcdrv s s' ∧
      (rc = IO_SUCCESS → OpenedOk .emmcdrv s s') := by
  -- from the label `done` on
  have hselect : ∀ boot, ∃ rc s', (emmcdrvSelect (openTarget s)).run { s with
          emmcdrvBootpartition := boot
          file := Function.update s.file .emmcdrv
            { s.file .emmcdrv with filePos := 0, inUse := true } } = (some rc, s') ∧
        (rc = IO_SUCCESS ↔ Selects s.card (openTarget s)) ∧ s'.entityCount = s.entityCount ∧
        Opened .emmcdrv s s' ∧ (rc = IO_SUCCESS → OpenedOk .emmcdrv s s') := by
    intro boot
    obtain ⟨rc, s', hrun, hiff, hframe, hmem, hcount, huse, hpos, hsel⟩ := run_emmcdrvSelect { s with
      emmcdrvBootpartition := boot
      file := Function.update s.file .emmcdrv
        { s.file .emmcdrv with filePos := 0, inUse := true } } (openTarget s)
    have hflag : (Function.update s.file .emmcdrv { s.file .emmcdrv with filePos := 0, inUse := true }
        .emmcdrv).inUse = true := by rw [Function.update_self]
    have hopened : Opened .emmcdrv s s' :=
      ⟨(frame_update .emmcdrv s _ s.card (SameStore.refl _) s.mem s.entityCount boot).trans hframe,
        hmem, huse.trans hflag⟩
    refine ⟨rc, s', hrun, hiff, hcount, hopened,
      fun hok => ⟨hopened, ?_, fun _ => hsel hok, fun _ => hpos⟩⟩
    intro hdev
    cases hdev
  unfold emmcdrvBlockOpen setFile
  rw [run_bind_get]
  simp only [h, Bool.false_eq_true, if_false]
  rw [run_bind_modify, run_ite]
  by_cases huser : s.emmcdrvBootpartition = PARTITION_ID_USER
  · rw [if_pos huser, run_bind_modify, run_ite]
    by_cases hboot : s.card.bootPartitionEn = PARTITION_ID_BOOT_1 ∨
        s.card.bootPartitionEn = PARTITION_ID_BOOT_2
    · rw [if_pos hboot]
      have htarget : openTarget s = s.card.bootPartitionEn := by rw [openTarget, if_pos huser]
      obtain ⟨rc, s', hrun, hiff, hrest⟩ := hselect s.card.bootPartitionEn
      rw [htarget] at hrun
      refine ⟨rc, s', hrun, hiff.trans ?_, hrest⟩
      exact ⟨fun hsel => ⟨.inr hboot, hsel⟩, And.right⟩
    · rw [if_neg hboot]
      refine ⟨IO_FAIL, _, rfl, ?_, rfl, ⟨frame_update .emmcdrv s _ _ (SameStore.refl _) _ _ _, rfl, ?_⟩, ?_⟩
      · refine ⟨fun hfail => absurd hfail (by decide), fun hmedia => ?_⟩
        exact (hmedia.1.elim (absurd huser) hboot).elim
      · simp only [Function.update_self]
      · exact fun hfail => absurd hfail (by decide)
  · rw [if_neg huser]
    have htarget : openTarget s = _ := if_neg huser
    obtain ⟨rc, s', hrun, hiff, hrest⟩ := hselect s.emmcdrvBootpartition
    rw [htarget] at hrun
    refine ⟨rc, s', hrun, hiff.trans ?_, hrest⟩
    exact ⟨fun hsel => ⟨.inl huser, hsel⟩, And.right⟩

theorem run_memdrvBlockOpen (h : (s.file .memdrv).inUse = false) :
    memdrvBlockOpen.run s = (some IO_SUCCESS, { s with
      file := Function.update s.file .memdrv
        { s.file .memdrv with base := FLASH0_BASE, filePos := 0, inUse := true } }) := by
  unfold memdrvBlockOpen setFile
  rw [run_bind_get]
  simp only [h, Bool.false_eq_true, if_false]
  rfl

theorem openedOk_memdrv (s : IoState) : OpenedOk .memdrv s { s with
    file := Function.update s.file .memdrv
      { s.file .memdrv with base := FLASH0_BASE, filePos := 0, inUse := true } } := by
  refine ⟨⟨frame_update .memdrv s _ _ (SameStore.refl _) _ _ _, rfl, ?_⟩, ?_, ?_, ?_⟩
  all_goals simp

theorem run_blockOpen (h : (s.file dev).inUse = false) :
    ∃ rc s', (blockOpen dev).run s = (some rc, s') ∧ (rc = IO_SUCCESS ↔ MediaOpens s dev) ∧
      s'.entityCount = s.entityCount ∧ Opened dev s s' ∧ (rc = IO_SUCCESS → OpenedOk dev s s') := by
  cases dev with
  | memdrv =>
    have hopened := openedOk_memdrv s
    exact ⟨IO_SUCCESS, _, run_memdrvBlockOpen h, by simp [MediaOpens], rfl, hopened.toOpened,
      fun _ => hopened⟩
  | emmcdrv => exact run_emmcdrvBlockOpen h

theorem run_blockOpen_inUse (h : (s.file dev).inUse = true) :
    (blockOpen dev).run s = (some IO_RESOURCES_EXHAUSTED, s) := by
  cases dev with
  | memdrv =>
    rw [blockOpen, memdrvBlockOpen, run_bind_get, if_pos h]
    rfl
  | emmcdrv =>
    rw [blockOpen, emmcdrvBlockOpen, run_bind_get]
    simp only [h, if_true]
    rfl

/-- The pool has an entity and the slot of the device is free. -/
structure Openable (dev : Dev) (s : IoState) : Prop where
  entity : s.entityCount < MAX_IO_HANDLES
  slot : (s.file dev).inUse = false

theorem run_ioOpen (h : Openable dev s) :
    ∃ rc s', (ioOpen dev).run s = (some rc, s') ∧ (rc = IO_SUCCESS ↔ MediaOpens s dev) ∧
      Opened dev s s' ∧
      (rc = IO_SUCCESS → OpenedOk dev s s' ∧ s'.entityCount = s.entityCount + 1) ∧
      (rc ≠ IO_SUCCESS → s'.entityCount = s.entityCount) := by
  obtain ⟨rc, t, hrun, hiff, hcount, hopened, hok⟩ :=
    run_blockOpen (s := { s with entityCount := s.entityCount + 1 }) h.slot
  have hmedia : rc = IO_SUCCESS ↔ MediaOpens s dev := by
    rw [hiff]
    cases dev <;> rfl
  have hopened' : Opened dev s t := ⟨⟨hopened.rcar, hopened.headerAddr, hopened.specPartition,
    hopened.other, hopened.store⟩, hopened.mem, hopened.inUse⟩
  unfold ioOpen
  rw [run_bind_get, if_pos h.entity, run_bind_modify, run_bind_of_some hrun]
  by_cases hrc : rc = IO_SUCCESS
  · subst hrc
    have ht := hok rfl
    exact ⟨IO_SUCCESS, t, rfl, hmedia, hopened', fun _ => ⟨⟨hopened', ht.base, ht.sel, ht.pos⟩, hcount⟩,
      fun h => absurd rfl h⟩
  · rw [run_ite, if_pos (show rc ≠ 0 from hrc)]
    refine ⟨rc, { t with entityCount := t.entityCount - 1 }, rfl, hmedia, ?_, fun h => absurd h hrc,
      fun _ => ?_⟩
    · exact ⟨⟨hopened'.rcar, hopened'.headerAddr, hopened'.specPartition, hopened'.other,
        hopened'.store⟩, hopened'.mem, hopened'.inUse⟩
    · simp only [hcount]
      exact Nat.add_sub_cancel _ _

/-- An open that is refused changes nothing. -/
theorem run_ioOpen_refused (h : ¬ Openable dev s) :
    ∃ rc, (ioOpen dev).run s = (some rc, s) ∧ rc ≠ IO_SUCCESS := by
  unfold ioOpen
  rw [run_bind_get]
  by_cases hentity : s.entityCount < MAX_IO_HANDLES
  · have hslot : (s.file dev).inUse = true := by
      by_contra hfree
      exact h ⟨hentity, by simpa using hfree⟩
    have hrun := run_blockOpen_inUse (s := { s with entityCount := s.entityCount + 1 }) hslot
    rw [if_pos hentity, run_bind_modify, run_bind_of_some hrun]
    exact ⟨IO_RESOURCES_EXHAUSTED, rfl, by decide⟩
  · rw [if_neg hentity]
    exact ⟨-ENOMEM, rfl, by decide⟩

/-! ## Seeking, reading and closing -/

theorem run_ioSeek (dev : Dev) (s : IoState) (offset : ℤ) :
    (ioSeek dev offset).run s = (some IO_SUCCESS, { s with
      file := Function.update s.file dev { s.file dev with filePos := offset } }) := rfl

theorem run_ioClose (dev : Dev) (s : IoState) :
    (ioClose dev).run s = (some IO_SUCCESS, { s with
      file := Function.update s.file dev FileState.zero
      entityCount := s.entityCount - 1 }) := rfl

/-- What a read leaves alone. -/
structure ReadFrame (dev : Dev) (s s' : IoState) : Prop extends Frame dev s s' where
  entityCount : s'.entityCount = s.entityCount
  inUse : (s'.file dev).inUse = (s.file dev).inUse
  base : (s'.file dev).base = (s.file dev).base
  sel : s'.card.sel = s.card.sel

theorem ReadFrame.refl (dev : Dev) (s : IoState) : ReadFrame dev s s :=
  ⟨Frame.refl dev s, rfl, rfl, rfl, rfl⟩

theorem readFrame_update (dev : Dev) (s : IoState) (pos : ℤ) (n : ℕ) (mem : Mem) :
    ReadFrame dev s { s with
      card := { s.card with pos := n }
      mem := mem
      file := Function.update s.file dev { s.file dev with filePos := pos } } :=
  ⟨frame_update dev s _ { s.card with pos := n } ⟨rfl, rfl, rfl, rfl⟩ mem s.entityCount
      s.emmcdrvBootpartition, rfl,
    by simp only [Function.update_self], by simp only [Function.update_self], rfl⟩

/-- The sectors that a read of the eMMC moves. -/
def sectorNum (length : ℕ) : ℕ :=
  (length + EMMC_SECTOR_SIZE - 1) % 2 ^ 64 / EMMC_SECTOR_SIZE % 2 ^ 32

/-- The sector read of a block read. -/
theorem run_readSectors (s : IoState) (buffer length : ℕ) :
    ∃ ok data n, (onCard (emmcReadSector (fun i => s.mem (buffer + i))
        ((s.file .emmcdrv).filePos / EMMC_SECTOR_SIZE % 2 ^ 32).toNat (sectorNum length))).run s =
          (some (ok, data), { s with card := { s.card with pos := n } }) ∧
      (ok = true ↔ sectorNum length ≠ 0 ∧ s.card.outcomes s.card.pos = .success) ∧
      (ok = true → ∀ i < 512 * sectorNum length, data i = s.card.part s.card.sel
        (512 * ((s.file .emmcdrv).filePos / 512 % 2 ^ 32).toNat + i)) := by
  by_cases hzero : sectorNum length = 0
  · refine ⟨false, fun i => s.mem (buffer + i), s.card.pos, ?_, ?_, by simp⟩
    · rw [hzero]
      rfl
    · simp [hzero]
  · obtain ⟨ok, data, hrun, hok, hdata⟩ := run_emmcReadSector_iff s.card
      (fun i => s.mem (buffer + i)) ((s.file .emmcdrv).filePos / EMMC_SECTOR_SIZE % 2 ^ 32).toNat hzero
    refine ⟨ok, data, s.card.pos + 1, run_onCard hrun, ?_, hdata⟩
    simp [hok, hzero]

/-- A block read, once its sectors are read. -/
theorem run_emmcdrvBlockRead_of_read {buffer length n : ℕ} {ok : Bool} {data : Mem}
    (hcard : (onCard (emmcReadSector (fun i => s.mem (buffer + i))
      ((s.file .emmcdrv).filePos / EMMC_SECTOR_SIZE % 2 ^ 32).toNat (sectorNum length))).run s =
        (some (ok, data), { s with card := { s.card with pos := n } })) :
    (emmcdrvBlockRead buffer length).run s =
      (some (if ok then IO_SUCCESS else IO_FAIL, some length), { s with
        card := { s.card with pos := n }
        mem := s.mem.copy buffer data 0 (512 * sectorNum length)
        file := Function.update s.file .emmcdrv { s.file .emmcdrv with
          filePos := (s.file .emmcdrv).filePos + toSigned length } }) := by
  unfold emmcdrvBlockRead setFile
  rw [run_bind_get]
  exact run_bind_of_some hcard _

theorem run_emmcdrvBlockRead (s : IoState) (buffer length : ℕ) :
    ∃ rc s', (emmcdrvBlockRead buffer length).run s = (some (rc, some length), s') ∧
      (rc = IO_SUCCESS ↔ sectorNum length ≠ 0 ∧ s.card.outcomes s.card.pos = .success) ∧
      ReadFrame .emmcdrv s s' ∧
      (∀ a, a < buffer ∨ buffer + 512 * sectorNum length ≤ a → s'.mem a = s.mem a) ∧
      (rc = IO_SUCCESS → ∀ i < 512 * sectorNum length, s'.mem (buffer + i) =
        s.card.part s.card.sel (512 * ((s.file .emmcdrv).filePos / 512 % 2 ^ 32).toNat + i)) := by
  obtain ⟨ok, data, n, hrun, hok, hdata⟩ := run_readSectors s buffer length
  have hrc : (if ok then IO_SUCCESS else IO_FAIL) = IO_SUCCESS ↔ ok = true := by
    cases ok <;> simp [IO_SUCCESS, IO_FAIL]
  refine ⟨_, _, run_emmcdrvBlockRead_of_read hrun, hrc.trans hok, readFrame_update _ _ _ _ _,
    fun a ha => Mem.copy_out s.mem _ _ _ _ _ ha, fun hsucc i hi => ?_⟩
  dsimp only
  rw [Mem.copy_add _ _ _ _ _ _ hi, Nat.zero_add]
  exact hdata (hrc.mp hsucc) i hi

/-- Arguments that the DMA takes, for a whole number of its units. -/
structure DmaTakes (dst src len : ℕ) : Prop where
  pos : 0 < len
  limit : len ≤ DMA_LENGTH_LIMIT
  units : len % DMA_SIZE_UNIT = 0
  srcAligned : src % DMA_SIZE_UNIT = 0
  dstAligned : dst % DMA_SIZE_UNIT = 0
  bound : dst + len ≤ DMADAR_BOUNDARY_ADDR

theorem run_rcarDmaExec {dst src len : ℕ} (h : DmaTakes dst src len) (s : IoState) :
    (rcarDmaExec dst src len).run s = (some (), { s with mem := s.mem.copy dst s.mem src len }) := by
  obtain ⟨hpos, hlimit, hunits, hsrc, hdst, hbound⟩ := h
  unfold DMADAR_BOUNDARY_ADDR at hbound
  have hpart : ¬ (dst % 2 ^ 32 + len > DMADAR_BOUNDARY_ADDR ∨ (dst + len) % 2 ^ 64 > DMA_DST_LIMIT ∨
      dst % DMA_SIZE_UNIT ≠ 0) := by
    unfold DMADAR_BOUNDARY_ADDR DMA_DST_LIMIT
    omega
  unfold rcarDmaExec
  rw [if_neg (not_not.mpr hunits)]
  simp only
  rw [if_neg (by omega), if_neg (not_not.mpr hsrc), if_neg hpart]
  rfl

/-- The length that the DMA moves, a multiple of its unit. -/
def dmaLength (len : ℕ) : ℕ :=
  if len % DMA_SIZE_UNIT ≠ 0 then (len + DMA_SIZE_UNIT) % 2 ^ 32 / DMA_SIZE_UNIT * DMA_SIZE_UNIT
  else len

theorem rcarDmaExec_cases (dst src len : ℕ) (s : IoState) :
    (rcarDmaExec dst src len).run s = (none, s) ∨ (rcarDmaExec dst src len).run s =
      (some (), { s with mem := s.mem.copy dst s.mem src (dmaLength len) }) := by
  unfold rcarDmaExec dmaLength
  simp only [run_ite]
  split_ifs <;> first | exact .inl rfl | exact .inr rfl

/-- A read of the flash is refused, stops in the DMA, or succeeds. -/
theorem memdrvBlockRead_cases (s : IoState) (buffer length : ℕ) :
    (memdrvBlockRead buffer length).run s = (some (IO_FAIL, none), s) ∧
        FLASH_MEMORY_SIZE < (s.file .memdrv).filePos + toSigned length ∨
      (memdrvBlockRead buffer length).run s = (none, s) ∨
      ∃ s', (memdrvBlockRead buffer length).run s = (some (IO_SUCCESS, some length), s') ∧
        ¬ FLASH_MEMORY_SIZE < (s.file .memdrv).filePos + toSigned length ∧
        ReadFrame .memdrv s s' ∧ s'.mem = s.mem.copy buffer s.mem
          (((s.file .memdrv).base + (s.file .memdrv).filePos) % 2 ^ 32).toNat
          (dmaLength (length % 2 ^ 32)) := by
  unfold memdrvBlockRead setFile
  rw [run_bind_get]
  by_cases hsize : FLASH_MEMORY_SIZE < (s.file .memdrv).filePos + toSigned length
  · exact .inl ⟨by rw [if_pos hsize]; rfl, hsize⟩
  · rw [if_neg hsize]
    rcases rcarDmaExec_cases buffer (((s.file .memdrv).base + (s.file .memdrv).filePos) % 2 ^ 32).toNat
      (length % 2 ^ 32) s with hnone | hrun
    · exact .inr (.inl (run_bind_of_none hnone _))
    · refine .inr (.inr ⟨_, run_bind_of_some hrun _, hsize, ?_, rfl⟩)
      exact readFrame_update .memdrv s _ s.card.pos _

/-- A read of the flash within its size, by arguments that the DMA takes. -/
theorem run_memdrvBlockRead {buffer length off : ℕ} (hbase : (s.file .memdrv).base = FLASH0_BASE)
    (hpos : (s.file .memdrv).filePos = off) (hsize : off + length ≤ FLASH_MEMORY_SIZE)
    (hdma : DmaTakes buffer (FLASH0_BASE + off) length) :
    ∃ s', (memdrvBlockRead buffer length).run s = (some (IO_SUCCESS, some length), s') ∧
      ReadFrame .memdrv s s' ∧
      s'.mem = s.mem.copy buffer s.mem (FLASH0_BASE + off) length := by
  unfold FLASH_MEMORY_SIZE at hsize
  have hsigned : toSigned length = length := if_pos (by omega)
  have hin : ¬ (FLASH_MEMORY_SIZE : ℤ) < (s.file .memdrv).filePos + toSigned length := by
    rw [hpos, hsigned]
    unfold FLASH_MEMORY_SIZE
    omega
  have hsrc : (((s.file .memdrv).base + (s.file .memdrv).filePos) % 2 ^ 32).toNat = FLASH0_BASE + off := by
    rw [hbase, hpos]
    unfold FLASH0_BASE
    omega
  have hlen : length % 2 ^ 32 = length := Nat.mod_eq_of_lt (by omega)
  unfold memdrvBlockRead setFile
  rw [run_bind_get]
  simp only [if_neg hin, hsrc, hlen]
  rw [run_bind_of_some (run_rcarDmaExec hdma s)]
  exact ⟨_, rfl, readFrame_update .memdrv s _ s.card.pos _, rfl⟩

end RCar.Bl2
