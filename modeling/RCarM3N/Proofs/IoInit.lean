import RCarM3N.Model.IoRcar
import RCarM3N.Proofs.IoDrv

/-! The initialisation of the image tables: what it loads from which boot header, and for
which headers it is all or nothing. -/

namespace RCar.Bl2

open Prog

variable {s t : IoState} {dev : Dev} {build : BuildOptions}

/-! ## The medium -/

/-- What an open backend reads from: the flash, or the partition that is selected. -/
def openMedium (t : IoState) : Dev → Mem
  | .memdrv => fun a => t.mem (FLASH0_BASE + a)
  | .emmcdrv => t.card.part t.card.sel

/-- What a backend will read from once it is open. -/
def medium (s : IoState) : Dev → Mem
  | .memdrv => fun a => s.mem (FLASH0_BASE + a)
  | .emmcdrv => s.card.part (openTarget s)

def headerOffset (build : BuildOptions) (dev : Dev) : ℕ :=
  if dev = .emmcdrv then build.RCAR_EMMC_CERT_HEADER else RCAR_FLASH_CERT_HEADER

/-- The buffer on the stack: aligned for the DMA, below 4 GiB and not in the flash. -/
structure HeaderBuffer (addr : ℕ) : Prop where
  aligned : addr % DMA_SIZE_UNIT = 0
  above : FLASH0_BASE + FLASH_MEMORY_SIZE ≤ addr
  below : addr + 512 ≤ DMADAR_BOUNDARY_ADDR

/-- The next read of an open backend succeeds. -/
def NextRead (t : IoState) (dev : Dev) : Prop :=
  dev = .emmcdrv → t.card.outcomes t.card.pos = .success

theorem headerOffset_facts (build : BuildOptions) (dev : Dev) :
    headerOffset build dev % 512 = 0 ∧ headerOffset build dev ≤ 0x180000 := by
  obtain ⟨emmc, p2⟩ := build
  cases dev <;> cases emmc <;> cases p2 <;> decide

/-- A read of whole sectors from a sector boundary on. -/
theorem run_ioRead {buffer length off : ℕ} (hbase : dev = .memdrv → (t.file dev).base = FLASH0_BASE)
    (hpos : (t.file dev).filePos = off) (hoff : off % 512 = 0) (hlen : length % 512 = 0)
    (hlen0 : 0 < length) (hsize : off + length ≤ FLASH_MEMORY_SIZE)
    (hbuf : buffer % DMA_SIZE_UNIT = 0) (hbound : buffer + length ≤ DMADAR_BOUNDARY_ADDR) :
    ∃ rc cnt t', (ioRead dev buffer length).run t = (some (rc, cnt), t') ∧
      (rc = IO_SUCCESS ↔ NextRead t dev) ∧ ReadFrame dev t t' ∧
      (∀ a, a < buffer ∨ buffer + length ≤ a → t'.mem a = t.mem a) ∧
      (rc = IO_SUCCESS → ∀ i < length, t'.mem (buffer + i) = openMedium t dev (off + i)) := by
  unfold FLASH_MEMORY_SIZE at hsize
  unfold DMADAR_BOUNDARY_ADDR at hbound
  unfold DMA_SIZE_UNIT at hbuf
  cases dev with
  | memdrv =>
    have hdma : DmaTakes buffer (FLASH0_BASE + off) length := by
      refine ⟨hlen0, ?_, ?_, ?_, hbuf, hbound⟩
      · unfold DMA_LENGTH_LIMIT
        omega
      · unfold DMA_SIZE_UNIT
        omega
      · unfold DMA_SIZE_UNIT FLASH0_BASE
        omega
    obtain ⟨t', hrun, hframe, hmem⟩ := run_memdrvBlockRead (hbase rfl) hpos hsize hdma
    refine ⟨IO_SUCCESS, _, t', hrun, ?_, hframe, fun a ha => ?_, fun _ i hi => ?_⟩
    · exact ⟨fun _ hdev => Dev.noConfusion hdev, fun _ => rfl⟩
    · rw [hmem, Mem.copy_out _ _ _ _ _ _ ha]
    · rw [hmem, Mem.copy_add _ _ _ _ _ _ hi, Nat.add_assoc]
      rfl
  | emmcdrv =>
    have hnum : 512 * sectorNum length = length := by
      unfold sectorNum EMMC_SECTOR_SIZE
      omega
    have hsector : 512 * ((t.file .emmcdrv).filePos / 512 % 2 ^ 32).toNat = off := by
      rw [hpos]
      omega
    obtain ⟨rc, t', hrun, hrc, hframe, hout, hin⟩ := run_emmcdrvBlockRead t buffer length
    rw [hnum] at hout hin
    rw [hsector] at hin
    refine ⟨rc, _, t', hrun, hrc.trans ?_, hframe, hout, hin⟩
    exact ⟨fun h _ => h.2, fun h => ⟨by omega, h rfl⟩⟩

/-! ## The copy loop -/

/-- The word of the boot header that becomes the partition of entry `i`. -/
def partitionWord (build : BuildOptions) (boot : ℕ) (m : Mem) (off i : ℕ) : ℕ :=
  if build.rcarBootEmmc then boot else m.le64 (off + 8 * (i * 2 + 2))

theorem run_headerWord (t : IoState) {k : ℕ} (hk : k < 64) :
    (headerWord k).run t = (some (t.mem.le64 (t.headerAddr + 8 * k)), t) := by
  unfold headerWord
  rw [run_bind_get, if_pos hk]
  rfl

/-- The entry `i` of the tables is set from the header. -/
def setEntry (build : BuildOptions) (t : IoState) (i : ℕ) : IoState :=
  { t with rcar := { t.rcar with
    imageHeader := Function.update t.rcar.imageHeader i (t.mem.le64 (t.headerAddr + 8 * (i * 2 + 1)))
    imageHeaderPrttn := Function.update t.rcar.imageHeaderPrttn i
      (partitionWord build t.card.bootPartition t.mem t.headerAddr i) } }

theorem copyEntries_succ (n : ℕ) {i : ℕ} (hi : i < RCAR_MAX_BL3X_IMAGE + 2) (t : IoState) :
    (copyEntries build (n + 1) i).run t = (copyEntries build n (i + 1)).run (setEntry build t i) := by
  have hi' := hi
  unfold RCAR_MAX_BL3X_IMAGE at hi'
  rw [copyEntries, if_pos hi, run_bind_of_some (run_headerWord t (by omega)), modifyRcar,
    run_bind_modify, setEntry, partitionWord]
  cases build.rcarBootEmmc
  · simp only [Bool.false_eq_true, if_false]
    rw [run_bind_of_some (run_headerWord _ (by omega))]
    rfl
  · rfl

/-- The entries from `i` on are those of the header, and the ones before are kept. -/
structure Copied (build : BuildOptions) (i n : ℕ) (t t' : IoState) : Prop where
  frame : t' = { t with rcar := { t.rcar with
    imageHeader := t'.rcar.imageHeader, imageHeaderPrttn := t'.rcar.imageHeaderPrttn } }
  kept : ∀ j < i, t'.rcar.imageHeader j = t.rcar.imageHeader j ∧
    t'.rcar.imageHeaderPrttn j = t.rcar.imageHeaderPrttn j
  copied : ∀ j, i ≤ j → j < i + n →
    t'.rcar.imageHeader j = t.mem.le64 (t.headerAddr + 8 * (j * 2 + 1)) ∧
    t'.rcar.imageHeaderPrttn j = partitionWord build t.card.bootPartition t.mem t.headerAddr j

theorem run_copyEntries (build : BuildOptions) (n i : ℕ) (h : i + n ≤ RCAR_MAX_BL3X_IMAGE + 2) (t : IoState) :
    ∃ t', (copyEntries build n i).run t = (some (), t') ∧ Copied build i n t t' := by
  induction n generalizing i t with
  | zero => exact ⟨t, rfl, rfl, fun _ _ => ⟨rfl, rfl⟩, fun j h1 h2 => absurd h2 (by omega)⟩
  | succ n ih =>
    obtain ⟨t', hrun, hframe, hkept, hcopied⟩ := ih (i + 1) (by omega) (setEntry build t i)
    rw [copyEntries_succ n (by omega)]
    refine ⟨t', hrun, hframe, fun j hj => ?_, fun j h1 h2 => ?_⟩
    · obtain ⟨h1, h2⟩ := hkept j (by omega)
      have hne : j ≠ i := by omega
      exact ⟨h1.trans (Function.update_of_ne hne _ _), h2.trans (Function.update_of_ne hne _ _)⟩
    · rcases h1.eq_or_lt with rfl | h1
      · obtain ⟨h1, h2⟩ := hkept i (by omega)
        exact ⟨h1.trans (Function.update_self _ _ _), h2.trans (Function.update_self _ _ _)⟩
      · exact hcopied j h1 (by omega)

/-- A count that is too large runs past the end of the tables. -/
theorem copyEntries_overrun (n i : ℕ) (hi : i ≤ RCAR_MAX_BL3X_IMAGE + 2)
    (h : RCAR_MAX_BL3X_IMAGE + 2 < i + n) (t : IoState) :
    ((copyEntries build n i).run t).1 = none := by
  induction n generalizing i t with
  | zero => omega
  | succ n ih =>
    rcases hi.eq_or_lt with rfl | hi
    · rw [copyEntries, if_neg (lt_irrefl _)]
      rfl
    · rw [copyEntries_succ n hi]
      exact ih (i + 1) hi (by omega) _

/-! ## Reading the boot header -/

/-- The image counts that the tables have room for. -/
def InRange (number : ℕ) : Prop := 1 ≤ number ∧ number ≤ RCAR_MAX_BL3X_IMAGE

instance : DecidablePred InRange := fun n =>
  inferInstanceAs (Decidable (1 ≤ n ∧ n ≤ RCAR_MAX_BL3X_IMAGE))

/-- How many entries the copy loop fills: the sum wraps around. -/
def entriesLoaded (number : ℕ) : ℕ := (number + 2) % 2 ^ 64

/-- The count and the entries are those of the boot header at byte `off` of `m`. -/
structure LoadedEntries (build : BuildOptions) (boot : ℕ) (m : Mem) (off : ℕ) (t : IoState) :
    Prop where
  number : t.rcar.imageNumber = m.le64 off
  fits : entriesLoaded t.rcar.imageNumber ≤ RCAR_MAX_BL3X_IMAGE + 2
  header : ∀ j < entriesLoaded t.rcar.imageNumber,
    t.rcar.imageHeader j = m.le64 (off + 8 * (j * 2 + 1))
  prttn : ∀ j < entriesLoaded t.rcar.imageNumber,
    t.rcar.imageHeaderPrttn j = partitionWord build boot m off j

/-- Every image has its address and its certificate, and the count is one that fits. -/
structure LoadedFrom (build : BuildOptions) (boot : ℕ) (m : Mem) (off : ℕ) (t : IoState) : Prop
    extends LoadedEntries build boot m off t where
  range : InRange t.rcar.imageNumber
  certs : ∀ a < RCAR_CERT_SIZE * (2 + t.rcar.imageNumber),
    t.mem (RCAR_SDRAM_certESS + a) = m (off + RCAR_SECTOR6_CERT_OFFSET + a)

/-- What the reading of the boot header leaves alone. -/
structure InitFrame (dev : Dev) (t t' : IoState) : Prop where
  entityCount : t'.entityCount = t.entityCount
  currentFile : t'.rcar.currentFile = t.rcar.currentFile
  other : ∀ d ≠ dev, t'.file d = t.file d

theorem ReadFrame.init {t t' : IoState} (h : ReadFrame dev t t') : InitFrame dev t t' :=
  ⟨h.entityCount, by rw [h.rcar], h.other⟩

theorem InitFrame.trans {t t' t'' : IoState} (h : InitFrame dev t t') (h' : InitFrame dev t' t'') :
    InitFrame dev t t'' :=
  ⟨h'.entityCount.trans h.entityCount, h'.currentFile.trans h.currentFile,
    fun d hd => (h'.other d hd).trans (h.other d hd)⟩

theorem readFrame_seek (dev : Dev) (t : IoState) (offset : ℤ) : ReadFrame dev t { t with
    file := Function.update t.file dev { t.file dev with filePos := offset } } :=
  readFrame_update dev t offset t.card.pos t.mem

theorem ReadFrame.trans {t t' t'' : IoState} (h : ReadFrame dev t t') (h' : ReadFrame dev t' t'') :
    ReadFrame dev t t'' :=
  ⟨h.toFrame.trans h'.toFrame, h'.entityCount.trans h.entityCount, h'.inUse.trans h.inUse,
    h'.base.trans h.base, h'.sel.trans h.sel⟩

/-- Seeking to a sector boundary and reading whole sectors. -/
theorem run_seekRead (dev : Dev) (buffer length off : ℕ)
    (hbase : dev = .memdrv → (t.file dev).base = FLASH0_BASE)
    (hoff : off % 512 = 0) (hlen : length % 512 = 0) (hlen0 : 0 < length)
    (hsize : off + length ≤ FLASH_MEMORY_SIZE) (hbuf : buffer % DMA_SIZE_UNIT = 0)
    (hbound : buffer + length ≤ DMADAR_BOUNDARY_ADDR) :
    ∃ rc cnt t', (ioRead dev buffer length).run { t with
          file := Function.update t.file dev { t.file dev with filePos := off } } =
        (some (rc, cnt), t') ∧
      (rc = IO_SUCCESS ↔ NextRead t dev) ∧ ReadFrame dev t t' ∧
      (∀ a, a < buffer ∨ buffer + length ≤ a → t'.mem a = t.mem a) ∧
      (rc = IO_SUCCESS → ∀ i < length, t'.mem (buffer + i) = openMedium t dev (off + i)) := by
  have hfile : Function.update t.file dev { t.file dev with filePos := (off : ℤ) } dev =
      { t.file dev with filePos := (off : ℤ) } := Function.update_self _ _ _
  have hbase' : dev = .memdrv → (Function.update t.file dev { t.file dev with filePos := (off : ℤ) }
      dev).base = FLASH0_BASE := by
    rw [hfile]
    exact hbase
  have hpos : (Function.update t.file dev { t.file dev with filePos := (off : ℤ) } dev).filePos = off := by
    rw [hfile]
  obtain ⟨rc, cnt, t', hrun, hrc, hframe, hout, hin⟩ := run_ioRead (t := { t with
    file := Function.update t.file dev { t.file dev with filePos := off } })
    hbase' hpos hoff hlen hlen0 hsize hbuf hbound
  refine ⟨rc, cnt, t', hrun, hrc, (readFrame_seek dev t off).trans hframe, hout, fun h i hi => ?_⟩
  rw [hin h i hi]
  cases dev <;> rfl

/-- The part of `rcar_dev_init` after the header is in its buffer. -/
def loadTables (build : BuildOptions) (dev : Dev) (offset : ℕ) (rc : ℤ) : Prog IoState ℤ := do
  let number ← headerWord 0
  modifyRcar fun r => { r with imageNumber := number }
  copyEntries build ((number + 2) % 2 ^ 64) 0
  if number = 0 ∨ number > RCAR_MAX_BL3X_IMAGE then
    return rc
  let rc ← ioSeek dev (offset + RCAR_SECTOR6_CERT_OFFSET : ℕ)
  if rc ≠ IO_SUCCESS then
    return rc
  let (rc, _) ← ioRead dev RCAR_SDRAM_certESS (RCAR_CERT_SIZE * (2 + number))
  if rc ≠ IO_SUCCESS then
    return rc
  modifyRcar fun r => { r with certLoad := true }
  return rc

/-- The header is read into its buffer, or the read fails. -/
theorem run_readBootHeader (build : BuildOptions)
    (hbase : dev = .memdrv → (t.file dev).base = FLASH0_BASE)
    (hbuf : HeaderBuffer t.headerAddr) :
    (¬ NextRead t dev → ∃ rc t', (readBootHeader build dev).run t = (some rc, t') ∧
      rc ≠ IO_SUCCESS ∧ ReadFrame dev t t') ∧
    (NextRead t dev → ∃ t', (readBootHeader build dev).run t =
        (loadTables build dev (headerOffset build dev) IO_SUCCESS).run t' ∧ ReadFrame dev t t' ∧
      (∀ a, a < t.headerAddr ∨ t.headerAddr + 512 ≤ a → t'.mem a = t.mem a) ∧
      ∀ i < 512, t'.mem (t'.headerAddr + i) = openMedium t dev (headerOffset build dev + i)) := by
  obtain ⟨hmod, hle⟩ := headerOffset_facts build dev
  obtain ⟨rc, cnt, t', hrun, hrc, hframe, hout, hin⟩ := run_seekRead dev t.headerAddr 512 _ hbase hmod
    rfl (by decide) (by unfold FLASH_MEMORY_SIZE; omega) hbuf.aligned hbuf.below
  have hread : (readBootHeader build dev).run t = (do
      let (rc, _) ← ioRead dev t.headerAddr 512
      if rc ≠ IO_SUCCESS then
        return rc
      loadTables build dev (headerOffset build dev) rc).run { t with
        file := Function.update t.file dev { t.file dev with
          filePos := (headerOffset build dev : ℤ) } } := rfl
  rw [hread, run_bind_of_some hrun]
  constructor
  · intro hno
    have hfail : rc ≠ IO_SUCCESS := mt hrc.mp hno
    exact ⟨rc, t', by simp only [if_pos hfail]; rfl, hfail, hframe⟩
  · intro hyes
    obtain rfl : rc = IO_SUCCESS := hrc.mpr hyes
    refine ⟨t', rfl, hframe, hout, fun i hi => ?_⟩
    rw [hframe.headerAddr]
    exact hin rfl i hi

/-- The tables after the count and the entries are copied. -/
theorem run_loadTables (build : BuildOptions) (dev : Dev) {m : Mem} {off : ℕ}
    (hheader : ∀ i < 512, t.mem (t.headerAddr + i) = m (off + i)) :
    (RCAR_MAX_BL3X_IMAGE + 2 < entriesLoaded (m.le64 off) →
      ((loadTables build dev off IO_SUCCESS).run t).1 = none) ∧
    (entriesLoaded (m.le64 off) ≤ RCAR_MAX_BL3X_IMAGE + 2 → ∃ t',
      LoadedEntries build t.card.bootPartition m off t' ∧ t'.card = t.card ∧ t'.mem = t.mem ∧
      InitFrame dev t t' ∧ t'.file = t.file ∧ t'.rcar.certLoad = t.rcar.certLoad ∧
      (loadTables build dev off IO_SUCCESS).run t = (do
        if m.le64 off = 0 ∨ m.le64 off > RCAR_MAX_BL3X_IMAGE then
          return IO_SUCCESS
        let rc ← ioSeek dev (off + RCAR_SECTOR6_CERT_OFFSET : ℕ)
        if rc ≠ IO_SUCCESS then
          return rc
        let (rc, _) ← ioRead dev RCAR_SDRAM_certESS (RCAR_CERT_SIZE * (2 + m.le64 off))
        if rc ≠ IO_SUCCESS then
          return rc
        modifyRcar fun r => { r with certLoad := true }
        return rc).run t') := by
  have hword : ∀ k < 64, t.mem.le64 (t.headerAddr + 8 * k) = m.le64 (off + 8 * k) := by
    intro k hk
    refine Mem.le64_congr fun i hi => ?_
    rw [Nat.add_assoc, Nat.add_assoc]
    exact hheader _ (by omega)
  have hzero : (headerWord 0).run t = (some (m.le64 off), t) := by
    rw [run_headerWord t (by decide), hword 0 (by decide)]
    rfl
  unfold loadTables
  rw [run_bind_of_some hzero, modifyRcar, run_bind_modify]
  constructor
  · intro h
    exact run_bind_fst_of_none (copyEntries_overrun _ 0 (by omega) (by rwa [Nat.zero_add]) _) _
  · intro h
    obtain ⟨t', hrun, hframe, -, hcopied⟩ := run_copyEntries build
      (entriesLoaded (m.le64 off)) 0 (by rwa [Nat.zero_add])
      { t with rcar := { t.rcar with imageNumber := m.le64 off } }
    have hnumber : t'.rcar.imageNumber = m.le64 off := by rw [hframe]
    have hmax : RCAR_MAX_BL3X_IMAGE = 8 := rfl
    have hloaded : LoadedEntries build t.card.bootPartition m off t' := by
      refine ⟨hnumber, by rwa [hnumber], fun j hj => ?_, fun j hj => ?_⟩
      · rw [hnumber] at hj
        obtain ⟨h1, -⟩ := hcopied j (by omega) (by omega)
        exact h1.trans (hword _ (by omega))
      · rw [hnumber] at hj
        obtain ⟨-, h2⟩ := hcopied j (by omega) (by omega)
        refine h2.trans ?_
        unfold partitionWord
        rw [← hword _ (by omega)]
    refine ⟨t', hloaded, by rw [hframe], by rw [hframe], ⟨by rw [hframe], by rw [hframe], ?_⟩,
      by rw [hframe], by rw [hframe], ?_⟩
    · intro d _
      rw [hframe]
    · exact run_bind_of_some hrun _

/-- The medium is the same after the header is in its buffer. -/
theorem openMedium_congr {t t' : IoState} (hstore : SameStore t.card t'.card)
    (hsel : t'.card.sel = t.card.sel) (hbuf : HeaderBuffer t.headerAddr)
    (hout : ∀ a, a < t.headerAddr ∨ t.headerAddr + 512 ≤ a → t'.mem a = t.mem a) (dev : Dev)
    {a : ℕ} (ha : a < FLASH_MEMORY_SIZE) : openMedium t' dev a = openMedium t dev a := by
  cases dev with
  | memdrv => exact hout _ (.inl (by have := hbuf.above; omega))
  | emmcdrv => rw [openMedium, openMedium, hstore.part, hsel]

/-- The certificates of a count that fits are whole sectors, below the end of the flash. -/
theorem certs_facts (build : BuildOptions) (dev : Dev) {number : ℕ} (h : InRange number) :
    (headerOffset build dev + RCAR_SECTOR6_CERT_OFFSET) % 512 = 0 ∧
      RCAR_CERT_SIZE * (2 + number) % 512 = 0 ∧ 0 < RCAR_CERT_SIZE * (2 + number) ∧
      headerOffset build dev + RCAR_SECTOR6_CERT_OFFSET + RCAR_CERT_SIZE * (2 + number) ≤
        FLASH_MEMORY_SIZE ∧
      RCAR_SDRAM_certESS + RCAR_CERT_SIZE * (2 + number) ≤ DMADAR_BOUNDARY_ADDR := by
  obtain ⟨hmod, hle⟩ := headerOffset_facts build dev
  unfold InRange RCAR_MAX_BL3X_IMAGE at h
  unfold RCAR_SECTOR6_CERT_OFFSET RCAR_CERT_SIZE FLASH_MEMORY_SIZE RCAR_SDRAM_certESS
    DMADAR_BOUNDARY_ADDR
  omega

theorem InRange.not_refused {number : ℕ} (h : InRange number) :
    ¬ (number = 0 ∨ number > RCAR_MAX_BL3X_IMAGE) := by
  unfold InRange at h
  omega

theorem InRange.entriesLoaded {number : ℕ} (h : InRange number) :
    entriesLoaded number = number + 2 := by
  unfold InRange RCAR_MAX_BL3X_IMAGE at h
  unfold Bl2.entriesLoaded
  omega

/-- With a count that fits, the reading either loads everything or fails. -/
theorem run_readBootHeader_inRange (hbase : dev = .memdrv → (t.file dev).base = FLASH0_BASE)
    (hbuf : HeaderBuffer t.headerAddr) (hread : NextRead t dev)
    (hrange : InRange ((openMedium t dev).le64 (headerOffset build dev))) :
    ∃ rc t', (readBootHeader build dev).run t = (some rc, t') ∧ InitFrame dev t t' ∧
      (rc = IO_SUCCESS → LoadedFrom build t.card.bootPartition (openMedium t dev)
        (headerOffset build dev) t') ∧
      (rc ≠ IO_SUCCESS → t'.rcar.certLoad = t.rcar.certLoad) := by
  obtain ⟨hmod, hlen, hpos, hsize, hbound⟩ := certs_facts build dev hrange
  obtain ⟨u, hrun, hframe, hout, hheader⟩ := (run_readBootHeader build hbase hbuf).2 hread
  have hfits : entriesLoaded ((openMedium t dev).le64 (headerOffset build dev)) ≤
      RCAR_MAX_BL3X_IMAGE + 2 := by
    rw [hrange.entriesLoaded]
    exact Nat.add_le_add_right hrange.2 2
  obtain ⟨v, hloaded, hcard, hmem, hinit, hfile, hcert, hrest⟩ :=
    (run_loadTables build dev hheader).2 hfits
  have hvbase : dev = .memdrv → (v.file dev).base = FLASH0_BASE := by
    intro hd
    rw [hfile, hframe.base, hbase hd]
  obtain ⟨rc, cnt, w, hread2, -, hframe2, -, hin2⟩ := run_seekRead dev RCAR_SDRAM_certESS _ _ hvbase
    hmod hlen hpos hsize (by decide) hbound
  have hframew := (hframe.init.trans hinit).trans hframe2.init
  rw [hrun, hrest, if_neg hrange.not_refused, run_bind_of_some (run_ioSeek dev v _)]
  simp only [ne_eq, not_true_eq_false, if_false]
  rw [run_bind_of_some hread2]
  by_cases hrc : rc = IO_SUCCESS
  · subst hrc
    refine ⟨IO_SUCCESS, _, rfl, ⟨hframew.entityCount, hframew.currentFile, hframew.other⟩, fun _ => ?_,
      fun h => absurd rfl h⟩
    have hboot : u.card.bootPartition = t.card.bootPartition := hframe.store.flow.1
    rw [hboot] at hloaded
    have hnumber : w.rcar.imageNumber = (openMedium t dev).le64 (headerOffset build dev) := by
      rw [hframe2.rcar, hloaded.number]
    have hw : LoadedEntries build t.card.bootPartition (openMedium t dev) (headerOffset build dev) w :=
      ⟨hnumber, by rwa [hnumber], by rw [hframe2.rcar]; exact hloaded.header,
        by rw [hframe2.rcar]; exact hloaded.prttn⟩
    refine ⟨⟨hw.number, hw.fits, hw.header, hw.prttn⟩, ?_, fun a ha => ?_⟩
    · simp only [hnumber]
      exact hrange
    · simp only [hnumber] at ha
      refine (hin2 rfl a ha).trans (openMedium_congr ?_ ?_ hbuf ?_ dev (by omega))
      · rw [hcard]
        exact hframe.store
      · rw [hcard]
        exact hframe.sel
      · rw [hmem]
        exact hout
  · simp only [if_pos hrc]
    refine ⟨rc, w, rfl, hframew, fun h => absurd h hrc, fun _ => ?_⟩
    rw [hframe2.rcar, hcert, hframe.rcar]

/-- With any other count, the tables are overrun, or the result is a success. -/
theorem run_readBootHeader_outOfRange (hbase : dev = .memdrv → (t.file dev).base = FLASH0_BASE)
    (hbuf : HeaderBuffer t.headerAddr) (hread : NextRead t dev)
    (hrange : ¬ InRange ((openMedium t dev).le64 (headerOffset build dev))) :
    ((readBootHeader build dev).run t).1 = none ∨
      ∃ t', (readBootHeader build dev).run t = (some IO_SUCCESS, t') ∧ InitFrame dev t t' ∧
        LoadedEntries build t.card.bootPartition (openMedium t dev) (headerOffset build dev) t' ∧
        t'.rcar.certLoad = t.rcar.certLoad := by
  obtain ⟨u, hrun, hframe, hout, hheader⟩ := (run_readBootHeader build hbase hbuf).2 hread
  rw [hrun]
  by_cases hfits : entriesLoaded ((openMedium t dev).le64 (headerOffset build dev)) ≤
      RCAR_MAX_BL3X_IMAGE + 2
  · obtain ⟨v, hloaded, -, -, hinit, -, hcert, hrest⟩ := (run_loadTables build dev hheader).2 hfits
    have hrefused : (openMedium t dev).le64 (headerOffset build dev) = 0 ∨
        (openMedium t dev).le64 (headerOffset build dev) > RCAR_MAX_BL3X_IMAGE := by
      unfold InRange at hrange
      omega
    have hboot : u.card.bootPartition = t.card.bootPartition := hframe.store.flow.1
    rw [hboot] at hloaded
    refine .inr ⟨v, ?_, hframe.init.trans hinit, hloaded, by rw [hcert, hframe.rcar]⟩
    rw [hrest, if_pos hrefused]
    rfl
  · exact .inl ((run_loadTables build dev hheader).1 (not_le.mp hfits))

/-! ## The whole initialisation -/

/-- The state when the backend is opened: the header buffer is zero, a trial of the flash has
left its slot free, and the handle is set. -/
def prepared (dev : Dev) (s : IoState) : IoState :=
  { s with
    mem := s.mem.copy s.headerAddr (fun _ => 0) 0 512
    file := match dev with
      | .memdrv => Function.update s.file .memdrv FileState.zero
      | .emmcdrv => s.file
    rcar := { s.rcar with handle := some dev } }

theorem run_openDrv_memdrv (h : Openable .memdrv s) :
    (openDrv .memdrv).run s = (some IO_SUCCESS, { s with
      file := Function.update s.file .memdrv FileState.zero }) := by
  have hopen : (ioOpen .memdrv).run s = (some IO_SUCCESS, { s with
      entityCount := s.entityCount + 1
      file := Function.update s.file .memdrv
        { s.file .memdrv with base := FLASH0_BASE, filePos := 0, inUse := true } }) := by
    have hblock := run_memdrvBlockOpen (s := { s with entityCount := s.entityCount + 1 }) h.slot
    unfold ioOpen blockOpen
    rw [run_bind_get, if_pos h.entity, run_bind_modify, run_bind_of_some hblock]
    rfl
  unfold openDrv
  rw [run_bind_of_some hopen]
  simp only [if_true]
  rw [run_bind_of_some (run_ioClose _ _)]
  simp only [Function.update_idem]
  rfl

/-- The trial opens the flash, which may be refused. -/
def Trial (dev : Dev) (s : IoState) : Prop := dev = .memdrv → Openable .memdrv s

/-- What `rcar_dev_init` does once it has its backend. -/
def openAndRead (build : BuildOptions) (dev : Dev) : Prog IoState ℤ := do
  if (← Prog.get).rcar.certLoad then
    return IO_SUCCESS
  let rc ← ioOpen dev
  if rc ≠ IO_SUCCESS then
    return IO_FAIL
  let rc ← readBootHeader build dev
  let _ ← ioClose dev
  return if rc ≠ IO_SUCCESS then IO_FAIL else rc

theorem run_rcarDevInit_trial (build : BuildOptions) (dev : Dev) (s : IoState) :
    (Trial dev s → (rcarDevInit build dev).run s = (openAndRead build dev).run (prepared dev s)) ∧
    (¬ Trial dev s → (rcarDevInit build dev).run s =
      (some IO_FAIL, { s with mem := s.mem.copy s.headerAddr (fun _ => 0) 0 512 })) := by
  cases dev with
  | memdrv =>
    constructor
    · intro h
      have hopen : Openable .memdrv { s with mem := s.mem.copy s.headerAddr (fun _ => 0) 0 512 } :=
        ⟨(h rfl).entity, (h rfl).slot⟩
      unfold rcarDevInit platGetDrvSource
      rw [run_bind_modify, Prog.bind_assoc, run_bind_of_some (run_openDrv_memdrv hopen)]
      rfl
    · intro h
      have hrefused : ¬ Openable .memdrv
          { s with mem := s.mem.copy s.headerAddr (fun _ => 0) 0 512 } :=
        fun hopen => h fun _ => ⟨hopen.entity, hopen.slot⟩
      obtain ⟨rc, hrun, hrc⟩ := run_ioOpen_refused hrefused
      unfold rcarDevInit platGetDrvSource openDrv
      rw [run_bind_modify, Prog.bind_assoc, Prog.bind_assoc, run_bind_of_some hrun]
      simp only [if_neg hrc]
      rw [run_bind_pure, if_pos hrc, run_bind_pure, if_pos hrc]
      rfl
  | emmcdrv => exact ⟨fun _ => rfl, fun h => absurd (fun hdev => Dev.noConfusion hdev) h⟩

/-- The boot header gets read. -/
structure HeaderRead (dev : Dev) (s : IoState) : Prop where
  fresh : s.rcar.certLoad = false
  openable : Openable dev s
  media : MediaOpens s dev
  read : dev = .emmcdrv → s.card.outcomes (selectPos s.card (openTarget s)) = .success

/-- What every call leaves as it was: the entities, and the slot if the backend opens. -/
structure Closed (dev : Dev) (s s' : IoState) : Prop where
  entityCount : s'.entityCount = s.entityCount
  slot : Openable dev s → MediaOpens s dev → (s'.file dev).inUse = false

theorem openable_prepared (h : Openable dev s) : Openable dev (prepared dev s) := by
  refine ⟨h.entity, ?_⟩
  cases dev with
  | memdrv => simp [prepared, FileState.zero]
  | emmcdrv => exact h.slot

theorem mediaOpens_prepared : MediaOpens (prepared dev s) dev ↔ MediaOpens s dev := by
  cases dev <;> rfl

theorem closed_prepared : Closed dev s (prepared dev s) := by
  refine ⟨rfl, fun hopen _ => ?_⟩
  exact (openable_prepared hopen).slot

/-- The medium of the opened backend is the one that the state before determines. -/
theorem openMedium_opened {t : IoState} (h : OpenedOk dev (prepared dev s) t)
    (hbuf : HeaderBuffer s.headerAddr) {a : ℕ} (ha : a < FLASH_MEMORY_SIZE) :
    openMedium t dev a = medium s dev a := by
  cases dev with
  | memdrv =>
    have hsep : FLASH0_BASE + a < s.headerAddr :=
      lt_of_lt_of_le (Nat.add_lt_add_left ha _) hbuf.above
    rw [openMedium, medium, h.mem]
    exact Mem.copy_out s.mem s.headerAddr (fun _ => 0) 0 512 _ (.inl hsep)
  | emmcdrv =>
    rw [openMedium, medium, h.store.part, h.sel rfl]
    rfl

theorem LoadedEntries.congr {m m' : Mem} {boot off : ℕ} (h : LoadedEntries build boot m off t)
    (hm : ∀ a < FLASH_MEMORY_SIZE, m a = m' a) (hoff : off ≤ 0x180000) :
    LoadedEntries build boot m' off t := by
  have hfits := h.fits
  unfold RCAR_MAX_BL3X_IMAGE at hfits
  have hword : ∀ k ≤ 20, m.le64 (off + 8 * k) = m'.le64 (off + 8 * k) := by
    intro k hk
    refine Mem.le64_congr fun i hi => hm _ ?_
    unfold FLASH_MEMORY_SIZE
    omega
  refine ⟨h.number.trans (hword 0 (by omega)), h.fits, fun j hj => ?_, fun j hj => ?_⟩
  · rw [h.header j hj, hword _ (by omega)]
  · rw [h.prttn j hj, partitionWord, partitionWord, hword _ (by omega)]

theorem LoadedFrom.congr {m m' : Mem} {boot off : ℕ} (h : LoadedFrom build boot m off t)
    (hm : ∀ a < FLASH_MEMORY_SIZE, m a = m' a) (hoff : off ≤ 0x180000) :
    LoadedFrom build boot m' off t := by
  have hrange := h.range
  unfold InRange RCAR_MAX_BL3X_IMAGE at hrange
  refine ⟨h.toLoadedEntries.congr hm hoff, h.range, fun a ha => (h.certs a ha).trans (hm _ ?_)⟩
  unfold RCAR_CERT_SIZE at ha
  unfold RCAR_SECTOR6_CERT_OFFSET FLASH_MEMORY_SIZE
  omega

/-- The count that the boot header of the medium has. -/
def headerCount (build : BuildOptions) (dev : Dev) (s : IoState) : ℕ :=
  (medium s dev).le64 (headerOffset build dev)

/-- Once the backend is open, the header is read and the backend closed. -/
theorem run_openAndRead (build : BuildOptions) (hfresh : s.rcar.certLoad = false)
    (hopen : Openable dev s) (hmedia : MediaOpens s dev) :
    ∃ t, OpenedOk dev (prepared dev s) t ∧ t.entityCount = s.entityCount + 1 ∧
      (rcarDevInit build dev).run s = (do
        let rc ← readBootHeader build dev
        let _ ← ioClose dev
        return if rc ≠ IO_SUCCESS then IO_FAIL else rc).run t := by
  obtain ⟨rc, t, hrun, hrc, -, hok, -⟩ := run_ioOpen (openable_prepared hopen)
  obtain rfl : rc = IO_SUCCESS := hrc.mpr (mediaOpens_prepared.mpr hmedia)
  obtain ⟨hopened, hcount⟩ := hok rfl
  refine ⟨t, hopened, hcount, ?_⟩
  have hfresh' : ¬ (prepared dev s).rcar.certLoad = true := by
    rw [show (prepared dev s).rcar.certLoad = s.rcar.certLoad from rfl, hfresh]
    decide
  rw [(run_rcarDevInit_trial build dev s).1 fun hdev => hdev ▸ hopen, openAndRead, run_bind_get,
    if_neg hfresh', run_bind_of_some hrun]
  rfl

/-- The result and the state after the backend is closed. -/
theorem run_readAndClose {u : IoState} {rc : ℤ} (hcount : t.entityCount = s.entityCount + 1)
    (hrun : (readBootHeader build dev).run t = (some rc, u)) (hframe : InitFrame dev t u) :
    ∃ s', (do
        let rc ← readBootHeader build dev
        let _ ← ioClose dev
        return if rc ≠ IO_SUCCESS then IO_FAIL else rc : Prog IoState ℤ).run t =
          (some (if rc ≠ IO_SUCCESS then IO_FAIL else rc), s') ∧ Closed dev s s' ∧
      s'.rcar = u.rcar ∧ s'.mem = u.mem := by
  rw [run_bind_of_some hrun, run_bind_of_some (run_ioClose dev u)]
  refine ⟨_, rfl, ⟨?_, fun _ _ => ?_⟩, rfl, rfl⟩
  · simp only [hframe.entityCount, hcount, Nat.add_sub_cancel]
  · simp only [Function.update_self]
    rfl

theorem run_rcarDevInit_refused (build : BuildOptions) {u : IoState} {rc : ℤ} (htrial : Trial dev s)
    (hfresh : ¬ s.rcar.certLoad = true) (hrun : (ioOpen dev).run (prepared dev s) = (some rc, u))
    (hrc : rc ≠ IO_SUCCESS) : (rcarDevInit build dev).run s = (some IO_FAIL, u) := by
  rw [(run_rcarDevInit_trial build dev s).1 htrial, openAndRead, run_bind_get,
    if_neg (show ¬ (prepared dev s).rcar.certLoad = true from hfresh), run_bind_of_some hrun,
    if_pos hrc]
  rfl

theorem openable_of_prepared (htrial : Trial dev s) (h : Openable dev (prepared dev s)) :
    Openable dev s := by
  cases dev with
  | memdrv => exact htrial rfl
  | emmcdrv => exact ⟨h.entity, h.slot⟩

/-- A call that does not get the boot header. -/
theorem run_rcarDevInit_notRead (build : BuildOptions) (hbuf : HeaderBuffer s.headerAddr)
    (h : ¬ HeaderRead dev s) :
    ∃ rc s', (rcarDevInit build dev).run s = (some rc, s') ∧ Closed dev s s' ∧
      (rc = IO_SUCCESS → s.rcar.certLoad = true ∧ s'.rcar = { s.rcar with handle := some dev }) ∧
      (rc ≠ IO_SUCCESS → rc = IO_FAIL ∧ s'.rcar.certLoad = s.rcar.certLoad ∧
        s'.rcar.imageNumber = s.rcar.imageNumber) := by
  by_cases htrial : Trial dev s
  · by_cases hfresh : s.rcar.certLoad = true
    · refine ⟨IO_SUCCESS, prepared dev s, ?_, closed_prepared, fun _ => ⟨hfresh, rfl⟩,
        fun hfail => absurd rfl hfail⟩
      rw [(run_rcarDevInit_trial build dev s).1 htrial, openAndRead, run_bind_get]
      exact if_pos hfresh ▸ rfl
    · by_cases hopen : Openable dev s
      · by_cases hmedia : MediaOpens s dev
        · have hfresh' : s.rcar.certLoad = false := by simpa using hfresh
          obtain ⟨t, hopened, hcount, hrun⟩ := run_openAndRead build hfresh' hopen hmedia
          have hno : ¬ NextRead t dev := by
            intro hnext
            refine h ⟨hfresh', hopen, hmedia, fun hdev => ?_⟩
            have hnext := hnext hdev
            rw [hopened.store.outcomes, hopened.pos hdev] at hnext
            exact hnext
          have hbuf' : HeaderBuffer t.headerAddr := by
            rw [hopened.headerAddr]
            exact hbuf
          obtain ⟨rc, u, hread, hrc, hframe⟩ := (run_readBootHeader build hopened.base hbuf').1 hno
          obtain ⟨s', hclose, hclosed, hrcar, -⟩ := run_readAndClose hcount hread hframe.init
          rw [if_pos hrc] at hclose
          have hsame : s'.rcar = (prepared dev s).rcar := by rw [hrcar, hframe.rcar, hopened.rcar]
          refine ⟨IO_FAIL, s', hrun.trans hclose, hclosed, fun hfail => absurd hfail (by decide),
            fun _ => ⟨rfl, ?_, ?_⟩⟩
          · rw [hsame]
            rfl
          · rw [hsame]
            rfl
        · obtain ⟨rc, u, hrun, hrc, hopened, -, hcount⟩ := run_ioOpen (openable_prepared hopen)
          have hfail : rc ≠ IO_SUCCESS := fun hok => hmedia (mediaOpens_prepared.mp (hrc.mp hok))
          refine ⟨IO_FAIL, u, run_rcarDevInit_refused build htrial hfresh hrun hfail,
            ⟨hcount hfail, fun _ hm => absurd hm hmedia⟩, fun h => absurd h (by decide),
            fun _ => ⟨rfl, ?_, ?_⟩⟩
          · rw [hopened.rcar]
            rfl
          · rw [hopened.rcar]
            rfl
      · obtain ⟨rc, hrun, hrc⟩ := run_ioOpen_refused fun h => hopen (openable_of_prepared htrial h)
        exact ⟨IO_FAIL, _, run_rcarDevInit_refused build htrial hfresh hrun hrc, closed_prepared,
          fun h => absurd h (by decide), fun _ => ⟨rfl, rfl, rfl⟩⟩
  · refine ⟨IO_FAIL, _, (run_rcarDevInit_trial build dev s).2 htrial, ⟨rfl, fun hopen _ => ?_⟩,
      fun hfail => absurd hfail (by decide), fun _ => ⟨rfl, rfl, rfl⟩⟩
    exact absurd (fun hdev => hdev ▸ hopen) htrial

/-- An open backend that is about to read the boot header of `medium s dev`. -/
structure AboutToRead (build : BuildOptions) (dev : Dev) (s t : IoState) : Prop where
  base : dev = .memdrv → (t.file dev).base = FLASH0_BASE
  buffer : HeaderBuffer t.headerAddr
  next : NextRead t dev
  entityCount : t.entityCount = s.entityCount + 1
  rcar : t.rcar = { s.rcar with handle := some dev }
  boot : t.card.bootPartition = s.card.bootPartition
  medium : ∀ a < FLASH_MEMORY_SIZE, openMedium t dev a = medium s dev a
  count : (openMedium t dev).le64 (headerOffset build dev) = headerCount build dev s

theorem run_rcarDevInit_read (build : BuildOptions) (hbuf : HeaderBuffer s.headerAddr)
    (h : HeaderRead dev s) :
    ∃ t, AboutToRead build dev s t ∧ (rcarDevInit build dev).run s = (do
        let rc ← readBootHeader build dev
        let _ ← ioClose dev
        return if rc ≠ IO_SUCCESS then IO_FAIL else rc).run t := by
  obtain ⟨t, hopened, hcount, hrun⟩ := run_openAndRead build h.fresh h.openable h.media
  have hmedium : ∀ a < FLASH_MEMORY_SIZE, openMedium t dev a = medium s dev a :=
    fun a ha => openMedium_opened hopened hbuf ha
  refine ⟨t, ⟨hopened.base, ?_, fun hdev => ?_, hcount, hopened.rcar, hopened.store.flow.1, hmedium,
    Mem.le64_congr fun i hi => hmedium _ ?_⟩, hrun⟩
  · rw [hopened.headerAddr]
    exact hbuf
  · rw [hopened.store.outcomes, hopened.pos hdev]
    exact h.read hdev
  · have hle := (headerOffset_facts build dev).2
    unfold FLASH_MEMORY_SIZE
    omega

/-- A call that gets a boot header with a count that fits. -/
theorem run_rcarDevInit_inRange (build : BuildOptions) (hbuf : HeaderBuffer s.headerAddr)
    (h : HeaderRead dev s) (hrange : InRange (headerCount build dev s)) :
    ∃ rc s', (rcarDevInit build dev).run s = (some rc, s') ∧ Closed dev s s' ∧
      (rc = IO_SUCCESS → LoadedFrom build s.card.bootPartition (medium s dev)
        (headerOffset build dev) s') ∧
      (rc ≠ IO_SUCCESS → rc = IO_FAIL ∧ s'.rcar.certLoad = false) := by
  obtain ⟨t, ht, hrun⟩ := run_rcarDevInit_read build hbuf h
  rw [← ht.count] at hrange
  obtain ⟨rc, u, hread, hframe, hok, hfail⟩ :=
    run_readBootHeader_inRange ht.base ht.buffer ht.next hrange
  obtain ⟨s', hclose, hclosed, hrcar, hmem⟩ := run_readAndClose ht.entityCount hread hframe
  have hle := (headerOffset_facts build dev).2
  by_cases hrc : rc = IO_SUCCESS
  · subst hrc
    refine ⟨IO_SUCCESS, s', hrun.trans hclose, hclosed, fun _ => ?_, fun h => absurd rfl h⟩
    have hloaded := (hok rfl).congr ht.medium hle
    rw [ht.boot] at hloaded
    refine ⟨⟨?_, ?_, ?_, ?_⟩, ?_, ?_⟩ <;> rw [hrcar]
    · exact hloaded.number
    · exact hloaded.fits
    · exact hloaded.header
    · exact hloaded.prttn
    · exact hloaded.range
    · rw [hmem]
      exact hloaded.certs
  · rw [if_pos hrc] at hclose
    refine ⟨IO_FAIL, s', hrun.trans hclose, hclosed, fun h => absurd h (by decide), fun _ => ⟨rfl, ?_⟩⟩
    rw [hrcar, hfail hrc, ht.rcar]
    exact h.fresh

/-- A call that gets a boot header with any other count. -/
theorem run_rcarDevInit_outOfRange (build : BuildOptions) (hbuf : HeaderBuffer s.headerAddr)
    (h : HeaderRead dev s) (hrange : ¬ InRange (headerCount build dev s)) :
    ((rcarDevInit build dev).run s).1 = none ∨
      ∃ s', (rcarDevInit build dev).run s = (some IO_SUCCESS, s') ∧
        LoadedEntries build s.card.bootPartition (medium s dev) (headerOffset build dev) s' ∧
        s'.rcar.certLoad = false := by
  obtain ⟨t, ht, hrun⟩ := run_rcarDevInit_read build hbuf h
  rw [← ht.count] at hrange
  rcases run_readBootHeader_outOfRange ht.base ht.buffer ht.next hrange with
    hnone | ⟨u, hread, hframe, hloaded, hcert⟩
  · rw [hrun]
    exact .inl (run_bind_fst_of_none hnone _)
  · obtain ⟨s', hclose, -, hrcar, -⟩ := run_readAndClose ht.entityCount hread hframe
    refine .inr ⟨s', hrun.trans hclose, ?_, ?_⟩
    · have hloaded := hloaded.congr ht.medium (headerOffset_facts build dev).2
      rw [ht.boot] at hloaded
      refine ⟨?_, ?_, ?_, ?_⟩ <;> rw [hrcar]
      · exact hloaded.number
      · exact hloaded.fits
      · exact hloaded.header
      · exact hloaded.prttn
    · rw [hrcar, hcert, ht.rcar]
      exact h.fresh

/-- The tables are loaded on success, now or by the call that set the flag, and on any other
outcome an error is returned; the backend is closed. -/
structure AllOrNothing (build : BuildOptions) (dev : Dev) (s : IoState) (rc : ℤ) (s' : IoState) :
    Prop where
  range : rc = IO_SUCCESS → InRange s'.rcar.imageNumber
  loaded : rc = IO_SUCCESS → s.rcar.certLoad = false →
    LoadedFrom build s.card.bootPartition (medium s dev) (headerOffset build dev) s'
  kept : rc = IO_SUCCESS → s.rcar.certLoad = true → s'.rcar = { s.rcar with handle := some dev }
  error : rc ≠ IO_SUCCESS → rc = IO_FAIL
  closed : Closed dev s s'

/-- The flag is set for tables with a count that fits, and stays so. -/
theorem rcarDevInit_flag (hbuf : HeaderBuffer s.headerAddr)
    (hflag : s.rcar.certLoad = true → InRange s.rcar.imageNumber) {rc : ℤ} {s' : IoState}
    (hrun : (rcarDevInit build dev).run s = (some rc, s')) :
    s'.rcar.certLoad = true → InRange s'.rcar.imageNumber := by
  intro hcert
  by_cases hread : HeaderRead dev s
  · by_cases hrange : InRange (headerCount build dev s)
    · obtain ⟨rc', t, hrun', -, hok, hfail⟩ := run_rcarDevInit_inRange build hbuf hread hrange
      obtain rfl : s' = t := congrArg Prod.snd (hrun.symm.trans hrun')
      by_cases hrc : rc' = IO_SUCCESS
      · exact (hok hrc).range
      · rw [(hfail hrc).2] at hcert
        cases hcert
    · rcases run_rcarDevInit_outOfRange build hbuf hread hrange with hnone | ⟨t, hrun', -, hfalse⟩
      · rw [hrun] at hnone
        cases hnone
      · obtain rfl : s' = t := congrArg Prod.snd (hrun.symm.trans hrun')
        rw [hfalse] at hcert
        cases hcert
  · obtain ⟨rc', t, hrun', -, hok, hfail⟩ := run_rcarDevInit_notRead build hbuf hread
    obtain rfl : s' = t := congrArg Prod.snd (hrun.symm.trans hrun')
    by_cases hrc : rc' = IO_SUCCESS
    · obtain ⟨hs, heq⟩ := hok hrc
      rw [heq]
      exact hflag hs
    · obtain ⟨-, hcert', hnumber⟩ := hfail hrc
      rw [hnumber]
      exact hflag (hcert'.symm.trans hcert)

/-- The initialisation is all or nothing if and only if the boot header that it gets, if it gets
one, has a count that fits. -/
theorem rcarDevInit_allOrNothing_iff (hbuf : HeaderBuffer s.headerAddr)
    (hflag : s.rcar.certLoad = true → InRange s.rcar.imageNumber) :
    (∃ rc s', (rcarDevInit build dev).run s = (some rc, s') ∧ AllOrNothing build dev s rc s') ↔
      (HeaderRead dev s → InRange (headerCount build dev s)) := by
  constructor
  · rintro ⟨rc, s', hrun, hall⟩ hread
    by_contra hrange
    rcases run_rcarDevInit_outOfRange build hbuf hread hrange with hnone | ⟨t, hrun', hloaded, -⟩
    · rw [hrun] at hnone
      cases hnone
    · rw [hrun] at hrun'
      obtain rfl : s' = t := congrArg Prod.snd hrun'
      obtain rfl : rc = IO_SUCCESS := Option.some.inj (congrArg Prod.fst hrun')
      have hin := hall.range rfl
      rw [hloaded.number] at hin
      exact hrange hin
  · intro h
    by_cases hread : HeaderRead dev s
    · obtain ⟨rc, s', hrun, hclosed, hok, hfail⟩ :=
        run_rcarDevInit_inRange build hbuf hread (h hread)
      refine ⟨rc, s', hrun, fun hrc => (hok hrc).range, fun hrc _ => hok hrc, fun _ hcert => ?_,
        fun hrc => (hfail hrc).1, hclosed⟩
      rw [hread.fresh] at hcert
      cases hcert
    · obtain ⟨rc, s', hrun, hclosed, hok, hfail⟩ := run_rcarDevInit_notRead build hbuf hread
      refine ⟨rc, s', hrun, fun hrc => ?_, fun hrc hfresh => ?_, fun hrc _ => (hok hrc).2,
        fun hrc => (hfail hrc).1, hclosed⟩
      · obtain ⟨hcert, heq⟩ := hok hrc
        rw [heq]
        exact hflag hcert
      · rw [(hok hrc).1] at hfresh
        cases hfresh

/-! ## Boot headers on an eMMC -/

/-- A device before its first image is loaded, with `m` in every partition of the eMMC, on which
every access succeeds. -/
def newIo (m : Mem) : IoState where
  card :=
    { part := fun _ => m
      sel := PARTITION_ID_USER
      outcomes := fun _ => .success
      pos := 0
      dram := fun _ => 0
      stack := fun _ => 0
      partitionAccess := 0
      bootPartitionEn := PARTITION_ID_BOOT_1
      bootPartition := PARTITION_ID_BOOT_1
      avbAbFlowSuccess := 0 }
  mem _ := 0
  headerAddr := 0xE6302400
  entityCount := 0
  file _ := FileState.zero
  emmcdrvBootpartition := PARTITION_ID_USER
  specPartition _ := 0
  rcar :=
    { handle := none
      currentFile := RcarFile.zero
      imageHeader := fun _ => 0
      imageHeaderPrttn := fun _ => 0
      imageNumber := 0
      certLoad := false
      loaded := IO_NOT_SUPPORTED
      loadBl33xCounter := 0 }

/-- A boot header with a count, and with addresses zero. -/
def countHeader (n : UInt8) : Mem := fun a => if a = 0x30000 then n else 0

def emmcBuild : BuildOptions := ⟨true, false⟩

theorem headerBuffer_newIo (m : Mem) : HeaderBuffer (newIo m).headerAddr :=
  show HeaderBuffer 0xE6302400 from ⟨by decide, by decide, by decide⟩

theorem rcarDevInit_allOrNothing_oneImage :
    ∃ rc s', (rcarDevInit emmcBuild .emmcdrv).run (newIo (countHeader 1)) = (some rc, s') ∧
      AllOrNothing emmcBuild .emmcdrv (newIo (countHeader 1)) rc s' :=
  (rcarDevInit_allOrNothing_iff (headerBuffer_newIo _) fun h => Bool.noConfusion h).mpr fun _ => by
    decide +kernel

/-- A header that announces no image is a success that loads nothing, and one that announces
nine runs past the end of the tables. -/
theorem bad_counts_pass :
    ((rcarDevInit emmcBuild .emmcdrv).run (newIo (countHeader 0))).1 = some IO_SUCCESS ∧
      ((rcarDevInit emmcBuild .emmcdrv).run (newIo (countHeader 0))).2.rcar.imageNumber = 0 ∧
      ((rcarDevInit emmcBuild .emmcdrv).run (newIo (countHeader 9))).1 = none := by
  decide +kernel

end RCar.Bl2
