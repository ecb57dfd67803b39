import RCarM3N.Model.FbZImage

/-! When a new kernel in the boot partition leaves a sound boot image. Nothing compares the sections with the
partition or with the download buffer, and a write counts as done if it moves one block. -/

namespace RCar.Fastboot.ZImage

open BlockWrite (Disk)

/-! ## Sizes in pages -/

theorem toNat_sectors (x : UInt32) : (sectors x).toNat = (x.toNat + 4095) % 2 ^ 32 / 4096 * 8 := by
  have hpage : (x + 4096 - 1).toNat = (x.toNat + 4095) % 2 ^ 32 := by
    rw [UInt32.toNat_sub, UInt32.toNat_add]
    simp
    omega
  unfold sectors DIV_ROUND_UP BOOT_IMAGE_HEADER_V3_PAGESIZE
  rw [UInt32.toNat_mul, UInt32.toNat_div, hpage]
  have hper : sectorsPerPage.toNat = 8 := by decide
  rw [hper]
  simp
  omega

/-- The header lies behind the whole pages of the download. -/
theorem toNat_align (x : UInt32) : (ALIGN x PAGE_SIZE).toNat = (sectors x).toNat * BLKSZ := by
  unfold ALIGN PAGE_SIZE
  rw [show (4096 : UInt32) - 1 = 4095 from rfl, toNat_clearLow _ (k := 12) (by decide) rfl, UInt32.toNat_add, toNat_sectors]
  unfold BLKSZ
  simp
  omega

/-- A section in bytes, from page to page. -/
def pageAlign (size : UInt32) : ℕ := (size.toNat + 4095) / 4096 * 4096

/-- The sizes in the last page of the range of a size count as none. -/
theorem sectors_eq {x : UInt32} (h : sectors x ≠ 0) : (sectors x).toNat * BLKSZ = pageAlign x := by
  have hx := x.toNat_lt
  have hne : (sectors x).toNat ≠ 0 := fun h0 => h (UInt32.toNat_inj.mp h0)
  rw [toNat_sectors] at hne ⊢
  unfold pageAlign BLKSZ
  omega

theorem toNat_kernelSectorStart (info : PartInfo) : (kernelSectorStart info).toNat = (info.start + 8) % 2 ^ 32 := by
  have hper : sectorsPerPage.toNat = 8 := by decide
  rw [kernelSectorStart, hper, UInt32.toNat_ofNat']

theorem toNat_ramdiskSectorStart (info : PartInfo) (x : UInt32) :
    (ramdiskSectorStart info x).toNat = (info.start + 8 + (sectors x).toNat) % 2 ^ 32 := by
  rw [ramdiskSectorStart, UInt32.toNat_add, toNat_kernelSectorStart, Nat.mod_add_mod]

/-! ## The accesses -/

variable (disk : Disk) (mem : Mem) (response : CStr) (info : PartInfo) (downloadBytes : UInt32)

def headerBlocks : ℕ := 4

def hdrAt : ℕ := (ALIGN downloadBytes PAGE_SIZE).toNat
def ramdiskBuffer : ℕ := hdrAt downloadBytes + headerBlocks * BLKSZ

def Magic : Prop := disk.mem.read (info.start * BLKSZ) 8 = ANDR_BOOT_MAGIC

instance : Decidable (Magic disk info) := inferInstanceAs (Decidable (_ = _))

def kernelSize : UInt32 := disk.mem.le32 (info.start * BLKSZ + kernelSizeAt)
def ramdiskSize : UInt32 := disk.mem.le32 (info.start * BLKSZ + ramdiskSizeAt)

/-- Where the code looks for the ramdisk, and where it puts it. -/
def oldRamdisk : ℕ := (ramdiskSectorStart info (kernelSize disk info)).toNat
def newRamdisk : ℕ := (ramdiskSectorStart info downloadBytes).toNat

/-- What the device gets done of the access with an index. -/
def got (i blk asked : ℕ) : ℕ := min (min (disk.io (disk.pos + i)) asked) (disk.lba.toNat - blk)

def headerGot : ℕ := got disk 0 info.start headerBlocks
def ramdiskGot : ℕ := got disk 1 (oldRamdisk disk info) (sectors (ramdiskSize disk info)).toNat
def headerPut : ℕ := got disk 2 info.start headerBlocks
def kernelPut : ℕ := got disk 3 (kernelSectorStart info).toNat (sectors downloadBytes).toNat
def ramdiskPut : ℕ := got disk 4 (newRamdisk info downloadBytes) (sectors (ramdiskSize disk info)).toNat

def readHeader : Access := ⟨false, info.start, headerBlocks, headerGot disk info, hdrAt downloadBytes⟩

def readRamdisk : Access :=
  ⟨false, oldRamdisk disk info, (sectors (ramdiskSize disk info)).toNat, ramdiskGot disk info, ramdiskBuffer downloadBytes⟩

def writeHeader : Access := ⟨true, info.start, headerBlocks, headerPut disk info, hdrAt downloadBytes⟩

def writeKernel : Access :=
  ⟨true, (kernelSectorStart info).toNat, (sectors downloadBytes).toNat, kernelPut disk info downloadBytes, 0⟩

def writeRamdisk : Access :=
  ⟨true, newRamdisk info downloadBytes, (sectors (ramdiskSize disk info)).toNat, ramdiskPut disk info downloadBytes,
    ramdiskBuffer downloadBytes⟩

/-- The buffer with the header behind the download. -/
def headerKept : Mem :=
  mem.copy (hdrAt downloadBytes) disk.mem (info.start * BLKSZ) (headerBlocks * BLKSZ)

/-- The buffer with the ramdisk behind both. -/
def ramdiskKept : Mem :=
  (headerKept disk mem info downloadBytes).copy (ramdiskBuffer downloadBytes) disk.mem (oldRamdisk disk info * BLKSZ)
    ((sectors (ramdiskSize disk info)).toNat * BLKSZ)

/-- The buffer that the writes take from: the kernel has its new size. -/
def kept : Mem :=
  (ramdiskKept disk mem info downloadBytes).setLe32 (hdrAt downloadBytes + kernelSizeAt) downloadBytes

/-- The bytes of the device after each of the writes. -/
def headerWritten : Mem :=
  disk.mem.copy (info.start * BLKSZ) (kept disk mem info downloadBytes) (hdrAt downloadBytes)
    (headerPut disk info * BLKSZ)

def kernelWritten : Mem :=
  (headerWritten disk mem info downloadBytes).copy ((kernelSectorStart info).toNat * BLKSZ)
    (kept disk mem info downloadBytes) 0 (kernelPut disk info downloadBytes * BLKSZ)

def ramdiskWritten : Mem :=
  (kernelWritten disk mem info downloadBytes).copy (newRamdisk info downloadBytes * BLKSZ)
    (kept disk mem info downloadBytes) (ramdiskBuffer downloadBytes) (ramdiskPut disk info downloadBytes * BLKSZ)

/-! ## The run -/

/-- What can be seen of a run: its result, the response, the bytes of the device and the accesses. -/
structure Result where
  ret : ℤ
  response : CStr
  disk : Mem
  log : List Access

def Result.of (r : ℤ × State) : Result := ⟨r.1, r.2.response, r.2.disk.mem, r.2.log⟩

def result : Result := .of (fbMmcUpdateZimage (some info) downloadBytes ⟨disk, mem, response, []⟩)

def refused (reason : String) (disk : Mem) (log : List Access) : Result := ⟨-1, fastbootFail (ascii reason), disk, log⟩

theorem run_bind {α β : Type} {x : StateM State α} {s s' : State} {a : α} (h : x s = (a, s')) (f : α → StateM State β) :
    (x >>= f) s = f a s' := by
  change (match x s with | (a, s) => f a s) = _
  rw [h]

/-- The state after a number of accesses. -/
def reached (k : ℕ) (bytes buf : Mem) (log : List Access) : State :=
  ⟨{ disk with mem := bytes, pos := disk.pos + k }, buf, response, log⟩

theorem start_eq : (⟨disk, mem, response, []⟩ : State) = reached disk response 0 disk.mem mem [] := rfl

theorem blkDread_header :
    blkDread info.start headerBlocks (hdrAt downloadBytes) (reached disk response 0 disk.mem mem []) =
      (headerGot disk info, reached disk response 1 disk.mem
        (mem.copy (hdrAt downloadBytes) disk.mem (info.start * BLKSZ) (headerGot disk info * BLKSZ))
        [readHeader disk info downloadBytes]) := rfl

theorem headerKept_le32 {off : ℕ} (h : off + 4 ≤ 16) :
    (headerKept disk mem info downloadBytes).le32 (hdrAt downloadBytes + off) =
      disk.mem.le32 (info.start * BLKSZ + off) := by
  apply Mem.le32_congr
  intro i hi
  rw [headerKept, Nat.add_assoc, Mem.copy_add _ _ _ _ _ _ (by unfold headerBlocks BLKSZ; omega), Nat.add_assoc]

/-- The check of the magic text sees the first bytes of the partition. -/
theorem androidImageCheckHeader_eq (log : List Access) :
    androidImageCheckHeader (hdrAt downloadBytes)
        (reached disk response 1 disk.mem (headerKept disk mem info downloadBytes) log) =
      (decide (Magic disk info), reached disk response 1 disk.mem (headerKept disk mem info downloadBytes) log) := by
  have hread : (headerKept disk mem info downloadBytes).read (hdrAt downloadBytes) 8 =
      disk.mem.read (info.start * BLKSZ) 8 := by
    unfold headerKept
    rw [Mem.read_copy_in _ _ _ _ _ _ _ le_rfl (by unfold headerBlocks BLKSZ; omega), Nat.sub_self, Nat.add_zero]
  refine Prod.ext (decide_eq_decide.mpr ?_) rfl
  unfold Magic
  rw [← hread]
  rfl

theorem hdrSectors_eq : (BOOT_IMG_HDR_V3_SIZE + BLKSZ - 1) / BLKSZ = headerBlocks := by decide

/-- The header is taken if all of it is read and it starts with the magic text. -/
theorem fbMmcGetBootHeader_ok (hgot : headerGot disk info = headerBlocks) (hmagic : Magic disk info) :
    fbMmcGetBootHeader info (hdrAt downloadBytes) (reached disk response 0 disk.mem mem []) =
      (headerBlocks, reached disk response 1 disk.mem (headerKept disk mem info downloadBytes)
        [readHeader disk info downloadBytes]) := by
  unfold fbMmcGetBootHeader
  rw [hdrSectors_eq, if_neg (by decide), run_bind (blkDread_header disk mem response info downloadBytes),
    if_neg (not_not.mpr hgot), hgot, ← headerKept,
    run_bind (androidImageCheckHeader_eq disk mem response info downloadBytes _), decide_eq_true hmagic]
  rfl

theorem fbMmcGetBootHeader_fails (h : ¬ (headerGot disk info = headerBlocks ∧ Magic disk info)) :
    ∃ text buf, fbMmcGetBootHeader info (hdrAt downloadBytes) (reached disk response 0 disk.mem mem []) =
      (0, reached disk text 1 disk.mem buf [readHeader disk info downloadBytes]) := by
  unfold fbMmcGetBootHeader
  rw [hdrSectors_eq, if_neg (by decide), run_bind (blkDread_header disk mem response info downloadBytes)]
  by_cases hgot : headerGot disk info = headerBlocks
  · have hmagic : ¬ Magic disk info := fun hm => h ⟨hgot, hm⟩
    rw [if_neg (not_not.mpr hgot), hgot, ← headerKept,
      run_bind (androidImageCheckHeader_eq disk mem response info downloadBytes _), decide_eq_false hmagic]
    exact ⟨_, _, rfl⟩
  · rw [if_pos hgot]
    exact ⟨_, _, rfl⟩

theorem header_refused (h : ¬ (headerGot disk info = headerBlocks ∧ Magic disk info)) :
    result disk mem response info downloadBytes =
      refused "unable to read boot image header" disk.mem [readHeader disk info downloadBytes] := by
  obtain ⟨text, buf, hrun⟩ := fbMmcGetBootHeader_fails disk mem response info downloadBytes h
  unfold result fbMmcUpdateZimage
  dsimp only
  rw [← hdrAt, start_eq, run_bind hrun]
  rfl

theorem blkDread_ramdisk :
    blkDread (oldRamdisk disk info) (sectors (ramdiskSize disk info)).toNat (ramdiskBuffer downloadBytes)
        (reached disk response 1 disk.mem (headerKept disk mem info downloadBytes)
          [readHeader disk info downloadBytes]) =
      (ramdiskGot disk info, reached disk response 2 disk.mem
        ((headerKept disk mem info downloadBytes).copy (ramdiskBuffer downloadBytes) disk.mem
          (oldRamdisk disk info * BLKSZ) (ramdiskGot disk info * BLKSZ))
        [readHeader disk info downloadBytes, readRamdisk disk info downloadBytes]) := rfl

/-- What is left to do once the header is there. -/
theorem run_after_header (hgot : headerGot disk info = headerBlocks) (hmagic : Magic disk info) :
    fbMmcUpdateZimage (some info) downloadBytes ⟨disk, mem, response, []⟩ =
      (if ramdiskGot disk info ≠ (sectors (ramdiskSize disk info)).toNat then do
          fail "cannot read ramdisk from boot partition"
          return -1
        else writeBack info downloadBytes (hdrAt downloadBytes) headerBlocks (ramdiskBuffer downloadBytes)
          (sectors (ramdiskSize disk info)))
        (reached disk response 2 disk.mem
          ((headerKept disk mem info downloadBytes).copy (ramdiskBuffer downloadBytes) disk.mem
            (oldRamdisk disk info * BLKSZ) (ramdiskGot disk info * BLKSZ))
          [readHeader disk info downloadBytes, readRamdisk disk info downloadBytes]) := by
  have hfield : ∀ {off : ℕ}, off + 4 ≤ 16 → ∀ log, getField (hdrAt downloadBytes + off)
      (reached disk response 1 disk.mem (headerKept disk mem info downloadBytes) log) =
      (disk.mem.le32 (info.start * BLKSZ + off),
        reached disk response 1 disk.mem (headerKept disk mem info downloadBytes) log) := fun hoff log => by
    rw [← headerKept_le32 disk mem info downloadBytes hoff]
    rfl
  unfold fbMmcUpdateZimage
  dsimp only
  rw [← hdrAt, start_eq, run_bind (fbMmcGetBootHeader_ok disk mem response info downloadBytes hgot hmagic), if_neg (by decide),
    run_bind (hfield (by decide) _), run_bind (hfield (by decide) _)]
  rw [← kernelSize, ← ramdiskSize, ← oldRamdisk, ← ramdiskBuffer,
    run_bind (blkDread_ramdisk disk mem response info downloadBytes)]

theorem ramdisk_refused (hgot : headerGot disk info = headerBlocks) (hmagic : Magic disk info)
    (hr : ramdiskGot disk info ≠ (sectors (ramdiskSize disk info)).toNat) :
    result disk mem response info downloadBytes =
      refused "cannot read ramdisk from boot partition" disk.mem
        [readHeader disk info downloadBytes, readRamdisk disk info downloadBytes] := by
  rw [result, run_after_header disk mem response info downloadBytes hgot hmagic, if_pos hr]
  rfl

/-- The header and the ramdisk are in the buffer. -/
structure AllRead : Prop where
  header : headerGot disk info = headerBlocks
  magic : Magic disk info
  ramdisk : ramdiskGot disk info = (sectors (ramdiskSize disk info)).toNat

variable {disk info}

theorem result_writeBack (h : AllRead disk info) :
    result disk mem response info downloadBytes =
      .of (writeBack info downloadBytes (hdrAt downloadBytes) headerBlocks (ramdiskBuffer downloadBytes)
        (sectors (ramdiskSize disk info)) (reached disk response 2 disk.mem (ramdiskKept disk mem info downloadBytes)
          [readHeader disk info downloadBytes, readRamdisk disk info downloadBytes])) := by
  rw [result, run_after_header disk mem response info downloadBytes h.header h.magic, if_neg (not_not.mpr h.ramdisk),
    h.ramdisk, ← ramdiskKept]

variable (disk info) in
theorem setField_kept (log : List Access) :
    setField (hdrAt downloadBytes + kernelSizeAt) downloadBytes
        (reached disk response 2 disk.mem (ramdiskKept disk mem info downloadBytes) log) =
      ((), reached disk response 2 disk.mem (kept disk mem info downloadBytes) log) := rfl

variable (disk info) in
theorem getField_kept (k : ℕ) (bytes : Mem) (log : List Access) :
    getField (hdrAt downloadBytes + kernelSizeAt) (reached disk response k bytes (kept disk mem info downloadBytes) log) =
      (downloadBytes, reached disk response k bytes (kept disk mem info downloadBytes) log) :=
  Prod.ext (Mem.le32_setLe32 _ _ _) rfl

variable (disk info) in
theorem blkDwrite_header (log : List Access) :
    blkDwrite info.start headerBlocks (hdrAt downloadBytes)
        (reached disk response 2 disk.mem (kept disk mem info downloadBytes) log) =
      (headerPut disk info, reached disk response 3 (headerWritten disk mem info downloadBytes)
        (kept disk mem info downloadBytes) (log ++ [writeHeader disk info downloadBytes])) := rfl

variable (disk info) in
theorem blkDwrite_kernel (log : List Access) :
    blkDwrite (kernelSectorStart info).toNat (sectors downloadBytes).toNat 0
        (reached disk response 3 (headerWritten disk mem info downloadBytes) (kept disk mem info downloadBytes) log) =
      (kernelPut disk info downloadBytes, reached disk response 4 (kernelWritten disk mem info downloadBytes)
        (kept disk mem info downloadBytes) (log ++ [writeKernel disk info downloadBytes])) := rfl

variable (disk info) in
theorem blkDwrite_ramdisk (log : List Access) :
    blkDwrite (ramdiskSectorStart info downloadBytes).toNat (sectors (ramdiskSize disk info)).toNat
        (ramdiskBuffer downloadBytes)
        (reached disk response 4 (kernelWritten disk mem info downloadBytes) (kept disk mem info downloadBytes) log) =
      (ramdiskPut disk info downloadBytes, reached disk response 5 (ramdiskWritten disk mem info downloadBytes)
        (kept disk mem info downloadBytes) (log ++ [writeRamdisk disk info downloadBytes])) := rfl

theorem header_not_written (h : AllRead disk info) (hput : headerPut disk info = 0) :
    result disk mem response info downloadBytes =
      refused "cannot write back boot image header" (headerWritten disk mem info downloadBytes)
        [readHeader disk info downloadBytes, readRamdisk disk info downloadBytes, writeHeader disk info downloadBytes] := by
  rw [result_writeBack mem response downloadBytes h]
  unfold writeBack
  rw [run_bind (setField_kept disk mem response info downloadBytes _),
    run_bind (blkDwrite_header disk mem response info downloadBytes _), if_pos hput]
  rfl

theorem kernel_not_written (h : AllRead disk info) (hput : headerPut disk info ≠ 0)
    (hkernel : kernelPut disk info downloadBytes = 0) :
    result disk mem response info downloadBytes =
      refused "cannot write new kernel" (kernelWritten disk mem info downloadBytes)
        [readHeader disk info downloadBytes, readRamdisk disk info downloadBytes, writeHeader disk info downloadBytes,
          writeKernel disk info downloadBytes] := by
  rw [result_writeBack mem response downloadBytes h]
  unfold writeBack
  rw [run_bind (setField_kept disk mem response info downloadBytes _),
    run_bind (blkDwrite_header disk mem response info downloadBytes _), if_neg hput,
    run_bind (getField_kept disk mem response info downloadBytes _ _ _),
    run_bind (blkDwrite_kernel disk mem response info downloadBytes _), if_pos hkernel]
  rfl

/-- The accesses of a run that gets to the last write. -/
def allAccesses (disk : Disk) (info : PartInfo) : List Access :=
  [readHeader disk info downloadBytes, readRamdisk disk info downloadBytes, writeHeader disk info downloadBytes,
    writeKernel disk info downloadBytes, writeRamdisk disk info downloadBytes]

theorem ramdisk_write_decides (h : AllRead disk info) (hput : headerPut disk info ≠ 0)
    (hkernel : kernelPut disk info downloadBytes ≠ 0) :
    result disk mem response info downloadBytes =
      if ramdiskPut disk info downloadBytes = 0 then
        refused "cannot write back original ramdisk" (ramdiskWritten disk mem info downloadBytes)
          (allAccesses downloadBytes disk info)
      else ⟨0, fastbootOkay, ramdiskWritten disk mem info downloadBytes, allAccesses downloadBytes disk info⟩ := by
  rw [result_writeBack mem response downloadBytes h]
  unfold writeBack
  rw [run_bind (setField_kept disk mem response info downloadBytes _),
    run_bind (blkDwrite_header disk mem response info downloadBytes _), if_neg hput,
    run_bind (getField_kept disk mem response info downloadBytes _ _ _),
    run_bind (blkDwrite_kernel disk mem response info downloadBytes _), if_neg hkernel,
    run_bind (getField_kept disk mem response info downloadBytes _ _ _),
    run_bind (blkDwrite_ramdisk disk mem response info downloadBytes _)]
  by_cases hramdisk : ramdiskPut disk info downloadBytes = 0
  · rw [if_pos hramdisk, if_pos hramdisk]
    rfl
  · rw [if_neg hramdisk, if_neg hramdisk]
    rfl

/-! ## The bytes -/

theorem kept_low {i : ℕ} (hi : i < hdrAt downloadBytes) : kept disk mem info downloadBytes i = mem i := by
  rw [kept, Mem.setLe32_out (by omega), ramdiskKept, Mem.copy_out _ _ _ _ _ _ (by unfold ramdiskBuffer; omega), headerKept,
    Mem.copy_out _ _ _ _ _ _ (by omega)]

theorem kept_ramdisk {i : ℕ} (hi : i < (sectors (ramdiskSize disk info)).toNat * BLKSZ) :
    kept disk mem info downloadBytes (ramdiskBuffer downloadBytes + i) = disk.mem (oldRamdisk disk info * BLKSZ + i) := by
  rw [kept, Mem.setLe32_out (by unfold ramdiskBuffer headerBlocks BLKSZ kernelSizeAt; omega), ramdiskKept,
    Mem.copy_add _ _ _ _ _ _ hi]

/-- A write of the header, whole or not, changes the kernel's size alone. -/
theorem headerWritten_eq (hput : headerPut disk info ≠ 0) :
    headerWritten disk mem info downloadBytes = disk.mem.setLe32 (info.start * BLKSZ + kernelSizeAt) downloadBytes := by
  have hle : headerPut disk info ≤ headerBlocks := (Nat.min_le_left _ _).trans (Nat.min_le_right _ _)
  unfold headerBlocks at hle
  funext a
  by_cases ha : info.start * BLKSZ ≤ a ∧ a < info.start * BLKSZ + headerPut disk info * BLKSZ
  · obtain ⟨i, rfl⟩ := Nat.exists_eq_add_of_le ha.1
    unfold BLKSZ at ha
    rw [headerWritten, Mem.copy_add _ _ _ _ _ _ (by unfold BLKSZ; omega), kept]
    by_cases hfield : kernelSizeAt ≤ i ∧ i < kernelSizeAt + 4
    · unfold Mem.setLe32
      rw [if_pos (by omega), if_pos (by omega), Nat.add_sub_add_left, Nat.add_sub_add_left]
    · rw [Mem.setLe32_out (by omega), Mem.setLe32_out (by omega), ramdiskKept,
        Mem.copy_out _ _ _ _ _ _ (by unfold ramdiskBuffer headerBlocks BLKSZ; omega), headerKept,
        Mem.copy_add _ _ _ _ _ _ (by unfold headerBlocks BLKSZ; omega)]
  · have hfield : a < info.start * BLKSZ + kernelSizeAt ∨ info.start * BLKSZ + kernelSizeAt + 4 ≤ a := by
      unfold BLKSZ kernelSizeAt at *
      omega
    rw [headerWritten, Mem.copy_out _ _ _ _ _ _ (by omega), Mem.setLe32_out hfield]

/-! ## Sound runs -/

variable (disk info) in
/-- The boot image with the download for its kernel, in place of the old one. -/
structure Stored (bytes : Mem) : Prop where
  header : ∀ i < BOOT_IMG_HDR_V3_SIZE, bytes (info.start * BLKSZ + i) =
    disk.mem.setLe32 (info.start * BLKSZ + kernelSizeAt) downloadBytes (info.start * BLKSZ + i)
  kernel : ∀ i < downloadBytes.toNat, bytes (info.start * BLKSZ + 4096 + i) = mem i
  ramdisk : ∀ i < (ramdiskSize disk info).toNat, bytes (info.start * BLKSZ + 4096 + pageAlign downloadBytes + i) =
    disk.mem (info.start * BLKSZ + 4096 + pageAlign (kernelSize disk info) + i)

variable (disk info) in
def Unchanged (bytes : Mem) : Prop := ∀ a, info.Covers a → bytes a = disk.mem a

def Result.Okay (r : Result) : Prop := r.ret = 0 ∧ r.response = fastbootOkay
def Result.Refused (r : Result) : Prop := r.ret = -1 ∧ r.response ≠ fastbootOkay

variable (info) in
def Access.InPartition (a : Access) : Prop :=
  a.write = true → a.done ≠ 0 → info.start ≤ a.blk ∧ a.blk + a.done ≤ info.start + info.size

def Access.InBuffer (bufSize : UInt32) (a : Access) : Prop := a.done ≠ 0 → a.addr + a.done * BLKSZ ≤ bufSize.toNat

variable (disk info) in
/-- What a run must be like: with whole accesses it is refused without a change or stores the new image; it
reports success only for this; and it keeps to the partition and to the buffer. -/
structure Sound (bufSize : UInt32) (r : Result) : Prop where
  whole : (∀ a ∈ r.log, a.done = a.asked) →
    r.Refused ∧ Unchanged disk info r.disk ∨ r.Okay ∧ Stored disk mem info downloadBytes r.disk
  okay : r.Okay → Stored disk mem info downloadBytes r.disk
  inPartition : ∀ a ∈ r.log, a.InPartition info
  inBuffer : ∀ a ∈ r.log, a.InBuffer bufSize

theorem refused_okay (reason : String) (bytes : Mem) (log : List Access) : ¬ (refused reason bytes log).Okay :=
  fun h => absurd h.1 (show (-1 : ℤ) ≠ 0 by decide)

theorem sound_refused_iff {reason : String} (hreason : fastbootFail (ascii reason) ≠ fastbootOkay) (bufSize : UInt32)
    (bytes : Mem) (log : List Access) :
    Sound disk mem info downloadBytes bufSize (refused reason bytes log) ↔
      ((∀ a ∈ log, a.done = a.asked) → Unchanged disk info bytes) ∧ (∀ a ∈ log, a.InPartition info) ∧
        ∀ a ∈ log, a.InBuffer bufSize := by
  constructor
  · intro h
    refine ⟨fun hfull => ?_, h.inPartition, h.inBuffer⟩
    rcases h.whole hfull with hrefused | hokay
    · exact hrefused.2
    · exact absurd hokay.1 (refused_okay reason bytes log)
  · rintro ⟨hunchanged, hpart, hbuf⟩
    exact ⟨fun hfull => .inl ⟨⟨rfl, hreason⟩, hunchanged hfull⟩, fun h => absurd h (refused_okay reason bytes log), hpart,
      hbuf⟩

/-! ## Each access -/

variable (disk info) in
theorem headerPut_le : headerPut disk info ≤ headerBlocks := (Nat.min_le_left _ _).trans (Nat.min_le_right _ _)

variable (disk info) in
theorem kernelPut_le : kernelPut disk info downloadBytes ≤ (sectors downloadBytes).toNat :=
  (Nat.min_le_left _ _).trans (Nat.min_le_right _ _)

variable (disk info) in
theorem ramdiskPut_le : ramdiskPut disk info downloadBytes ≤ (sectors (ramdiskSize disk info)).toNat :=
  (Nat.min_le_left _ _).trans (Nat.min_le_right _ _)

variable (disk info) in
theorem writeHeader_inPartition_iff :
    (writeHeader disk info downloadBytes).InPartition info ↔ headerPut disk info ≤ info.size := by
  simp only [Access.InPartition, writeHeader, forall_const]
  omega

variable (disk info) in
/-- A sector number that does not fit 32 bits is a sector before the partition. -/
theorem writeKernel_inPartition_iff (hput : kernelPut disk info downloadBytes ≠ 0) :
    (writeKernel disk info downloadBytes).InPartition info ↔
      info.start + 8 < 2 ^ 32 ∧ 8 + kernelPut disk info downloadBytes ≤ info.size := by
  simp only [Access.InPartition, writeKernel, toNat_kernelSectorStart, forall_const]
  omega

variable (disk info) in
theorem writeRamdisk_inPartition_iff (hput : ramdiskPut disk info downloadBytes ≠ 0) :
    (writeRamdisk disk info downloadBytes).InPartition info ↔
      info.start + 8 + (sectors downloadBytes).toNat < 2 ^ 32 ∧
        8 + (sectors downloadBytes).toNat + ramdiskPut disk info downloadBytes ≤ info.size := by
  have hsectors := toNat_sectors downloadBytes
  simp only [Access.InPartition, writeRamdisk, newRamdisk, toNat_ramdiskSectorStart, forall_const]
  omega

/-- What the reads fit into the buffer, the writes take from it. -/
theorem writeHeader_inBuffer (h : AllRead disk info) {bufSize : UInt32}
    (hbuf : (readHeader disk info downloadBytes).InBuffer bufSize) :
    (writeHeader disk info downloadBytes).InBuffer bufSize := by
  have hread := h.header
  have hle := headerPut_le disk info
  intro _
  simp only [Access.InBuffer, readHeader, hread, headerBlocks] at hbuf
  simp only [writeHeader, BLKSZ, headerBlocks] at *
  omega

theorem writeKernel_inBuffer (h : AllRead disk info) {bufSize : UInt32}
    (hbuf : (readHeader disk info downloadBytes).InBuffer bufSize) :
    (writeKernel disk info downloadBytes).InBuffer bufSize := by
  have hread := h.header
  have hle := kernelPut_le disk info downloadBytes
  have halign := toNat_align downloadBytes
  intro _
  simp only [Access.InBuffer, readHeader, hread, headerBlocks, hdrAt, halign] at hbuf
  simp only [writeKernel, BLKSZ] at *
  omega

theorem writeRamdisk_inBuffer (h : AllRead disk info) {bufSize : UInt32}
    (hbuf : (readRamdisk disk info downloadBytes).InBuffer bufSize) :
    (writeRamdisk disk info downloadBytes).InBuffer bufSize := by
  have hread := h.ramdisk
  have hle := ramdiskPut_le disk info downloadBytes
  intro hput
  simp only [Access.InBuffer, readRamdisk, hread] at hbuf
  simp only [writeRamdisk, BLKSZ] at *
  omega

theorem readHeader_inPartition : (readHeader disk info downloadBytes).InPartition info :=
  fun h => absurd h Bool.false_ne_true

theorem readRamdisk_inPartition : (readRamdisk disk info downloadBytes).InPartition info :=
  fun h => absurd h Bool.false_ne_true

/-! ## What changes -/

/-- The header is as before only if the size of the kernel is. -/
theorem headerWritten_unchanged_iff (hput : headerPut disk info ≠ 0) (hsize : headerPut disk info ≤ info.size) :
    Unchanged disk info (headerWritten disk mem info downloadBytes) ↔ kernelSize disk info = downloadBytes := by
  rw [headerWritten_eq mem downloadBytes hput]
  constructor
  · intro h
    have hfield : (disk.mem.setLe32 (info.start * BLKSZ + kernelSizeAt) downloadBytes).le32
        (info.start * BLKSZ + kernelSizeAt) = kernelSize disk info := by
      apply Mem.le32_congr
      intro i hi
      apply h
      unfold PartInfo.Covers BLKSZ kernelSizeAt
      omega
    rw [← hfield, Mem.le32_setLe32]
  · intro h a _
    rw [← h, kernelSize, Mem.setLe32_le32, Mem.copy_self]

theorem kernelStart_eq (hplace : info.start + 8 < 2 ^ 32) :
    (kernelSectorStart info).toNat * BLKSZ = info.start * BLKSZ + 4096 := by
  rw [toNat_kernelSectorStart, Nat.mod_eq_of_lt hplace]
  unfold BLKSZ
  omega

/-- And the kernel only if the download is the old one, over the sectors that are written. -/
theorem kernelWritten_unchanged_iff (hput : headerPut disk info ≠ 0) (hsize : headerPut disk info ≤ info.size)
    (hplace : info.start + 8 < 2 ^ 32) (hfits : 8 + kernelPut disk info downloadBytes ≤ info.size) :
    Unchanged disk info (kernelWritten disk mem info downloadBytes) ↔
      kernelSize disk info = downloadBytes ∧
        ∀ i < kernelPut disk info downloadBytes * BLKSZ, disk.mem (info.start * BLKSZ + 4096 + i) = mem i := by
  have hstart := kernelStart_eq hplace
  have hlow : kernelPut disk info downloadBytes * BLKSZ ≤ hdrAt downloadBytes := by
    rw [hdrAt, toNat_align]
    exact Nat.mul_le_mul_right _ (kernelPut_le disk info downloadBytes)
  have hin : ∀ i < kernelPut disk info downloadBytes * BLKSZ,
      kernelWritten disk mem info downloadBytes (info.start * BLKSZ + 4096 + i) = mem i := fun i hi => by
    rw [kernelWritten, hstart, Mem.copy_add _ _ _ _ _ _ hi, Nat.zero_add, kept_low mem downloadBytes (hi.trans_le hlow)]
  have hout : ∀ a, (a < info.start * BLKSZ + 4096 ∨
      info.start * BLKSZ + 4096 + kernelPut disk info downloadBytes * BLKSZ ≤ a) →
      kernelWritten disk mem info downloadBytes a = headerWritten disk mem info downloadBytes a := fun a ha => by
    rw [kernelWritten, hstart, Mem.copy_out _ _ _ _ _ _ ha]
  constructor
  · intro h
    have hkernel : ∀ i < kernelPut disk info downloadBytes * BLKSZ,
        disk.mem (info.start * BLKSZ + 4096 + i) = mem i := fun i hi => by
      rw [← hin i hi]
      exact (h _ (by unfold PartInfo.Covers BLKSZ at *; omega)).symm
    refine ⟨?_, hkernel⟩
    rw [← headerWritten_unchanged_iff mem downloadBytes hput hsize]
    intro a ha
    by_cases hkernelArea : info.start * BLKSZ + 4096 ≤ a
    · rw [headerWritten_eq mem downloadBytes hput, Mem.setLe32_out (by unfold kernelSizeAt; omega)]
    · rw [← hout a (.inl (not_le.mp hkernelArea))]
      exact h a ha
  · rintro ⟨hfield, hkernel⟩ a ha
    by_cases hkernelArea : info.start * BLKSZ + 4096 ≤ a ∧
        a < info.start * BLKSZ + 4096 + kernelPut disk info downloadBytes * BLKSZ
    · obtain ⟨i, rfl⟩ := Nat.exists_eq_add_of_le hkernelArea.1
      rw [hin i (by omega), hkernel i (by omega)]
    · rw [hout a (by omega)]
      exact (headerWritten_unchanged_iff mem downloadBytes hput hsize).mpr hfield a ha

/-! ## What is stored -/

variable (disk info) in
/-- What a short write of the kernel left out is there already. -/
def KernelWhole : Prop :=
  ∀ i < downloadBytes.toNat, kernelPut disk info downloadBytes * BLKSZ ≤ i →
    disk.mem (info.start * BLKSZ + 4096 + i) = mem i

variable (disk info) in
/-- The ramdisk was read from its place, and what a short write of it left out is there already; or the bytes
that were taken or left happen to be the same. -/
def RamdiskWhole : Prop :=
  ∀ i < (ramdiskSize disk info).toNat,
    (if i < ramdiskPut disk info downloadBytes * BLKSZ then disk.mem (oldRamdisk disk info * BLKSZ + i)
      else disk.mem (info.start * BLKSZ + 4096 + pageAlign downloadBytes + i)) =
        disk.mem (info.start * BLKSZ + 4096 + pageAlign (kernelSize disk info) + i)

section Placed

variable (hput : headerPut disk info ≠ 0) (hkernel : kernelPut disk info downloadBytes ≠ 0)
  (hplace : info.start + 8 + (sectors downloadBytes).toNat < 2 ^ 32)

include hkernel in
theorem sectors_download : (sectors downloadBytes).toNat * BLKSZ = pageAlign downloadBytes := by
  apply sectors_eq
  intro h
  have hle := kernelPut_le disk info downloadBytes
  rw [h] at hle
  exact hkernel (Nat.le_zero.mp hle)

include hkernel hplace in
theorem newRamdisk_eq : newRamdisk info downloadBytes * BLKSZ = info.start * BLKSZ + 4096 + pageAlign downloadBytes := by
  rw [newRamdisk, toNat_ramdiskSectorStart, Nat.mod_eq_of_lt hplace, ← sectors_download downloadBytes hkernel]
  unfold BLKSZ
  omega

include hkernel hplace in
theorem ramdiskWritten_ramdisk (i : ℕ) :
    ramdiskWritten disk mem info downloadBytes (info.start * BLKSZ + 4096 + pageAlign downloadBytes + i) =
      if i < ramdiskPut disk info downloadBytes * BLKSZ then disk.mem (oldRamdisk disk info * BLKSZ + i)
      else disk.mem (info.start * BLKSZ + 4096 + pageAlign downloadBytes + i) := by
  have hkernelEnd : kernelPut disk info downloadBytes * BLKSZ ≤ pageAlign downloadBytes := by
    rw [← sectors_download downloadBytes hkernel]
    exact Nat.mul_le_mul_right _ (kernelPut_le disk info downloadBytes)
  rw [ramdiskWritten, newRamdisk_eq downloadBytes hkernel hplace]
  split_ifs with hi
  · rw [Mem.copy_add _ _ _ _ _ _ hi, kept_ramdisk mem downloadBytes]
    exact hi.trans_le (Nat.mul_le_mul_right _ (ramdiskPut_le disk info downloadBytes))
  · rw [Mem.copy_out _ _ _ _ _ _ (by omega), kernelWritten, kernelStart_eq (by omega),
      Mem.copy_out _ _ _ _ _ _ (by omega)]
    by_cases hheader : headerPut disk info = 0
    · rw [headerWritten, hheader, Nat.zero_mul, Mem.copy_zero]
    · rw [headerWritten_eq mem downloadBytes hheader, Mem.setLe32_out (by unfold kernelSizeAt; omega)]

include hput hkernel hplace in
theorem ramdiskWritten_kernel {i : ℕ} (hi : i < downloadBytes.toNat) :
    ramdiskWritten disk mem info downloadBytes (info.start * BLKSZ + 4096 + i) =
      if i < kernelPut disk info downloadBytes * BLKSZ then mem i else disk.mem (info.start * BLKSZ + 4096 + i) := by
  have hsectors := sectors_download downloadBytes hkernel
  have hpage : downloadBytes.toNat ≤ pageAlign downloadBytes := by unfold pageAlign; omega
  rw [ramdiskWritten, newRamdisk_eq downloadBytes hkernel hplace, Mem.copy_out _ _ _ _ _ _ (.inl (by omega)),
    kernelWritten, kernelStart_eq (by omega)]
  split_ifs with hmoved
  · rw [Mem.copy_add _ _ _ _ _ _ hmoved, Nat.zero_add, kept_low mem downloadBytes]
    rw [hdrAt, toNat_align]
    omega
  · rw [Mem.copy_out _ _ _ _ _ _ (by omega), headerWritten_eq mem downloadBytes hput,
      Mem.setLe32_out (by unfold kernelSizeAt; omega)]

include hput hkernel hplace in
theorem ramdiskWritten_header {i : ℕ} (hi : i < BOOT_IMG_HDR_V3_SIZE) :
    ramdiskWritten disk mem info downloadBytes (info.start * BLKSZ + i) =
      disk.mem.setLe32 (info.start * BLKSZ + kernelSizeAt) downloadBytes (info.start * BLKSZ + i) := by
  unfold BOOT_IMG_HDR_V3_SIZE at hi
  rw [ramdiskWritten, newRamdisk_eq downloadBytes hkernel hplace, Mem.copy_out _ _ _ _ _ _ (.inl (by omega)),
    kernelWritten, kernelStart_eq (by omega), Mem.copy_out _ _ _ _ _ _ (.inl (by omega)),
    headerWritten_eq mem downloadBytes hput]

include hput hkernel hplace in
theorem stored_iff :
    Stored disk mem info downloadBytes (ramdiskWritten disk mem info downloadBytes) ↔
      KernelWhole disk mem info downloadBytes ∧ RamdiskWhole disk info downloadBytes := by
  constructor
  · intro h
    constructor
    · intro i hi hleft
      rw [← h.kernel i hi, ramdiskWritten_kernel mem downloadBytes hput hkernel hplace hi, if_neg (not_lt.mpr hleft)]
    · intro i hi
      rw [← ramdiskWritten_ramdisk mem downloadBytes hkernel hplace, h.ramdisk i hi]
  · rintro ⟨hwhole, hramdisk⟩
    refine ⟨fun i hi => ramdiskWritten_header mem downloadBytes hput hkernel hplace hi, fun i hi => ?_, fun i hi => ?_⟩
    · rw [ramdiskWritten_kernel mem downloadBytes hput hkernel hplace hi]
      split_ifs with hmoved
      · rfl
      · exact hwhole i hi (not_lt.mp hmoved)
    · rw [ramdiskWritten_ramdisk mem downloadBytes hkernel hplace]
      exact hramdisk i hi

end Placed

/-! ## When a run is sound -/

section Conditions

variable (disk info)

/-- At the last write: if nothing is written, a ramdisk without sectors is no reason unless all is as it was; else
the ramdisk fits the partition and the new image is complete. -/
def RamdiskRight : Prop :=
  if ramdiskPut disk info downloadBytes = 0 then
    headerPut disk info = headerBlocks → kernelPut disk info downloadBytes = (sectors downloadBytes).toNat →
      (sectors (ramdiskSize disk info)).toNat = 0 →
        kernelSize disk info = downloadBytes ∧
          ∀ i < kernelPut disk info downloadBytes * BLKSZ, disk.mem (info.start * BLKSZ + 4096 + i) = mem i
  else
    info.start + 8 + (sectors downloadBytes).toNat < 2 ^ 32 ∧
      8 + (sectors downloadBytes).toNat + ramdiskPut disk info downloadBytes ≤ info.size ∧
        KernelWhole disk mem info downloadBytes ∧ RamdiskWhole disk info downloadBytes

/-- At the write of the kernel. -/
def KernelRight : Prop :=
  if kernelPut disk info downloadBytes = 0 then
    headerPut disk info = headerBlocks → (sectors downloadBytes).toNat = 0 → kernelSize disk info = downloadBytes
  else
    info.start + 8 < 2 ^ 32 ∧ 8 + kernelPut disk info downloadBytes ≤ info.size ∧ RamdiskRight disk mem info downloadBytes

/-- At the write of the header. -/
def HeaderRight : Prop :=
  headerPut disk info ≠ 0 → headerPut disk info ≤ info.size ∧ KernelRight disk mem info downloadBytes

/-- From the first access on. -/
def Right (bufSize : UInt32) : Prop :=
  (readHeader disk info downloadBytes).InBuffer bufSize ∧
    (headerGot disk info = headerBlocks → Magic disk info →
      (readRamdisk disk info downloadBytes).InBuffer bufSize ∧
        (ramdiskGot disk info = (sectors (ramdiskSize disk info)).toNat → HeaderRight disk mem info downloadBytes))

end Conditions

theorem sound_header_refused (h : ¬ (headerGot disk info = headerBlocks ∧ Magic disk info)) (bufSize : UInt32) :
    Sound disk mem info downloadBytes bufSize (result disk mem response info downloadBytes) ↔
      (readHeader disk info downloadBytes).InBuffer bufSize := by
  rw [header_refused disk mem response info downloadBytes h, sound_refused_iff mem downloadBytes (by decide)]
  simp only [List.forall_mem_singleton]
  exact ⟨fun hsound => hsound.2.2, fun hbuf => ⟨fun _ _ _ => rfl, readHeader_inPartition downloadBytes, hbuf⟩⟩

theorem sound_ramdisk_refused (hgot : headerGot disk info = headerBlocks) (hmagic : Magic disk info)
    (hr : ramdiskGot disk info ≠ (sectors (ramdiskSize disk info)).toNat) (bufSize : UInt32) :
    Sound disk mem info downloadBytes bufSize (result disk mem response info downloadBytes) ↔
      (readHeader disk info downloadBytes).InBuffer bufSize ∧ (readRamdisk disk info downloadBytes).InBuffer bufSize := by
  rw [ramdisk_refused disk mem response info downloadBytes hgot hmagic hr,
    sound_refused_iff mem downloadBytes (by decide)]
  simp only [List.forall_mem_cons, List.not_mem_nil, false_imp_iff, implies_true, and_true]
  exact ⟨fun hsound => hsound.2.2, fun hbuf => ⟨fun _ _ _ => rfl,
    ⟨readHeader_inPartition downloadBytes, readRamdisk_inPartition downloadBytes⟩, hbuf⟩⟩

/-- Both reads are in the log of every run that gets to the writes. -/
theorem result_reads_inBuffer (h : AllRead disk info) {bufSize : UInt32}
    (hsound : Sound disk mem info downloadBytes bufSize (result disk mem response info downloadBytes)) :
    (readHeader disk info downloadBytes).InBuffer bufSize ∧ (readRamdisk disk info downloadBytes).InBuffer bufSize := by
  have hlog : readHeader disk info downloadBytes ∈ (result disk mem response info downloadBytes).log ∧
      readRamdisk disk info downloadBytes ∈ (result disk mem response info downloadBytes).log := by
    by_cases hput : headerPut disk info = 0
    · rw [header_not_written mem response downloadBytes h hput]
      simp [refused]
    by_cases hkernel : kernelPut disk info downloadBytes = 0
    · rw [kernel_not_written mem response downloadBytes h hput hkernel]
      simp [refused]
    rw [ramdisk_write_decides mem response downloadBytes h hput hkernel]
    split_ifs <;> simp [refused, allAccesses]
  exact ⟨hsound.inBuffer _ hlog.1, hsound.inBuffer _ hlog.2⟩

section Writes

variable (h : AllRead disk info) {bufSize : UInt32} (hheader : (readHeader disk info downloadBytes).InBuffer bufSize)
  (hramdisk : (readRamdisk disk info downloadBytes).InBuffer bufSize)

include h hheader hramdisk

theorem sound_header_not_written (hput : headerPut disk info = 0) :
    Sound disk mem info downloadBytes bufSize (result disk mem response info downloadBytes) := by
  have hsame : headerWritten disk mem info downloadBytes = disk.mem := by
    rw [headerWritten, hput, Nat.zero_mul, Mem.copy_zero]
  rw [header_not_written mem response downloadBytes h hput, sound_refused_iff mem downloadBytes (by decide), hsame]
  simp only [List.forall_mem_cons, List.not_mem_nil, false_imp_iff, implies_true, and_true]
  exact ⟨fun _ _ _ => rfl, ⟨readHeader_inPartition downloadBytes, readRamdisk_inPartition downloadBytes,
    fun _ hdone => absurd hput hdone⟩, hheader, hramdisk, writeHeader_inBuffer downloadBytes h hheader⟩

theorem sound_kernel_not_written (hput : headerPut disk info ≠ 0) (hkernel : kernelPut disk info downloadBytes = 0) :
    Sound disk mem info downloadBytes bufSize (result disk mem response info downloadBytes) ↔
      headerPut disk info ≤ info.size ∧
        (headerPut disk info = headerBlocks → (sectors downloadBytes).toNat = 0 →
          kernelSize disk info = downloadBytes) := by
  have hsame : kernelWritten disk mem info downloadBytes = headerWritten disk mem info downloadBytes := by
    rw [kernelWritten, hkernel, Nat.zero_mul, Mem.copy_zero]
  rw [kernel_not_written mem response downloadBytes h hput hkernel, sound_refused_iff mem downloadBytes (by decide), hsame]
  simp only [List.forall_mem_cons, List.not_mem_nil, false_imp_iff, implies_true, and_true]
  rw [writeHeader_inPartition_iff]
  constructor
  · rintro ⟨hwhole, ⟨-, -, hsize, -⟩, -⟩
    refine ⟨hsize, fun hfull hnone => ?_⟩
    rw [← headerWritten_unchanged_iff mem downloadBytes hput hsize]
    exact hwhole ⟨h.header, h.ramdisk, hfull, hkernel.trans hnone.symm⟩
  · rintro ⟨hsize, hright⟩
    refine ⟨fun ⟨_, _, hfull, hnone⟩ => ?_, ⟨readHeader_inPartition downloadBytes, readRamdisk_inPartition downloadBytes,
      hsize, fun _ hdone => absurd hkernel hdone⟩, hheader, hramdisk, writeHeader_inBuffer downloadBytes h hheader,
      writeKernel_inBuffer downloadBytes h hheader⟩
    rw [headerWritten_unchanged_iff mem downloadBytes hput hsize]
    exact hright hfull (hnone.symm.trans hkernel)

theorem allAccesses_inBuffer : ∀ a ∈ allAccesses downloadBytes disk info, a.InBuffer bufSize := by
  simp only [allAccesses, List.forall_mem_cons, List.not_mem_nil, false_imp_iff, implies_true, and_true]
  exact ⟨hheader, hramdisk, writeHeader_inBuffer downloadBytes h hheader, writeKernel_inBuffer downloadBytes h hheader,
    writeRamdisk_inBuffer downloadBytes h hramdisk⟩

omit h hheader hramdisk in
theorem allAccesses_inPartition_iff (hkernel : kernelPut disk info downloadBytes ≠ 0) :
    (∀ a ∈ allAccesses downloadBytes disk info, a.InPartition info) ↔
      headerPut disk info ≤ info.size ∧
        (info.start + 8 < 2 ^ 32 ∧ 8 + kernelPut disk info downloadBytes ≤ info.size) ∧
          (writeRamdisk disk info downloadBytes).InPartition info := by
  simp only [allAccesses, List.forall_mem_cons, List.not_mem_nil, false_imp_iff, implies_true, and_true]
  rw [writeHeader_inPartition_iff, writeKernel_inPartition_iff disk info downloadBytes hkernel]
  exact ⟨fun hpart => hpart.2.2, fun hpart => ⟨readHeader_inPartition downloadBytes, readRamdisk_inPartition downloadBytes,
    hpart⟩⟩

omit hheader hramdisk in
theorem allAccesses_whole_iff :
    (∀ a ∈ allAccesses downloadBytes disk info, a.done = a.asked) ↔
      headerPut disk info = headerBlocks ∧ kernelPut disk info downloadBytes = (sectors downloadBytes).toNat ∧
        ramdiskPut disk info downloadBytes = (sectors (ramdiskSize disk info)).toNat := by
  simp only [allAccesses, List.forall_mem_cons, List.not_mem_nil, false_imp_iff, implies_true, and_true]
  exact ⟨fun hfull => hfull.2.2, fun hfull => ⟨h.header, h.ramdisk, hfull⟩⟩

theorem sound_ramdisk_not_written (hput : headerPut disk info ≠ 0) (hkernel : kernelPut disk info downloadBytes ≠ 0)
    (hlast : ramdiskPut disk info downloadBytes = 0) :
    Sound disk mem info downloadBytes bufSize (result disk mem response info downloadBytes) ↔
      headerPut disk info ≤ info.size ∧ KernelRight disk mem info downloadBytes := by
  have hsame : ramdiskWritten disk mem info downloadBytes = kernelWritten disk mem info downloadBytes := by
    rw [ramdiskWritten, hlast, Nat.zero_mul, Mem.copy_zero]
  rw [ramdisk_write_decides mem response downloadBytes h hput hkernel, if_pos hlast,
    sound_refused_iff mem downloadBytes (by decide), hsame, allAccesses_inPartition_iff downloadBytes hkernel,
    allAccesses_whole_iff downloadBytes h, KernelRight, if_neg hkernel, RamdiskRight, if_pos hlast, hlast]
  constructor
  · rintro ⟨hwhole, ⟨hsize, ⟨hplace, hfits⟩, -⟩, -⟩
    refine ⟨hsize, hplace, hfits, fun hheaderFull hkernelFull hnone => ?_⟩
    rw [← kernelWritten_unchanged_iff mem downloadBytes hput hsize hplace hfits]
    exact hwhole ⟨hheaderFull, hkernelFull, hnone.symm⟩
  · rintro ⟨hsize, hplace, hfits, hright⟩
    refine ⟨fun ⟨hheaderFull, hkernelFull, hnone⟩ => ?_, ⟨hsize, ⟨hplace, hfits⟩, fun _ hdone => absurd hlast hdone⟩,
      allAccesses_inBuffer downloadBytes h hheader hramdisk⟩
    rw [kernelWritten_unchanged_iff mem downloadBytes hput hsize hplace hfits]
    exact hright hheaderFull hkernelFull hnone.symm

theorem sound_updated (hput : headerPut disk info ≠ 0) (hkernel : kernelPut disk info downloadBytes ≠ 0)
    (hlast : ramdiskPut disk info downloadBytes ≠ 0) :
    Sound disk mem info downloadBytes bufSize (result disk mem response info downloadBytes) ↔
      headerPut disk info ≤ info.size ∧ KernelRight disk mem info downloadBytes := by
  rw [ramdisk_write_decides mem response downloadBytes h hput hkernel, if_neg hlast, KernelRight, if_neg hkernel,
    RamdiskRight, if_neg hlast]
  constructor
  · intro hsound
    obtain ⟨hsize, ⟨hplace, hfits⟩, hin⟩ := (allAccesses_inPartition_iff downloadBytes hkernel).mp hsound.inPartition
    obtain ⟨hramdiskPlace, hramdiskFits⟩ := (writeRamdisk_inPartition_iff disk info downloadBytes hlast).mp hin
    have hstored := hsound.okay ⟨rfl, rfl⟩
    rw [stored_iff mem downloadBytes hput hkernel hramdiskPlace] at hstored
    exact ⟨hsize, hplace, hfits, hramdiskPlace, hramdiskFits, hstored⟩
  · rintro ⟨hsize, hplace, hfits, hramdiskPlace, hramdiskFits, hstored⟩
    rw [← stored_iff mem downloadBytes hput hkernel hramdiskPlace] at hstored
    have hin := (writeRamdisk_inPartition_iff disk info downloadBytes hlast).mpr ⟨hramdiskPlace, hramdiskFits⟩
    exact ⟨fun _ => .inr ⟨⟨rfl, rfl⟩, hstored⟩, fun _ => hstored,
      (allAccesses_inPartition_iff downloadBytes hkernel).mpr ⟨hsize, ⟨hplace, hfits⟩, hin⟩,
      allAccesses_inBuffer downloadBytes h hheader hramdisk⟩

/-- Once both reads are whole and in the buffer, the writes decide. -/
theorem sound_writes :
    Sound disk mem info downloadBytes bufSize (result disk mem response info downloadBytes) ↔
      HeaderRight disk mem info downloadBytes := by
  unfold HeaderRight
  by_cases hput : headerPut disk info = 0
  · exact iff_of_true (sound_header_not_written mem response downloadBytes h hheader hramdisk hput)
      fun hne => absurd hput hne
  rw [imp_iff_right hput]
  by_cases hkernel : kernelPut disk info downloadBytes = 0
  · rw [KernelRight, if_pos hkernel]
    exact sound_kernel_not_written mem response downloadBytes h hheader hramdisk hput hkernel
  by_cases hlast : ramdiskPut disk info downloadBytes = 0
  · exact sound_ramdisk_not_written mem response downloadBytes h hheader hramdisk hput hkernel hlast
  · exact sound_updated mem response downloadBytes h hheader hramdisk hput hkernel hlast

end Writes

variable (disk info) in
/-- A run is sound exactly if every access up to the one it ends at is right: the reads fit the buffer, the
writes fit the partition, no refusal comes after a change, and what short writes left out is there already. -/
theorem updatesSoundly_iff (bufSize : UInt32) :
    Sound disk mem info downloadBytes bufSize
        (.of (fbMmcUpdateZimage (some info) downloadBytes ⟨disk, mem, response, []⟩)) ↔
      Right disk mem info downloadBytes bufSize := by
  change Sound disk mem info downloadBytes bufSize (result disk mem response info downloadBytes) ↔ _
  unfold Right
  by_cases h : headerGot disk info = headerBlocks ∧ Magic disk info
  · obtain ⟨hgot, hmagic⟩ := h
    rw [imp_iff_right hgot, imp_iff_right hmagic]
    by_cases hr : ramdiskGot disk info = (sectors (ramdiskSize disk info)).toNat
    · have hread : AllRead disk info := ⟨hgot, hmagic, hr⟩
      rw [imp_iff_right hr]
      constructor
      · intro hsound
        have hbuf := result_reads_inBuffer mem response downloadBytes hread hsound
        exact ⟨hbuf.1, hbuf.2, (sound_writes mem response downloadBytes hread hbuf.1 hbuf.2).mp hsound⟩
      · rintro ⟨hheader, hramdisk, hright⟩
        exact (sound_writes mem response downloadBytes hread hheader hramdisk).mpr hright
    · rw [sound_ramdisk_refused mem response downloadBytes hgot hmagic hr]
      exact ⟨fun hbuf => ⟨hbuf.1, hbuf.2, fun hr' => absurd hr' hr⟩, fun hbuf => ⟨hbuf.1, hbuf.2.1⟩⟩
  · rw [sound_header_refused mem response downloadBytes h]
    exact ⟨fun hbuf => ⟨hbuf, fun hgot hmagic => absurd ⟨hgot, hmagic⟩ h⟩, fun hbuf => hbuf.1⟩

/-! ## A download of two pages -/

/-- A partition of three pages: the header, a kernel of one page and a ramdisk of one page. -/
def threePages : PartInfo := ⟨34, 24⟩

/-- A device that does whatever is asked for. -/
def willing : Disk where
  mem := Mem.copy (fun _ => 0) (34 * BLKSZ) (Mem.ofList (ANDR_BOOT_MAGIC ++ [0, 0x10, 0, 0, 0, 0x10, 0, 0])) 0 16
  lba := 0x100000
  erased := 0
  io := fun _ => 0x100000
  pos := 0

theorem willing_read : AllRead willing threePages where
  header := by decide +kernel
  magic := by decide +kernel
  ramdisk := by decide +kernel

/-- The ramdisk is written behind the end of the partition, and the response is `OKAY`. -/
theorem two_pages_overrun :
    (fbMmcUpdateZimage (some threePages) 8192 ⟨willing, fun _ => 1, [], []⟩).2.response = fastbootOkay ∧
      ¬ Sound willing (fun _ => 1) threePages 8192 0x2000000
        (.of (fbMmcUpdateZimage (some threePages) 8192 ⟨willing, fun _ => 1, [], []⟩)) := by
  have hrun := ramdisk_write_decides (fun _ => 1) [] 8192 willing_read (by decide +kernel) (by decide +kernel)
  have hlast : ramdiskPut willing threePages 8192 ≠ 0 := by decide +kernel
  rw [if_neg hlast] at hrun
  refine ⟨congrArg Result.response hrun, fun hsound => ?_⟩
  change Sound willing (fun _ => 1) threePages 8192 0x2000000 (result willing (fun _ => 1) [] threePages 8192) at hsound
  rw [hrun] at hsound
  have hin := hsound.inPartition (writeRamdisk willing threePages 8192) (by simp [allAccesses])
  rw [writeRamdisk_inPartition_iff willing threePages 8192 hlast] at hin
  exact absurd hin.2 (by decide +kernel)

/-! ## Images that fit -/

/-- With whole accesses and sections that fit the partition, the buffer and the 32-bit sector numbers, and with
neither section empty, the update is sound. -/
theorem right_of_fits (h : AllRead disk info) {bufSize : UInt32}
    (hbuf : ramdiskBuffer downloadBytes + pageAlign (ramdiskSize disk info) ≤ bufSize.toNat)
    (hnumbers : info.start + 8 + (sectors (kernelSize disk info)).toNat < 2 ^ 32 ∧
      info.start + 8 + (sectors downloadBytes).toNat < 2 ^ 32)
    (hkernelSize : sectors (kernelSize disk info) ≠ 0) (hdownload : sectors downloadBytes ≠ 0)
    (hramdiskSize : sectors (ramdiskSize disk info) ≠ 0)
    (hfits : 8 + (sectors downloadBytes).toNat + (sectors (ramdiskSize disk info)).toNat ≤ info.size)
    (hputs : headerPut disk info = headerBlocks ∧ kernelPut disk info downloadBytes = (sectors downloadBytes).toNat ∧
      ramdiskPut disk info downloadBytes = (sectors (ramdiskSize disk info)).toNat) :
    Right disk mem info downloadBytes bufSize := by
  obtain ⟨hheader, hkernel, hramdisk⟩ := hputs
  have hkernelBytes := sectors_eq hdownload
  have hramdiskBytes := sectors_eq hramdiskSize
  have hne : ∀ {x : UInt32}, x ≠ 0 → x.toNat ≠ 0 := fun hx h0 => hx (UInt32.toNat_inj.mp h0)
  have hold : oldRamdisk disk info * BLKSZ = info.start * BLKSZ + 4096 + pageAlign (kernelSize disk info) := by
    rw [oldRamdisk, toNat_ramdiskSectorStart, Nat.mod_eq_of_lt hnumbers.1, ← sectors_eq hkernelSize]
    unfold BLKSZ
    omega
  have hheaderBuf : (readHeader disk info downloadBytes).InBuffer bufSize := fun _ => by
    simp only [readHeader, h.header, ramdiskBuffer] at *
    omega
  have hramdiskBuf : (readRamdisk disk info downloadBytes).InBuffer bufSize := fun _ => by
    simp only [readRamdisk, h.ramdisk, hramdiskBytes]
    exact hbuf
  have hkernelWhole : KernelWhole disk mem info downloadBytes := fun i hi hleft => by
    rw [hkernel, hkernelBytes] at hleft
    unfold pageAlign at hleft
    omega
  have hramdiskWhole : RamdiskWhole disk info downloadBytes := fun i hi => by
    rw [hramdisk, hramdiskBytes, if_pos (by unfold pageAlign; omega), hold]
  refine ⟨hheaderBuf, fun _ _ => ⟨hramdiskBuf, fun _ _ => ⟨by rw [hheader]; unfold headerBlocks; omega, ?_⟩⟩⟩
  rw [KernelRight, if_neg (by rw [hkernel]; exact hne hdownload), RamdiskRight,
    if_neg (by rw [hramdisk]; exact hne hramdiskSize), hkernel, hramdisk]
  exact ⟨by omega, by omega, hnumbers.2, hfits, hkernelWhole, hramdiskWhole⟩

end RCar.Fastboot.ZImage
