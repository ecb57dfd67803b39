import RCarM3N.Model.FbBlockWrite

/-! Which blocks hold what after a write in chunks. A short chunk moves the device position and the buffer
position apart, and every later chunk lands before its place. -/

namespace RCar.Fastboot.BlockWrite

variable (blksz : ℕ) (start blkcnt : UInt64) (data : Mem) (disk : Disk)

/-! ## The requests -/

/-- The number of blocks in the request for a chunk. -/
def chunk (j : ℕ) : ℕ := min (blkcnt.toNat - j * FASTBOOT_MAX_BLK_WRITE) FASTBOOT_MAX_BLK_WRITE

/-- The blocks that are done before a request: each gets at most its chunk done, within the device. -/
def total : ℕ → ℕ
  | 0 => 0
  | j + 1 =>
    total j + min (min (disk.io (disk.pos + j)) (chunk blkcnt j)) (disk.lba.toNat - (start.toNat + total j))

/-- The blocks that a request gets done. -/
def moved (j : ℕ) : ℕ :=
  min (min (disk.io (disk.pos + j)) (chunk blkcnt j)) (disk.lba.toNat - (start.toNat + total start blkcnt disk j))

theorem total_succ (j : ℕ) :
    total start blkcnt disk (j + 1) = total start blkcnt disk j + moved start blkcnt disk j := rfl

theorem moved_le (j : ℕ) : moved start blkcnt disk j ≤ chunk blkcnt j :=
  (Nat.min_le_left _ _).trans (Nat.min_le_right _ _)

/-- The bytes of the device before a request. -/
def image : ℕ → Mem
  | 0 => disk.mem
  | j + 1 => (image j).copy ((start.toNat + total start blkcnt disk j) * blksz) data (j * FASTBOOT_MAX_BLK_WRITE * blksz)
      (moved start blkcnt disk j * blksz)

/-- A request takes the device to its next state. -/
theorem request_eq (j : ℕ) :
    ({ disk with mem := image blksz start blkcnt data disk j, pos := disk.pos + j } : Disk).request blksz
        (start.toNat + total start blkcnt disk j) (chunk blkcnt j) data (j * FASTBOOT_MAX_BLK_WRITE * blksz) =
      (moved start blkcnt disk j,
        { disk with mem := image blksz start blkcnt data disk (j + 1), pos := disk.pos + (j + 1) }) := rfl

/-- The number of requests. -/
def requests : ℕ := (blkcnt.toNat + (FASTBOOT_MAX_BLK_WRITE - 1)) / FASTBOOT_MAX_BLK_WRITE

/-- A count for which the loop variable stays an `int`. -/
def Counted : Prop := blkcnt.toNat ≤ 2 ^ 31 - FASTBOOT_MAX_BLK_WRITE

theorem curBlkcnt_eq {blkcnt : UInt64} (h : Counted blkcnt) {j : ℕ} (hj : j * FASTBOOT_MAX_BLK_WRITE < blkcnt.toNat) :
    curBlkcnt blkcnt (j * FASTBOOT_MAX_BLK_WRITE) = some (chunk blkcnt j) := by
  unfold Counted FASTBOOT_MAX_BLK_WRITE at *
  unfold curBlkcnt chunk toInt INT_MIN FASTBOOT_MAX_BLK_WRITE
  have hint : Int.bmod blkcnt.toNat (2 ^ 32) = blkcnt.toNat := by
    rw [Int.bmod_eq_of_le] <;> omega
  rw [hint, if_neg (by omega)]
  have hmin : min ((blkcnt.toNat : ℤ) - ↑(j * 16384)) ↑(16384 : ℕ) = ((min (blkcnt.toNat - j * 16384) 16384 : ℕ) : ℤ) := by omega
  rw [hmin]
  have hof : (UInt64.ofInt ((min (blkcnt.toNat - j * 16384) 16384 : ℕ) : ℤ)).toNat = min (blkcnt.toNat - j * 16384) 16384 := by
    rw [UInt64.ofInt, UInt64.toNat_ofNat']
    omega
  rw [hof]

/-- The loop from its `j`-th iteration on, as far as the requests go. -/
theorem blkWriteLoop_run (h : Counted blkcnt) (n j : ℕ) (hn : (j + n) * FASTBOOT_MAX_BLK_WRITE = 2 ^ 31)
    (hj : j ≤ requests blkcnt) :
    blkWriteLoop blksz blkcnt data n (j * FASTBOOT_MAX_BLK_WRITE) (start.toNat + total start blkcnt disk j)
        (total start blkcnt disk j) { disk with mem := image blksz start blkcnt data disk j, pos := disk.pos + j } =
      some (total start blkcnt disk (requests blkcnt),
        { disk with
          mem := image blksz start blkcnt data disk (requests blkcnt)
          pos := disk.pos + requests blkcnt }) := by
  induction n generalizing j with
  | zero =>
    unfold Counted at h
    unfold requests at hj
    unfold FASTBOOT_MAX_BLK_WRITE at h hn hj
    omega
  | succ n ih =>
    rw [blkWriteLoop]
    by_cases hmore : j * FASTBOOT_MAX_BLK_WRITE < blkcnt.toNat
    · rw [if_pos hmore, curBlkcnt_eq h hmore]
      have hnext := ih (j + 1) (by rw [← hn, Nat.add_right_comm, Nat.add_assoc]) (by
        unfold FASTBOOT_MAX_BLK_WRITE at hmore
        unfold requests FASTBOOT_MAX_BLK_WRITE
        omega)
      rw [← hnext, Option.bind_some, request_eq, total_succ, Nat.succ_mul, ← Nat.add_assoc start.toNat]
    · have hlast : j = requests blkcnt := by
        unfold requests FASTBOOT_MAX_BLK_WRITE at *
        omega
      rw [if_neg hmore, ← hlast]

/-- With a larger count the loop variable leaves its range. -/
theorem blkWriteLoop_overflows (h : ¬ Counted blkcnt) (n i : ℕ) (hn : i + n * FASTBOOT_MAX_BLK_WRITE = 2 ^ 31)
    (blk blks : ℕ) : blkWriteLoop blksz blkcnt data n i blk blks disk = none := by
  induction n generalizing i blk blks disk with
  | zero => rfl
  | succ n ih =>
    have hmore : i < blkcnt.toNat := by
      unfold Counted FASTBOOT_MAX_BLK_WRITE at h
      unfold FASTBOOT_MAX_BLK_WRITE at hn
      omega
    rw [blkWriteLoop, if_pos hmore]
    cases curBlkcnt blkcnt i with
    | none => rfl
    | some cur =>
      refine ih _ _ ?_ _ _
      rw [← hn, Nat.succ_mul, Nat.add_assoc, Nat.add_comm FASTBOOT_MAX_BLK_WRITE]

/-! ## What the blocks hold -/

/-- A block of the device holds a block of the data. -/
def Holds (mem : Mem) (blk k : ℕ) : Prop := ∀ b < blksz, mem (blk * blksz + b) = data (k * blksz + b)

/-- What a write that reports `n` blocks may leave: these are the first blocks, they hold the first blocks
of the data, and there is no other change. -/
structure Prefix (n : ℕ) (mem : Mem) : Prop where
  bounded : n ≤ blkcnt.toNat
  holds : ∀ k < n, Holds blksz data mem (start.toNat + k) k
  unchanged : ∀ a, a < start.toNat * blksz ∨ (start.toNat + n) * blksz ≤ a → mem a = disk.mem a

theorem total_mono {j J : ℕ} (h : j ≤ J) : total start blkcnt disk j ≤ total start blkcnt disk J := by
  induction h with
  | refl => exact le_rfl
  | step _ ih => exact ih.trans (Nat.le_add_right _ _)

/-- Every block that is done belongs to one of the requests. -/
theorem exists_chunk {k J : ℕ} (hk : k < total start blkcnt disk J) :
    ∃ j < J, ∃ t < moved start blkcnt disk j, k = total start blkcnt disk j + t := by
  induction J with
  | zero => exact absurd hk (Nat.not_lt_zero k)
  | succ J ih =>
    by_cases hearlier : k < total start blkcnt disk J
    · obtain ⟨j, hj, hrest⟩ := ih hearlier
      exact ⟨j, Nat.lt_succ_of_lt hj, hrest⟩
    · rw [total_succ] at hk
      exact ⟨J, Nat.lt_succ_self J, k - total start blkcnt disk J, by omega, by omega⟩

/-- A request leaves the blocks of the earlier ones as they are. -/
theorem image_holds {j J t : ℕ} (hj : j < J) (ht : t < moved start blkcnt disk j) :
    Holds blksz data (image blksz start blkcnt data disk J) (start.toNat + (total start blkcnt disk j + t))
      (j * FASTBOOT_MAX_BLK_WRITE + t) := by
  intro b hb
  have hblock : t * blksz + b < moved start blkcnt disk j * blksz := by
    calc t * blksz + b < (t + 1) * blksz := by rw [Nat.succ_mul]; omega
      _ ≤ moved start blkcnt disk j * blksz := Nat.mul_le_mul_right _ ht
  induction J, hj using Nat.le_induction with
  | base =>
    have hdst : (start.toNat + (total start blkcnt disk j + t)) * blksz + b =
        (start.toNat + total start blkcnt disk j) * blksz + (t * blksz + b) := by ring
    have hsrc : (j * FASTBOOT_MAX_BLK_WRITE + t) * blksz + b =
        j * FASTBOOT_MAX_BLK_WRITE * blksz + (t * blksz + b) := by ring
    rw [image, hdst, hsrc, Mem.copy_add _ _ _ _ _ _ hblock]
  | succ J hJ ih =>
    have hbefore : (start.toNat + (total start blkcnt disk j + t)) * blksz + b <
        (start.toNat + total start blkcnt disk J) * blksz := by
      have hmono := total_mono start blkcnt disk hJ
      rw [total_succ] at hmono
      calc (start.toNat + (total start blkcnt disk j + t)) * blksz + b
          < (start.toNat + (total start blkcnt disk j + t) + 1) * blksz := by rw [Nat.succ_mul]; omega
        _ ≤ (start.toNat + total start blkcnt disk J) * blksz := Nat.mul_le_mul_right _ (by omega)
    rw [image, Mem.copy_out _ _ _ _ _ _ (.inl hbefore)]
    exact ih

theorem image_unchanged {J a : ℕ}
    (ha : a < start.toNat * blksz ∨ (start.toNat + total start blkcnt disk J) * blksz ≤ a) :
    image blksz start blkcnt data disk J a = disk.mem a := by
  induction J with
  | zero => rfl
  | succ J ih =>
    have hlo : start.toNat * blksz ≤ (start.toNat + total start blkcnt disk J) * blksz :=
      Nat.mul_le_mul_right _ (Nat.le_add_right _ _)
    have hhi : (start.toNat + total start blkcnt disk J) * blksz + moved start blkcnt disk J * blksz =
        (start.toNat + total start blkcnt disk (J + 1)) * blksz := by rw [total_succ]; ring
    rw [image, Mem.copy_out _ _ _ _ _ _ (by omega)]
    exact ih (by omega)

/-! ## How much is done -/

/-- The chunks follow one another. -/
theorem chunk_add (j : ℕ) : min blkcnt.toNat (j * FASTBOOT_MAX_BLK_WRITE) + chunk blkcnt j =
    min blkcnt.toNat ((j + 1) * FASTBOOT_MAX_BLK_WRITE) := by
  unfold chunk
  rw [Nat.succ_mul]
  omega

theorem requests_enough : blkcnt.toNat ≤ requests blkcnt * FASTBOOT_MAX_BLK_WRITE := by
  unfold requests FASTBOOT_MAX_BLK_WRITE
  omega

/-- From one request to a later one no more is done than asked for. -/
theorem total_le {j J : ℕ} (h : j ≤ J) :
    total start blkcnt disk J + min blkcnt.toNat (j * FASTBOOT_MAX_BLK_WRITE) ≤
      total start blkcnt disk j + min blkcnt.toNat (J * FASTBOOT_MAX_BLK_WRITE) := by
  induction J, h using Nat.le_induction with
  | base => exact le_rfl
  | succ J _ ih =>
    have hmoved := moved_le start blkcnt disk J
    rw [total_succ, ← chunk_add]
    omega

theorem total_requests_le : total start blkcnt disk (requests blkcnt) ≤ blkcnt.toNat := by
  have hle := total_le start blkcnt disk (Nat.zero_le (requests blkcnt))
  rw [total, Nat.zero_mul, Nat.min_zero] at hle
  omega

/-- A full count means that there was no short request, so the positions stayed together. -/
theorem total_of_full (h : total start blkcnt disk (requests blkcnt) = blkcnt.toNat) {j t : ℕ} (hj : j < requests blkcnt)
    (ht : t < moved start blkcnt disk j) : total start blkcnt disk j = j * FASTBOOT_MAX_BLK_WRITE := by
  have hrest := total_le start blkcnt disk hj.le
  have hdone := total_le start blkcnt disk (Nat.zero_le j)
  have hchunk := moved_le start blkcnt disk j
  have henough := requests_enough blkcnt
  rw [total, Nat.zero_mul, Nat.min_zero] at hdone
  unfold chunk at hchunk
  omega

/-! ## The write -/

theorem fbMmcBlkWrite_eq (h : Counted blkcnt) (buffer : Option Mem) :
    fbMmcBlkWrite blksz start blkcnt buffer disk =
      some (total start blkcnt disk (requests blkcnt),
        { disk with
          mem := image blksz start blkcnt (disk.data buffer) disk (requests blkcnt)
          pos := disk.pos + requests blkcnt }) := by
  have hrun := blkWriteLoop_run blksz start blkcnt (disk.data buffer) disk h (2 ^ 31 / FASTBOOT_MAX_BLK_WRITE) 0
    (by decide) (Nat.zero_le _)
  rw [Nat.zero_mul] at hrun
  exact hrun

theorem fbMmcBlkWrite_overflows (h : ¬ Counted blkcnt) (buffer : Option Mem) :
    fbMmcBlkWrite blksz start blkcnt buffer disk = none :=
  blkWriteLoop_overflows blksz blkcnt _ disk h _ _ (by decide) _ _

/-- What a later request takes from the buffer is what belongs where it goes. -/
def Aligned : Prop :=
  ∀ j t, t < moved start blkcnt disk j → ∀ b < blksz,
    data ((j * FASTBOOT_MAX_BLK_WRITE + t) * blksz + b) = data ((total start blkcnt disk j + t) * blksz + b)

theorem lt_requests_of_moved {j t : ℕ} (ht : t < moved start blkcnt disk j) : j < requests blkcnt := by
  have hchunk := moved_le start blkcnt disk j
  unfold chunk FASTBOOT_MAX_BLK_WRITE at hchunk
  unfold requests FASTBOOT_MAX_BLK_WRITE
  omega

theorem image_prefix (h : Aligned blksz start blkcnt data disk) :
    Prefix blksz start blkcnt data disk (total start blkcnt disk (requests blkcnt))
      (image blksz start blkcnt data disk (requests blkcnt)) where
  bounded := total_requests_le start blkcnt disk
  holds := by
    intro k hk b hb
    obtain ⟨j, hj, t, ht, rfl⟩ := exists_chunk start blkcnt disk hk
    rw [image_holds blksz start blkcnt data disk hj ht b hb]
    exact h j t ht b hb
  unchanged _ ha := image_unchanged blksz start blkcnt data disk ha

theorem aligned_of_prefix
    (h : Prefix blksz start blkcnt data disk (total start blkcnt disk (requests blkcnt))
      (image blksz start blkcnt data disk (requests blkcnt))) : Aligned blksz start blkcnt data disk := by
  intro j t ht b hb
  have hj := lt_requests_of_moved start blkcnt disk ht
  have hdone : total start blkcnt disk j + t < total start blkcnt disk (requests blkcnt) := by
    have hmono := total_mono start blkcnt disk (Nat.succ_le_of_lt hj)
    rw [total_succ] at hmono
    omega
  rw [← image_holds blksz start blkcnt data disk hj ht b hb]
  exact h.holds _ hdone b hb

/-- The report of a write is its prefix of right blocks exactly if the loop variable stays an `int` and every
request after a short one happens to find in the buffer what belongs there. -/
theorem reportsPrefix_iff (buffer : Option Mem) :
    (∃ n disk', fbMmcBlkWrite blksz start blkcnt buffer disk = some (n, disk') ∧
        Prefix blksz start blkcnt (disk.data buffer) disk n disk'.mem ∧
        (n = blkcnt.toNat → ∀ k < blkcnt.toNat, Holds blksz (disk.data buffer) disk'.mem (start.toNat + k) k)) ↔
      Counted blkcnt ∧ Aligned blksz start blkcnt (disk.data buffer) disk := by
  constructor
  · rintro ⟨n, disk', hrun, hprefix, -⟩
    by_cases h : Counted blkcnt
    · rw [fbMmcBlkWrite_eq blksz start blkcnt disk h] at hrun
      obtain ⟨rfl, rfl⟩ := hrun
      exact ⟨h, aligned_of_prefix blksz start blkcnt _ disk hprefix⟩
    · rw [fbMmcBlkWrite_overflows blksz start blkcnt disk h] at hrun
      exact absurd hrun (Option.some_ne_none _).symm
  · rintro ⟨h, haligned⟩
    have hprefix := image_prefix blksz start blkcnt (disk.data buffer) disk haligned
    refine ⟨_, _, fbMmcBlkWrite_eq blksz start blkcnt disk h buffer, hprefix, fun hn k hk => ?_⟩
    exact hprefix.holds k (hn ▸ hk)

/-- The first request of two gets nothing done. -/
def stalling : Disk := ⟨fun _ => 0, 2 ^ 32, 0, fun i => if i = 0 then 0 else 1, 0⟩

/-- A buffer with a mark in its block 16384. -/
def marked : Mem := fun a => if a = 16384 * 512 then 1 else 0

/-- The second request puts block 16384 where block 0 belongs and is counted as one right block. -/
theorem short_chunk_shifts :
    ∃ disk', fbMmcBlkWrite 512 34 16385 (some marked) stalling = some (1, disk') ∧
      ¬ Holds 512 marked disk'.mem 34 0 := by
  have hcounted : Counted 16385 := by unfold Counted; decide
  refine ⟨_, fbMmcBlkWrite_eq 512 34 16385 stalling hcounted _, fun hholds => ?_⟩
  have hplace : image 512 34 16385 marked stalling 2 (34 * 512) = marked (16384 * 512) :=
    image_holds 512 34 16385 marked stalling (j := 1) (J := 2) (t := 0) (by decide) (by decide) 0 (by decide)
  have hrequests : requests 16385 = 2 := by decide
  have hzero := hholds 0 (by decide)
  simp only [hrequests, Nat.zero_mul, Nat.add_zero] at hzero
  exact absurd (hplace.symm.trans hzero) (by decide)

/-! ## Full counts -/

/-- What goes wrong is never behind a full count. -/
theorem full_holds {buffer : Option Mem} {disk' : Disk}
    (h : fbMmcBlkWrite blksz start blkcnt buffer disk = some (blkcnt.toNat, disk')) :
    Prefix blksz start blkcnt (disk.data buffer) disk blkcnt.toNat disk'.mem := by
  by_cases hcounted : Counted blkcnt
  · rw [fbMmcBlkWrite_eq blksz start blkcnt disk hcounted] at h
    obtain ⟨hfull, rfl⟩ := Prod.mk.inj (Option.some.inj h)
    have haligned : Aligned blksz start blkcnt (disk.data buffer) disk := by
      intro j t ht b _
      rw [total_of_full start blkcnt disk hfull (lt_requests_of_moved start blkcnt disk ht) ht]
    have hprefix := image_prefix blksz start blkcnt (disk.data buffer) disk haligned
    rw [hfull] at hprefix
    exact hprefix
  · rw [fbMmcBlkWrite_overflows blksz start blkcnt disk hcounted] at h
    exact absurd h (Option.some_ne_none _).symm

/-- An `OKAY` for a raw image means that the partition starts with the image, block by block, and is
otherwise as before. -/
theorem writeRawImage_okay {info : Partition} {buffer : Mem} {downloadBytes : UInt32} {disk disk' : Disk}
    (h : writeRawImage info buffer downloadBytes disk = some (fastbootOkay, disk')) :
    imageBlocks info.blksz downloadBytes ≤ info.size ∧
      Prefix info.blksz.toNat info.start (imageBlocks info.blksz downloadBytes) buffer disk
        (imageBlocks info.blksz downloadBytes).toNat disk'.mem := by
  unfold writeRawImage at h
  dsimp only at h
  split at h
  case isTrue => exact absurd (Prod.mk.inj (Option.some.inj h)).1 (by decide)
  case isFalse hfits =>
    split at h
    case h_1 => exact absurd h (Option.some_ne_none _).symm
    case h_2 blks written hrun =>
      split at h
      case isTrue => exact absurd (Prod.mk.inj (Option.some.inj h)).1 (by decide)
      case isFalse hblks =>
        obtain ⟨-, rfl⟩ := Prod.mk.inj (Option.some.inj h)
        rw [not_not.mp hblks] at hrun
        exact ⟨UInt64.not_lt.mp hfits, full_holds _ _ _ _ hrun⟩

end RCar.Fastboot.BlockWrite
