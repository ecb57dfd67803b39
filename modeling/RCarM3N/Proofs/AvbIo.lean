import RCarM3N.Model.AvbIo

/-! What one request, one pass of the loop and a whole call of `mmc_byte_io` move, for a partition
that lies on its device and an offset that is not a block or more behind its end. -/

namespace RCar.AvbIo

open RCar.UBoot (IoResult)

/-! ## Partitions and buffers -/

namespace MmcPart

/-- A partition of a device whose bytes a signed 64-bit offset counts; a block fits the library's
buffer. -/
structure Valid (part : MmcPart) : Prop where
  blksz_ge : 2 ≤ part.blksz.toNat
  blksz_le : part.blksz.toNat ≤ CONFIG_LIBAVB_BUF_SIZE.toNat
  onDevice : (part.start.toNat + part.size.toNat) * part.blksz.toNat < 2 ^ 63

/-- Where the partition begins on the device, in bytes. -/
def base (part : MmcPart) : ℕ := part.start.toNat * part.blksz.toNat

def bytes (part : MmcPart) : ℕ := part.size.toNat * part.blksz.toNat

/-- Not a block or more behind the end. -/
def Near (part : MmcPart) (offset : ℕ) : Prop := offset / part.blksz.toNat ≤ part.size.toNat

variable {part : MmcPart}

theorem Valid.blocks_lt (hv : part.Valid) : part.start.toNat + part.size.toNat < 2 ^ 62 := by
  have h := Nat.mul_le_mul_left (part.start.toNat + part.size.toNat) hv.blksz_ge
  have := hv.onDevice
  omega

theorem Valid.bytes_lt (hv : part.Valid) : part.base + part.bytes < 2 ^ 63 := by
  unfold base bytes
  rw [← Nat.add_mul]
  exact hv.onDevice

theorem near_of_le (hv : part.Valid) {o : ℕ} (h : o ≤ part.bytes) : part.Near o := by
  unfold Near
  exact (Nat.div_le_div_right h).trans_eq (Nat.mul_div_cancel _ (by have := hv.blksz_ge; omega))

end MmcPart

/-- An address of the library's own buffer. -/
def InArea (a : ℕ) : Prop :=
  CONFIG_LIBAVB_BUF_ADDR ≤ a ∧ a < CONFIG_LIBAVB_BUF_ADDR + CONFIG_LIBAVB_BUF_SIZE.toNat

/-- The caller's buffer does not meet the library's. -/
def Apart (b n : ℕ) : Prop := ∀ i < n, ¬ InArea (b + i)

/-- The blocks of a request lie in the partition. -/
def Inside (part : MmcPart) (q : Request) : Prop :=
  q.count ≠ 0 → part.start.toNat ≤ q.start.toNat ∧
    q.start.toNat + q.count.toNat ≤ part.start.toNat + part.size.toNat

variable {part : MmcPart} {s t u : State} {sec sectors o n k ret : UInt64} {buffer b : ℕ}
  {ioType : MmcIoType}

/-! ## Requests -/

theorem toNat_start (hv : part.Valid) (hsec : sec.toNat ≤ part.size.toNat) :
    (part.start + sec).toNat = part.start.toNat + sec.toNat := by
  have := hv.blocks_lt
  rw [UInt64.toNat_add]
  omega

theorem toNat_clamp (hv : part.Valid) (hsec : sec.toNat ≤ part.size.toNat)
    (hsectors : sectors.toNat < 2 ^ 63) : (clampSectors part (part.start + sec) sectors).toNat =
      min sectors.toNat (part.size.toNat - sec.toNat) := by
  have hlt := hv.blocks_lt
  have hstart := toNat_start hv hsec
  have hend : (part.start + part.size).toNat = part.start.toNat + part.size.toNat := by
    rw [UInt64.toNat_add]
    omega
  have hsum : (part.start + sec + sectors).toNat =
      part.start.toNat + sec.toNat + sectors.toNat := by
    rw [UInt64.toNat_add, hstart]
    omega
  unfold clampSectors
  split
  · rename_i h
    rw [gt_iff_lt, UInt64.lt_iff_toNat_lt, hsum, hend] at h
    rw [UInt64.toNat_sub_of_le _ _ (by rw [UInt64.le_iff_toNat_le, hstart, hend]; omega), hstart,
      hend]
    omega
  · rename_i h
    rw [gt_iff_lt, UInt64.lt_iff_toNat_lt, hsum, hend] at h
    omega

theorem clampToBuffer_le (part : MmcPart) (sectors : UInt64) :
    (clampToBuffer part sectors).toNat ≤ sectors.toNat ∧ (clampToBuffer part sectors).toNat ≤
      CONFIG_LIBAVB_BUF_SIZE.toNat / part.blksz.toNat := by
  unfold clampToBuffer
  rw [← UInt64.toNat_div]
  split
  · rename_i h
    exact ⟨UInt64.le_iff_toNat_le.mp (UInt64.le_of_lt h), le_refl _⟩
  · rename_i h
    exact ⟨le_refl _, UInt64.le_iff_toNat_le.mp (UInt64.not_lt.mp h)⟩

/-- What a request for `c` blocks from block `sec` of the partition on has done: it returns `c` or
zero, and where it returns `c` the bytes of these blocks have been moved. -/
structure Requested (part : MmcPart) (ioType : MmcIoType) (sec c ret : UInt64) (buffer : ℕ)
    (s t : State) : Prop where
  log : t.log = ⟨ioType, part.start + sec, c⟩ :: s.log
  returns : ret = 0 ∨ ret = c
  frame : ∀ a, ¬ InArea a → (ioType = .IO_READ →
    a < buffer ∨ buffer + c.toNat * part.blksz.toNat ≤ a) → t.mem a = s.mem a
  moved : ret ≠ 0 → match ioType with
    | .IO_READ => t.disk = s.disk ∧ ∀ i < c.toNat * part.blksz.toNat,
        t.mem (buffer + i) = s.disk ((part.start + sec).toNat * part.blksz.toNat + i)
    | .IO_WRITE => t.disk = s.disk.copy ((part.start + sec).toNat * part.blksz.toNat) s.mem buffer
        (c.toNat * part.blksz.toNat)

theorem run_blkDread (part : MmcPart) (start c : UInt64) (dst : ℕ) (s : State) :
    ∃ m ≤ c.toNat, (blkDread part start c dst).run s = (some (if m = c.toNat then c else 0),
      { s with
        mem := s.mem.copy dst s.disk (start.toNat * part.blksz.toNat) (m * part.blksz.toNat)
        pos := s.pos + 1
        log := ⟨.IO_READ, start, c⟩ :: s.log }) :=
  ⟨_, Nat.min_le_right _ _, rfl⟩

theorem run_blkDwrite (part : MmcPart) (start c : UInt64) (src : ℕ) (s : State) :
    ∃ m ≤ c.toNat, (blkDwrite part start c src).run s = (some (if m = c.toNat then c else 0),
      { s with
        disk := s.disk.copy (start.toNat * part.blksz.toNat) s.mem src (m * part.blksz.toNat)
        pos := s.pos + 1
        log := ⟨.IO_WRITE, start, c⟩ :: s.log }) :=
  ⟨_, Nat.min_le_right _ _, rfl⟩

theorem ite_ret {m : ℕ} {c : UInt64} :
    ((if m = c.toNat then c else 0) = 0 ∨ (if m = c.toNat then c else 0) = c) ∧
      ((if m = c.toNat then c else 0) ≠ 0 → m = c.toNat) := by
  split
  · exact ⟨.inr rfl, fun _ => ‹_›⟩
  · exact ⟨.inl rfl, fun h => absurd rfl h⟩

/-- The blocks that the clamps leave of a request, as one that fits the buffer has them. -/
theorem toNat_buffered (hv : part.Valid) {c : UInt64} (hc : c.toNat ≤
    CONFIG_LIBAVB_BUF_SIZE.toNat / part.blksz.toNat) :
    (c * part.blksz).toNat = c.toNat * part.blksz.toNat ∧
      c.toNat * part.blksz.toNat ≤ CONFIG_LIBAVB_BUF_SIZE.toNat := by
  have hle : c.toNat * part.blksz.toNat ≤ CONFIG_LIBAVB_BUF_SIZE.toNat :=
    (Nat.mul_le_mul_right _ hc).trans (Nat.div_mul_le_self _ _)
  refine ⟨?_, hle⟩
  rw [UInt64.toNat_mul]
  exact Nat.mod_eq_of_lt (hle.trans_lt (by decide))

/-- A read request: the blocks are those that the clamps leave of it. -/
theorem readAndFlush_requested (hv : part.Valid) (hsec : sec.toNat ≤ part.size.toNat)
    (sectors : UInt64) (hsectors : sectors.toNat < 2 ^ 63) (buffer : ℕ) (s : State) :
    ∃ c ret t, (mmcReadAndFlush part (part.start + sec) sectors buffer).run s = (some ret, t) ∧
      c.toNat ≤ min sectors.toNat (part.size.toNat - sec.toNat) ∧
      Requested part .IO_READ sec c ret buffer s t := by
  have hclamp := toNat_clamp hv hsec hsectors
  have hstart : ¬ part.start + sec < part.start := by
    rw [UInt64.lt_iff_toNat_lt, toNat_start hv hsec]
    omega
  unfold mmcReadAndFlush
  rw [if_neg hstart]
  dsimp only
  by_cases hun : isBufUnaligned buffer = true
  · rw [if_pos hun]
    obtain ⟨c, hc⟩ : ∃ c, c = clampToBuffer part
      (clampSectors part (part.start + sec) sectors) := ⟨_, rfl⟩
    obtain ⟨hle, hbuf⟩ := clampToBuffer_le part (clampSectors part (part.start + sec) sectors)
    rw [← hc] at hle hbuf ⊢
    obtain ⟨hmul, hfit⟩ := toNat_buffered hv hbuf
    obtain ⟨m, hm, hrun⟩ := run_blkDread part (part.start + sec) c CONFIG_LIBAVB_BUF_ADDR s
    obtain ⟨hret, hmoved⟩ := ite_ret (m := m) (c := c)
    have hmle := Nat.mul_le_mul_right part.blksz.toNat hm
    rw [Prog.run_bind_of_some hrun]
    refine ⟨c, _, _, rfl, hle.trans_eq hclamp, rfl, hret, ?_, ?_⟩
    · intro a ha hout
      dsimp only
      rw [hmul, Mem.copy_out _ _ _ _ _ _ (hout rfl)]
      exact Mem.copy_out _ _ _ _ _ _ (by unfold InArea at ha; omega)
    · intro h
      refine ⟨rfl, fun i hi => ?_⟩
      dsimp only
      rw [hmul, Mem.copy_add _ _ _ _ _ _ hi, hmoved h, Mem.copy_add _ _ _ _ _ _ hi]
  · rw [if_neg hun]
    obtain ⟨m, hm, hrun⟩ := run_blkDread part (part.start + sec)
      (clampSectors part (part.start + sec) sectors) buffer s
    obtain ⟨hret, hmoved⟩ := ite_ret (m := m) (c := clampSectors part (part.start + sec) sectors)
    have hmle := Nat.mul_le_mul_right part.blksz.toNat hm
    refine ⟨_, _, _, hrun, hclamp.le, rfl, hret, ?_, ?_⟩
    · intro a ha hout
      exact Mem.copy_out _ _ _ _ _ _ (by have := hout rfl; omega)
    · intro h
      refine ⟨rfl, fun i hi => ?_⟩
      dsimp only
      rw [hmoved h, Mem.copy_add _ _ _ _ _ _ hi]

theorem write_requested (hv : part.Valid) (hsec : sec.toNat ≤ part.size.toNat)
    (sectors : UInt64) (hsectors : sectors.toNat < 2 ^ 63) (buffer : ℕ) (s : State) :
    ∃ c ret t, (mmcWrite part (part.start + sec) sectors buffer).run s = (some ret, t) ∧
      c.toNat ≤ min sectors.toNat (part.size.toNat - sec.toNat) ∧
      Requested part .IO_WRITE sec c ret buffer s t := by
  have hclamp := toNat_clamp hv hsec hsectors
  have hstart : ¬ part.start + sec < part.start := by
    rw [UInt64.lt_iff_toNat_lt, toNat_start hv hsec]
    omega
  unfold mmcWrite
  rw [if_neg hstart]
  dsimp only
  by_cases hun : isBufUnaligned buffer = true
  · rw [if_pos hun]
    obtain ⟨c, hc⟩ : ∃ c, c = clampToBuffer part
      (clampSectors part (part.start + sec) sectors) := ⟨_, rfl⟩
    obtain ⟨hle, hbuf⟩ := clampToBuffer_le part (clampSectors part (part.start + sec) sectors)
    rw [← hc] at hle hbuf ⊢
    obtain ⟨hmul, hfit⟩ := toNat_buffered hv hbuf
    unfold memcpy
    rw [Prog.run_bind_modify]
    obtain ⟨m, -, hrun⟩ := run_blkDwrite part (part.start + sec) c CONFIG_LIBAVB_BUF_ADDR
      { s with mem := s.mem.copy CONFIG_LIBAVB_BUF_ADDR s.mem buffer (c * part.blksz).toNat }
    obtain ⟨hret, hmoved⟩ := ite_ret (m := m) (c := c)
    refine ⟨c, _, _, hrun, hle.trans_eq hclamp, rfl, hret, ?_, ?_⟩
    · intro a ha _
      dsimp only
      rw [hmul]
      exact Mem.copy_out _ _ _ _ _ _ (by unfold InArea at ha; omega)
    · intro h
      dsimp only
      rw [hmoved h, hmul]
      exact Mem.copy_congr _ _ fun i hi => Mem.copy_add _ _ _ _ _ _ hi
  · rw [if_neg hun]
    obtain ⟨m, -, hrun⟩ := run_blkDwrite part (part.start + sec)
      (clampSectors part (part.start + sec) sectors) buffer s
    obtain ⟨hret, hmoved⟩ := ite_ret (m := m) (c := clampSectors part (part.start + sec) sectors)
    refine ⟨_, _, _, hrun, hclamp.le, rfl, hret, fun _ _ _ => rfl, fun h => ?_⟩
    dsimp only
    rw [hmoved h]

theorem Requested.inside {c : UInt64} (hv : part.Valid) (hsec : sec.toNat ≤ part.size.toNat)
    (h : Requested part ioType sec c ret buffer s t)
    (hc : c.toNat ≤ part.size.toNat - sec.toNat) :
    ∀ q ∈ t.log, q ∈ s.log ∨ q.start = part.start + sec ∧ Inside part q := by
  rw [h.log]
  intro q hq
  rcases List.mem_cons.mp hq with rfl | hq
  · refine .inr ⟨rfl, fun _ => ?_⟩
    rw [toNat_start hv hsec]
    dsimp only
    omega
  · exact .inl hq

/-! ## Passes -/

/-- The `k` bytes at offset `o` of the partition and those at `b` in memory: a read has brought
the former to the latter, a write the latter to the former, and neither has changed more. -/
def Moved (part : MmcPart) (ioType : MmcIoType) (o k b : ℕ) (s t : State) : Prop :=
  match ioType with
  | .IO_READ => t.disk = s.disk ∧ (∀ i < k, t.mem (b + i) = s.disk (part.base + o + i)) ∧
      ∀ a, ¬ InArea a → a < b ∨ b + k ≤ a → t.mem a = s.mem a
  | .IO_WRITE => t.disk = s.disk.copy (part.base + o) s.mem b k ∧
      ∀ a, ¬ InArea a → t.mem a = s.mem a

theorem Moved.zero (part : MmcPart) (ioType : MmcIoType) (o b : ℕ) (s : State) :
    Moved part ioType o 0 b s s := by
  cases ioType with
  | IO_READ => exact ⟨rfl, fun i hi => absurd hi (Nat.not_lt_zero i), fun _ _ _ => rfl⟩
  | IO_WRITE => exact ⟨(Mem.copy_zero _ _ _ _).symm, fun _ _ => rfl⟩

/-- Two moves that follow one another are one: what the first has brought to the caller's buffer
and what the second takes from it is out of reach of the other. -/
theorem Moved.append {o k n b : ℕ} (hap : Apart b (k + n)) (h : Moved part ioType o k b s u)
    (h' : Moved part ioType (o + k) n (b + k) u t) : Moved part ioType o (k + n) b s t := by
  cases ioType with
  | IO_READ =>
    obtain ⟨hd, hb, hf⟩ := h
    obtain ⟨hd', hb', hf'⟩ := h'
    refine ⟨hd'.trans hd, fun i hi => ?_, fun a ha hout => ?_⟩
    · by_cases hk : i < k
      · rw [hf' _ (hap i hi) (by omega), hb i hk]
      · obtain ⟨j, rfl⟩ := Nat.exists_eq_add_of_le (Nat.le_of_not_lt hk)
        have hj := hb' j (by omega)
        rw [hd] at hj
        convert hj using 2 <;> omega
    · rw [hf' a ha (by omega), hf a ha (by omega)]
  | IO_WRITE =>
    obtain ⟨hd, hf⟩ := h
    obtain ⟨hd', hf'⟩ := h'
    refine ⟨?_, fun a ha => (hf' a ha).trans (hf a ha)⟩
    have hsame : ∀ i < n, u.mem (b + k + i) = s.mem (b + k + i) := fun i hi =>
      hf _ (by rw [Nat.add_assoc]; exact hap (k + i) (by omega))
    rw [hd', hd, ← Nat.add_assoc, Mem.copy_congr _ _ hsame, Mem.copy_append]

/-- A pass that has moved `k` of `n` bytes. -/
structure Passed (part : MmcPart) (ioType : MmcIoType) (o n k b : ℕ) (s t : State) : Prop where
  pos : 0 < k
  le : k ≤ n
  fits : o + k ≤ part.bytes
  moved : Apart b n → Moved part ioType o k b s t

theorem residue_spec (part : MmcPart) (o n : UInt64) (hn : n ≠ 0) (hB : 0 < part.blksz.toNat)
    (h : o % part.blksz ≠ 0 ∨ n < part.blksz) : 0 < (residueOf part o n).toNat ∧
      (residueOf part o n).toNat ≤ n.toNat ∧
      (o % part.blksz).toNat + (residueOf part o n).toNat ≤ part.blksz.toNat := by
  have hn' : n.toNat ≠ 0 := fun h0 => hn (UInt64.toNat_inj.mp h0)
  have hlt : (o % part.blksz).toNat < part.blksz.toNat := by
    rw [UInt64.toNat_mod]
    exact Nat.mod_lt _ hB
  unfold residueOf
  by_cases h0 : o % part.blksz ≠ 0
  · rw [if_pos h0]
    dsimp only
    have hsub : (part.blksz - o % part.blksz).toNat =
        part.blksz.toNat - (o % part.blksz).toNat :=
      UInt64.toNat_sub_of_le _ _ (UInt64.le_iff_toNat_le.mpr hlt.le)
    split
    · rename_i hgt
      rw [gt_iff_lt, UInt64.lt_iff_toNat_lt] at hgt
      omega
    · rename_i hgt
      rw [gt_iff_lt, UInt64.lt_iff_toNat_lt] at hgt
      omega
  · rw [if_neg h0]
    rw [not_not] at h0
    have hlt' := UInt64.lt_iff_toNat_lt.mp (h.resolve_left (not_not.mpr h0))
    rw [h0, UInt64.toNat_zero]
    omega

/-- Where a block begins and where a byte of it is. -/
theorem block_offset (hv : part.Valid) (o : UInt64) (hsec : (o / part.blksz).toNat ≤
    part.size.toNat) : (part.start + o / part.blksz).toNat * part.blksz.toNat +
      (o % part.blksz).toNat = part.base + o.toNat := by
  unfold MmcPart.base
  rw [toNat_start hv hsec, UInt64.toNat_div, UInt64.toNat_mod, Nat.add_mul, Nat.add_assoc,
    Nat.div_add_mod']

/-- A block that is read whole into the library's buffer. -/
theorem Requested.block (hv : part.Valid) {c : UInt64}
    (h : Requested part .IO_READ sec c ret CONFIG_LIBAVB_BUF_ADDR s t) (hret : ret = 1) :
    c = 1 ∧ t.disk = s.disk ∧ (∀ i < part.blksz.toNat, t.mem (CONFIG_LIBAVB_BUF_ADDR + i) =
      s.disk ((part.start + sec).toNat * part.blksz.toNat + i)) ∧
      ∀ a, ¬ InArea a → t.mem a = s.mem a := by
  have h0 : ret ≠ 0 := by rw [hret]; decide
  have hc : c = 1 := (h.returns.resolve_left h0).symm.trans hret
  have hone : c.toNat * part.blksz.toNat = part.blksz.toNat := by
    rw [hc]
    exact Nat.one_mul _
  obtain ⟨hd, hb⟩ := h.moved h0
  have hle := hv.blksz_le
  refine ⟨hc, hd, fun i hi => hb i (hone.symm ▸ hi), fun a ha => h.frame a ha fun _ => ?_⟩
  rw [hone]
  unfold InArea at ha
  omega

/-- A request that a pass at offset `o` may make. -/
def RequestAt (part : MmcPart) (o : UInt64) (q : Request) : Prop :=
  q.start = part.start + o / part.blksz ∧ Inside part q

/-- What a pass does: its requests stay in the partition, and unless it fails it has moved some
of the bytes. -/
def PassSpec (part : MmcPart) (ioType : MmcIoType) (o n : UInt64) (b : ℕ) (s : State)
    (x : Prog State (Option UInt64)) : Prop :=
  ∃ r t, x.run s = (some r, t) ∧ (∀ q ∈ t.log, q ∈ s.log ∨ RequestAt part o q) ∧
    ∀ k, r = some k → Passed part ioType o.toNat n.toNat k.toNat b s t

/-- An unaligned head or tail: one block is read, and for a write it is written back with the
bytes in it replaced. -/
theorem partial_pass (hv : part.Valid) (hnear : part.Near o.toNat) (hn : n ≠ 0)
    (h : o % part.blksz ≠ 0 ∨ n < part.blksz) (s : State) :
    PassSpec part ioType o n b s (ioPass part ioType o n b) := by
  have hB : 0 < part.blksz.toNat := by have := hv.blksz_ge; omega
  obtain ⟨hpos, hle, hwithin⟩ := residue_spec part o n hn hB h
  have hsec : (o / part.blksz).toNat ≤ part.size.toNat := by
    rw [UInt64.toNat_div]
    exact hnear
  have hblock := block_offset hv o hsec
  obtain ⟨c, ret, u, hrun, hc, hreq⟩ :=
    readAndFlush_requested hv hsec 1 (by decide) CONFIG_LIBAVB_BUF_ADDR s
  have hin := hreq.inside hv hsec (by omega)
  unfold PassSpec ioPass
  dsimp only
  rw [if_pos h, Prog.run_bind_of_some hrun]
  by_cases hret : ret = 1
  · rw [if_neg (not_not.mpr hret)]
    obtain ⟨hc1, hd, hbuf, hframe⟩ := hreq.block hv hret
    have hroom : (o / part.blksz).toNat + 1 ≤ part.size.toNat := by
      rw [hc1] at hc
      have : (1 : UInt64).toNat = 1 := rfl
      omega
    have hfits : o.toNat + (residueOf part o n).toNat ≤ part.bytes := by
      have hblk := Nat.mul_le_mul_right part.blksz.toNat hroom
      have ho := Nat.div_add_mod' o.toNat part.blksz.toNat
      rw [UInt64.toNat_div, Nat.add_mul, Nat.one_mul] at hblk
      rw [UInt64.toNat_mod] at hwithin
      unfold MmcPart.bytes
      omega
    have hsize := hv.blksz_le
    cases ioType with
    | IO_READ =>
      refine ⟨_, _, rfl, hin, fun k hk => ?_⟩
      obtain rfl := Option.some.inj hk
      refine ⟨hpos, hle, hfits, fun _ => ⟨hd, fun i hi => ?_, fun a ha hout => ?_⟩⟩
      · dsimp only
        rw [Mem.copy_add _ _ _ _ _ _ hi, Nat.add_assoc, hbuf _ (by omega), ← Nat.add_assoc, hblock]
      · exact (Mem.copy_out _ _ _ _ _ _ hout).trans (hframe a ha)
    | IO_WRITE =>
      obtain ⟨v, hvdef⟩ : ∃ v, v = { u with
          mem := u.mem.copy (CONFIG_LIBAVB_BUF_ADDR + (o % part.blksz).toNat) u.mem b
            (residueOf part o n).toNat } := ⟨_, rfl⟩
      obtain ⟨c', ret', t, hrun', hc', hreq'⟩ :=
        write_requested hv hsec 1 (by decide) CONFIG_LIBAVB_BUF_ADDR v
      have hin' : ∀ q ∈ t.log, q ∈ s.log ∨ RequestAt part o q := by
        have hv' := hreq'.inside hv hsec (by omega)
        rw [hvdef] at hv'
        exact fun q hq => (hv' q hq).elim (hin q) .inr
      unfold memcpy
      dsimp only
      rw [Prog.run_bind_modify, ← hvdef, Prog.run_bind_of_some hrun']
      by_cases hret' : ret' = 1
      · rw [if_neg (not_not.mpr hret')]
        refine ⟨_, _, rfl, hin', fun k hk => ?_⟩
        obtain rfl := Option.some.inj hk
        have h0 : ret' ≠ 0 := by rw [hret']; decide
        have hone : c'.toNat * part.blksz.toNat = part.blksz.toNat := by
          rw [(hreq'.returns.resolve_left h0).symm.trans hret']
          exact Nat.one_mul _
        refine ⟨hpos, hle, hfits, fun hap => ⟨?_, fun a ha => ?_⟩⟩
        · -- the block is written back with the caller's bytes in it
          have hw := hreq'.moved h0
          dsimp only at hw
          rw [hw, hone, hvdef]
          dsimp only
          rw [hd, Mem.copy_patched hbuf hwithin, hblock]
          exact Mem.copy_congr _ _ fun i hi => hframe _ (hap i (by omega))
        · rw [hreq'.frame a ha (fun h => by cases h), hvdef]
          dsimp only
          rw [Mem.copy_out _ _ _ _ _ _ (by unfold InArea at ha; omega), hframe a ha]
      · rw [if_pos hret']
        exact ⟨_, _, rfl, hin', fun k hk => by cases hk⟩
  · rw [if_pos hret]
    exact ⟨_, _, rfl, hin, fun k hk => by cases hk⟩

/-- Whole blocks, straight between the device and the caller's buffer. -/
theorem whole_pass (hv : part.Valid) (hnear : part.Near o.toNat)
    (h : ¬ (o % part.blksz ≠ 0 ∨ n < part.blksz)) (s : State) :
    PassSpec part ioType o n b s (ioPass part ioType o n b) := by
  obtain ⟨hmod, hle⟩ := not_or.mp h
  rw [not_not] at hmod
  have hB := hv.blksz_ge
  have hsec : (o / part.blksz).toNat ≤ part.size.toNat := by
    rw [UInt64.toNat_div]
    exact hnear
  have hblock := block_offset hv o hsec
  rw [hmod, UInt64.toNat_zero, Nat.add_zero] at hblock
  have hdiv : (n / part.blksz).toNat * part.blksz.toNat ≤ n.toNat := by
    rw [UInt64.toNat_div]
    exact Nat.div_mul_le_self _ _
  have hsectors : (n / part.blksz).toNat < 2 ^ 63 := by
    have h2 := Nat.mul_le_mul_left (n / part.blksz).toNat hB
    have := n.toNat_lt
    omega
  have hne : n / part.blksz ≠ 0 := by
    intro h0
    have hpos : 0 < n.toNat / part.blksz.toNat :=
      Nat.div_pos (UInt64.le_iff_toNat_le.mp (UInt64.not_lt.mp hle)) (by omega)
    rw [← UInt64.toNat_div, h0] at hpos
    exact absurd hpos (lt_irrefl _)
  -- what a request that has moved its blocks has done for the pass
  have hpass : ∀ {c ret : UInt64} {t : State}, c.toNat ≤ min (n / part.blksz).toNat
      (part.size.toNat - (o / part.blksz).toNat) → Requested part ioType (o / part.blksz) c ret b s t →
      ∀ k, (if ret = 0 then none else some (ret * part.blksz)) = some k →
        Passed part ioType o.toNat n.toNat k.toNat b s t := by
    intro c ret t hc hreq k hk
    have h0 : ret ≠ 0 := fun h0 => by rw [if_pos h0] at hk; cases hk
    rw [if_neg h0] at hk
    obtain rfl := Option.some.inj hk
    obtain rfl := hreq.returns.resolve_left h0
    have hpos : ret.toNat ≠ 0 := fun h => h0 (UInt64.toNat_inj.mp h)
    have hcn := Nat.mul_le_mul_right part.blksz.toNat (hc.trans (min_le_left _ _))
    have hmul : (ret * part.blksz).toNat = ret.toNat * part.blksz.toNat := by
      rw [UInt64.toNat_mul]
      exact Nat.mod_eq_of_lt ((hcn.trans hdiv).trans_lt n.toNat_lt)
    have hroom : (o / part.blksz).toNat + ret.toNat ≤ part.size.toNat := by omega
    have hblk := Nat.mul_le_mul_right part.blksz.toNat hroom
    have ho := Nat.div_add_mod' o.toNat part.blksz.toNat
    rw [← UInt64.toNat_div, ← UInt64.toNat_mod, hmod, UInt64.toNat_zero, Nat.add_zero] at ho
    rw [Nat.add_mul, ho] at hblk
    rw [hmul]
    refine ⟨Nat.mul_pos (by omega) (by omega), hcn.trans hdiv, hblk, fun _ => ?_⟩
    have hm := hreq.moved h0
    rw [hblock] at hm
    cases ioType with
    | IO_READ => exact ⟨hm.1, hm.2, fun a ha hout => hreq.frame a ha fun _ => hout⟩
    | IO_WRITE => exact ⟨hm, fun a ha => hreq.frame a ha fun h => by cases h⟩
  have hdone : ∀ x : Prog State UInt64, (∃ c ret t, x.run s = (some ret, t) ∧
      c.toNat ≤ min (n / part.blksz).toNat (part.size.toNat - (o / part.blksz).toNat) ∧
      Requested part ioType (o / part.blksz) c ret b s t) → PassSpec part ioType o n b s (do
        let ret ← x
        if ret = 0 then return none
        return some (ret * part.blksz)) := by
    rintro x ⟨c, ret, t, hrun, hc, hreq⟩
    have hin := hreq.inside hv hsec (by omega)
    have hp := hpass hc hreq
    unfold PassSpec
    rw [Prog.run_bind_of_some hrun]
    by_cases h0 : ret = 0
    · rw [if_pos h0]
      exact ⟨_, _, rfl, hin, fun k hk => by cases hk⟩
    · rw [if_neg h0]
      rw [if_neg h0] at hp
      exact ⟨_, _, rfl, hin, hp⟩
  unfold ioPass
  dsimp only
  rw [if_neg h, if_pos hne]
  cases ioType with
  | IO_READ => exact hdone _ (readAndFlush_requested hv hsec _ hsectors b s)
  | IO_WRITE => exact hdone _ (write_requested hv hsec _ hsectors b s)

theorem ioPass_spec (ioType : MmcIoType) (b : ℕ) (hv : part.Valid) (hnear : part.Near o.toNat) (hn : n ≠ 0) (s : State) :
    PassSpec part ioType o n b s (ioPass part ioType o n b) :=
  (Decidable.em _).elim (fun h => partial_pass hv hnear hn h s) fun h => whole_pass hv hnear h s

/-! ## The loop -/

/-- A run of the loop: its requests stay in the partition, and where it succeeds it has moved all
the bytes. -/
theorem byteIoLoop_spec (hv : part.Valid) {passes : ℕ} {cnt : UInt64}
    (hnear : part.Near o.toNat) (hcnt : cnt.toNat + n.toNat < 2 ^ 64) :
    (∀ q ∈ ((byteIoLoop part ioType passes o n b cnt).run s).2.log, q ∈ s.log ∨ Inside part q) ∧
    (n.toNat < passes → ∃ r t, (byteIoLoop part ioType passes o n b cnt).run s = (some r, t)) ∧
    ∀ m t, (byteIoLoop part ioType passes o n b cnt).run s = (some (.ok, m), t) →
      m.toNat = cnt.toNat + n.toNat ∧ (n ≠ 0 → o.toNat + n.toNat ≤ part.bytes) ∧
        (Apart b n.toNat → Moved part ioType o.toNat n.toNat b s t) := by
  induction passes generalizing o n b cnt s with
  | zero => exact ⟨fun q hq => .inl hq, fun h => absurd h (Nat.not_lt_zero _), fun m t h => by cases h⟩
  | succ passes ih =>
    unfold byteIoLoop
    by_cases h0 : n = 0
    · subst h0
      rw [if_pos rfl]
      refine ⟨fun q hq => .inl hq, fun _ => ⟨_, _, rfl⟩, fun m t h => ?_⟩
      obtain rfl := congrArg Prod.snd h
      cases congrArg Prod.fst h
      exact ⟨rfl, fun h => absurd rfl h, fun _ => Moved.zero _ _ _ _ _⟩
    · rw [if_neg h0]
      obtain ⟨r, u, hrun, hin, hpassed⟩ := ioPass_spec ioType b hv hnear h0 s
      have hin' : ∀ q ∈ u.log, q ∈ s.log ∨ Inside part q := fun q hq => (hin q hq).imp_right And.right
      rw [Prog.run_bind_of_some hrun]
      cases r with
      | none =>
        refine ⟨hin', fun _ => ⟨_, _, rfl⟩, fun m t h => ?_⟩
        cases congrArg Prod.fst h
      | some k =>
        dsimp only
        obtain ⟨hpos, hle, hfits, hmoved⟩ := hpassed k rfl
        have hlt := hv.bytes_lt
        have ho : (o + k).toNat = o.toNat + k.toNat := by
          rw [UInt64.toNat_add]
          omega
        have hn : (n - k).toNat = n.toNat - k.toNat :=
          UInt64.toNat_sub_of_le _ _ (UInt64.le_iff_toNat_le.mpr hle)
        have hc : (cnt + k).toNat = cnt.toNat + k.toNat := by
          rw [UInt64.toNat_add]
          omega
        have hcnt' : (cnt + k).toNat + (n - k).toNat < 2 ^ 64 := by omega
        obtain ⟨hlog, hret, hok⟩ := ih (s := u) (b := b + k.toNat)
          (MmcPart.near_of_le hv (ho ▸ hfits)) hcnt'
        refine ⟨fun q hq => (hlog q hq).elim (hin' q) .inr, fun hp => hret (by omega), ?_⟩
        intro m t h
        obtain ⟨hm, hfit, hmv⟩ := hok m t h
        have hsum : k.toNat + (n - k).toNat = n.toNat := by omega
        rw [ho] at hfit hmv
        refine ⟨by omega, fun _ => ?_, fun hap => ?_⟩
        · by_cases hlast : n - k = 0
          · rw [hlast, UInt64.toNat_zero] at hsum
            omega
          · have := hfit hlast
            omega
        · have hap' : Apart (b + k.toNat) (n - k).toNat := by
            intro i hi
            rw [Nat.add_assoc]
            exact hap _ (by omega)
          rw [← hsum] at hap ⊢
          exact (hmoved (hsum ▸ hap)).append hap (hmv hap')

end RCar.AvbIo
