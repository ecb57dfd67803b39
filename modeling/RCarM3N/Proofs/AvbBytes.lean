import RCarM3N.Proofs.AvbIo

/-! Byte ranges of a partition: what a call of `mmc_byte_io` moves, which blocks it reaches, and
the offsets for which it does both as it should. An offset a block or more behind the end is out
of the clamp's reach: the difference that the clamp takes wraps. -/

namespace RCar.AvbIo

open RCar.UBoot (IoResult)

variable {part : MmcPart} {s t u v : State} {sec sectors o n : UInt64} {buffer b passes : ℕ}
  {ioType : MmcIoType} {offset : Int64} {name : String}

/-! ## Offsets -/

/-- The offset in the partition, counted from the end where it is negative. -/
def byteOffset (part : MmcPart) (offset : Int64) : ℤ :=
  if offset < 0 then part.bytes + offset.toInt else offset.toInt

theorem toInt_eq (x : Int64) : x.toInt =
    if x.toUInt64.toNat < 2 ^ 63 then (x.toUInt64.toNat : ℤ) else x.toUInt64.toNat - 2 ^ 64 := by
  have h : x.toInt = x.toBitVec.toInt := rfl
  rw [h, BitVec.toInt_eq_toNat_cond]
  change (if 2 * x.toUInt64.toNat < 2 ^ 64 then (x.toUInt64.toNat : ℤ)
    else x.toUInt64.toNat - 2 ^ 64) = _
  split <;> split <;> omega

theorem toInt_calcOffset (hv : part.Valid) (offset : Int64) :
    (calcOffset part offset).toInt = byteOffset part offset := by
  have hbytes := hv.bytes_lt
  unfold calcOffset byteOffset
  by_cases h : offset < 0
  · rw [if_pos h, if_pos h]
    rw [Int64.lt_iff_toInt_lt, toInt_eq] at h
    have hsize : (calcPartitionSize part).toNat = part.bytes := by
      unfold calcPartitionSize
      rw [UInt64.toNat_mul]
      exact Nat.mod_eq_of_lt (by unfold MmcPart.bytes at hbytes; omega)
    have hx := offset.toUInt64.toNat_lt
    have hzero : (0 : Int64).toInt = 0 := rfl
    rw [hzero] at h
    rw [toInt_eq, toInt_eq, UInt64.toUInt64_toInt64, UInt64.toNat_add, hsize]
    split at h
    · omega
    · rename_i hneg
      rw [if_neg hneg]
      split <;> omega
  · rw [if_neg h, if_neg h]

theorem calcOffset_neg (hv : part.Valid) :
    calcOffset part offset < 0 ↔ byteOffset part offset < 0 := by
  rw [Int64.lt_iff_toInt_lt, toInt_calcOffset hv]
  rfl

/-- The offset that the loop starts from. -/
theorem toNat_calcOffset (hv : part.Valid) (offset : Int64) (h : 0 ≤ byteOffset part offset) :
    ((calcOffset part offset).toUInt64.toNat : ℤ) = byteOffset part offset := by
  have hlt := (calcOffset part offset).toUInt64.toNat_lt
  have hint := toInt_calcOffset hv offset
  rw [toInt_eq] at hint
  split at hint <;> omega

theorem byteOffset_lt (hv : part.Valid) (offset : Int64) : byteOffset part offset < 2 ^ 63 := by
  have hint := toInt_calcOffset hv offset
  rw [← hint, toInt_eq]
  have hlt := (calcOffset part offset).toUInt64.toNat_lt
  split <;> omega

theorem near_iff (hv : part.Valid) (o : ℕ) : part.Near o ↔ o < part.bytes + part.blksz.toNat := by
  unfold MmcPart.Near MmcPart.bytes
  rw [← Nat.lt_succ_iff, Nat.div_lt_iff_lt_mul (by have := hv.blksz_ge; omega), Nat.succ_mul]

/-- A call on a partition that is found: the range check, then the loop. -/
theorem run_mmcByteIo (hv : part.Valid) (hpart : s.partitions name = some part) :
    (mmcByteIo passes (some name) offset n (some b) ioType).run s =
      if byteOffset part offset < 0 then (some (.errorRangeOutsidePartition, 0), s)
      else (byteIoLoop part ioType passes (calcOffset part offset).toUInt64 n b 0).run s := by
  have hB : part.blksz ≠ 0 := by
    intro h
    have := hv.blksz_ge
    rw [h, UInt64.toNat_zero] at this
    omega
  unfold mmcByteIo
  dsimp only
  rw [Prog.run_bind_get, hpart]
  dsimp only
  rw [if_neg hB]
  by_cases h : calcOffset part offset < 0
  · rw [if_pos h, if_pos ((calcOffset_neg hv).mp h)]
    rfl
  · rw [if_neg h, if_neg fun h' => h ((calcOffset_neg hv).mpr h')]

/-! ## Behind the end -/

section Far

variable (hv : part.Valid) (hfar : part.size.toNat < sec.toNat) (hsec : sec.toNat < 2 ^ 62)

include hv hfar hsec

theorem toNat_start_far : (part.start + sec).toNat = part.start.toNat + sec.toNat := by
  have := hv.blocks_lt
  rw [UInt64.toNat_add]
  omega

/-- The difference of the clamp wraps. -/
theorem toNat_clamp_far (hsectors : sectors.toNat < 2 ^ 63) :
    (clampSectors part (part.start + sec) sectors).toNat =
      2 ^ 64 - (sec.toNat - part.size.toNat) := by
  have hlt := hv.blocks_lt
  have hstart := toNat_start_far hv hfar hsec
  have hend : (part.start + part.size).toNat = part.start.toNat + part.size.toNat := by
    rw [UInt64.toNat_add]
    omega
  unfold clampSectors
  rw [if_pos, UInt64.toNat_sub, hstart, hend]
  · omega
  · rw [gt_iff_lt, UInt64.lt_iff_toNat_lt, hend, UInt64.toNat_add (part.start + sec), hstart]
    omega

theorem not_inside_far {c : UInt64} (hc : c ≠ 0) : ¬ Inside part ⟨ioType, part.start + sec, c⟩ := by
  intro h
  have := (h hc).2
  rw [toNat_start_far hv hfar hsec] at this
  dsimp only at this
  omega

theorem clampToBuffer_far (sectors : UInt64) (hsectors : sectors.toNat < 2 ^ 63) :
    clampToBuffer part (clampSectors part (part.start + sec) sectors) =
      CONFIG_LIBAVB_BUF_SIZE / part.blksz ∧ CONFIG_LIBAVB_BUF_SIZE / part.blksz ≠ 0 := by
  have hB := hv.blksz_ge
  have hsize : CONFIG_LIBAVB_BUF_SIZE.toNat = 0x1000000 := rfl
  have hdiv : CONFIG_LIBAVB_BUF_SIZE.toNat / part.blksz.toNat ≤ 0x1000000 := Nat.div_le_self _ _
  refine ⟨?_, fun h => ?_⟩
  · unfold clampToBuffer
    rw [if_pos]
    rw [gt_iff_lt, UInt64.lt_iff_toNat_lt, toNat_clamp_far hv hfar hsec hsectors, UInt64.toNat_div]
    omega
  · have hpos : 0 < CONFIG_LIBAVB_BUF_SIZE.toNat / part.blksz.toNat :=
      Nat.div_pos hv.blksz_le (by omega)
    rw [← UInt64.toNat_div, h] at hpos
    exact absurd hpos (lt_irrefl _)

/-- A read request from behind the end is made for blocks behind the end; one into an aligned
buffer for so many that it does not return one. -/
theorem readAndFlush_far (sectors : UInt64) (hsectors : sectors.toNat < 2 ^ 63) (buffer : ℕ) (s : State) :
    ∃ c ret t, (mmcReadAndFlush part (part.start + sec) sectors buffer).run s = (some ret, t) ∧
      c ≠ 0 ∧ ⟨.IO_READ, part.start + sec, c⟩ ∈ t.log ∧
      (isBufUnaligned buffer = false → ret ≠ 1) ∧
      (isBufUnaligned buffer = true → (∀ k, 2 ^ 64 ≤ s.moved k) →
        ret = CONFIG_LIBAVB_BUF_SIZE / part.blksz) := by
  have hclamp := toNat_clamp_far hv hfar hsec hsectors
  obtain ⟨hbuf, hbuf0⟩ := clampToBuffer_far hv hfar hsec sectors hsectors
  have hstart : ¬ part.start + sec < part.start := by
    rw [UInt64.lt_iff_toNat_lt, toNat_start_far hv hfar hsec]
    omega
  unfold mmcReadAndFlush
  rw [if_neg hstart]
  dsimp only
  by_cases hun : isBufUnaligned buffer = true
  · rw [if_pos hun, hbuf]
    refine ⟨_, _, _, rfl, hbuf0, List.mem_cons_self, fun h => ?_, fun _ hall => ?_⟩
    · rw [hun] at h
      cases h
    · refine if_pos (Nat.min_eq_right ((UInt64.toNat_lt _).le.trans (hall s.pos)))
  · rw [if_neg hun]
    obtain ⟨m, -, hrun⟩ := run_blkDread part (part.start + sec)
      (clampSectors part (part.start + sec) sectors) buffer s
    obtain ⟨hret, -⟩ := ite_ret (m := m) (c := clampSectors part (part.start + sec) sectors)
    have hone : (1 : UInt64).toNat = 1 := rfl
    refine ⟨_, _, _, hrun, fun h => ?_, List.mem_cons_self, fun _ h => ?_, fun h => absurd h hun⟩
    · rw [h, UInt64.toNat_zero] at hclamp
      omega
    · rw [h] at hret
      rcases hret with h1 | h1
      · exact absurd h1 (by decide)
      · rw [← h1, hone] at hclamp
        omega

theorem write_far (sectors : UInt64) (hsectors : sectors.toNat < 2 ^ 63) (buffer : ℕ) (s : State) :
    ∃ c ret t, (mmcWrite part (part.start + sec) sectors buffer).run s = (some ret, t) ∧
      c ≠ 0 ∧ ⟨.IO_WRITE, part.start + sec, c⟩ ∈ t.log := by
  have hclamp := toNat_clamp_far hv hfar hsec hsectors
  obtain ⟨hbuf, hbuf0⟩ := clampToBuffer_far hv hfar hsec sectors hsectors
  have hstart : ¬ part.start + sec < part.start := by
    rw [UInt64.lt_iff_toNat_lt, toNat_start_far hv hfar hsec]
    omega
  unfold mmcWrite
  rw [if_neg hstart]
  dsimp only
  by_cases hun : isBufUnaligned buffer = true
  · rw [if_pos hun, hbuf]
    exact ⟨_, _, _, rfl, hbuf0, List.mem_cons_self⟩
  · rw [if_neg hun]
    refine ⟨_, _, _, rfl, fun h => ?_, List.mem_cons_self⟩
    rw [h, UInt64.toNat_zero] at hclamp
    omega

end Far

/-- A pass that starts behind the end reaches blocks behind the end; one over a part of a block
fails for that. -/
theorem ioPass_far (ioType : MmcIoType) (b : ℕ) (hv : part.Valid) (hfar : ¬ part.Near o.toNat) (ho : o.toNat < 2 ^ 63)
    (hn : n ≠ 0) (s : State) : ∃ r t, (ioPass part ioType o n b).run s = (some r, t) ∧
      (∃ q ∈ t.log, ¬ Inside part q) ∧
      (o % part.blksz ≠ 0 ∨ n < part.blksz → r = none) := by
  have hB := hv.blksz_ge
  have hfar' : part.size.toNat < (o / part.blksz).toNat := by
    rw [UInt64.toNat_div]
    exact Nat.lt_of_not_le hfar
  have hsec : (o / part.blksz).toNat < 2 ^ 62 := by
    rw [UInt64.toNat_div]
    have h2 := Nat.div_le_div_left (a := o.toNat) hB (by omega)
    omega
  unfold ioPass
  dsimp only
  by_cases hpart : o % part.blksz ≠ 0 ∨ n < part.blksz
  · rw [if_pos hpart]
    obtain ⟨c, ret, t, hrun, hc, hlog, hret, -⟩ := readAndFlush_far hv hfar' hsec 1
      (by decide) CONFIG_LIBAVB_BUF_ADDR s
    rw [Prog.run_bind_of_some hrun, if_pos (hret rfl)]
    exact ⟨_, _, rfl, ⟨_, hlog, not_inside_far hv hfar' hsec hc⟩, fun _ => rfl⟩
  · rw [if_neg hpart]
    have hdiv : (n / part.blksz).toNat < 2 ^ 63 := by
      rw [UInt64.toNat_div]
      have h2 := Nat.div_le_div_left (a := n.toNat) hB (by omega)
      have := n.toNat_lt
      omega
    have hle := UInt64.le_iff_toNat_le.mp (UInt64.not_lt.mp (not_or.mp hpart).2)
    have hne : n / part.blksz ≠ 0 := by
      intro h0
      have hpos : 0 < n.toNat / part.blksz.toNat := Nat.div_pos hle (by omega)
      rw [← UInt64.toNat_div, h0] at hpos
      exact absurd hpos (lt_irrefl _)
    rw [if_pos hne]
    have hdone : ∀ x : Prog State UInt64, (∃ c ret t, x.run s = (some ret, t) ∧ c ≠ 0 ∧
        ⟨ioType, part.start + o / part.blksz, c⟩ ∈ t.log) → ∃ r t, (do
          let ret ← x
          if ret = 0 then return none
          return some (ret * part.blksz) : Prog State (Option UInt64)).run s = (some r, t) ∧
        (∃ q ∈ t.log, ¬ Inside part q) ∧ (o % part.blksz ≠ 0 ∨ n < part.blksz → r = none) := by
      rintro x ⟨c, ret, t, hrun, hc, hlog⟩
      have hout : ∃ q ∈ t.log, ¬ Inside part q := ⟨_, hlog, not_inside_far hv hfar' hsec hc⟩
      rw [Prog.run_bind_of_some hrun]
      by_cases h0 : ret = 0
      · rw [if_pos h0]
        exact ⟨_, _, rfl, hout, fun h => absurd h hpart⟩
      · rw [if_neg h0]
        exact ⟨_, _, rfl, hout, fun h => absurd h hpart⟩
    cases ioType with
    | IO_READ =>
      obtain ⟨c, ret, t, hrun, hc, hlog, -⟩ := readAndFlush_far hv hfar' hsec _ hdiv b s
      exact hdone _ ⟨c, ret, t, hrun, hc, hlog⟩
    | IO_WRITE => exact hdone _ (write_far hv hfar' hsec _ hdiv b s)

/-! ## Requests stay on record -/

def LogGrows (s t : State) : Prop := s.log <:+ t.log

instance : IsPreorder State LogGrows where
  refl s := List.suffix_refl s.log
  trans _ _ _ h h' := List.IsSuffix.trans h h'

theorem logGrows_memcpy (dst src : ℕ) (k : UInt64) : Prog.Keeps LogGrows (memcpy dst src k) :=
  fun s => List.suffix_refl s.log

theorem logGrows_blkDread (part : MmcPart) (start c : UInt64) (dst : ℕ) :
    Prog.Keeps LogGrows (blkDread part start c dst) :=
  fun s => List.suffix_cons _ s.log

theorem logGrows_blkDwrite (part : MmcPart) (start c : UInt64) (src : ℕ) :
    Prog.Keeps LogGrows (blkDwrite part start c src) :=
  fun s => List.suffix_cons _ s.log

theorem logGrows_mmcReadAndFlush (part : MmcPart) (start c : UInt64) (buffer : ℕ) :
    Prog.Keeps LogGrows (mmcReadAndFlush part start c buffer) := by
  refine .ite (.pure _) (.ite (.bind (logGrows_blkDread _ _ _ _) fun _ =>
    .bind (logGrows_memcpy _ _ _) fun _ => .pure _) (logGrows_blkDread _ _ _ _))

theorem logGrows_mmcWrite (part : MmcPart) (start c : UInt64) (buffer : ℕ) :
    Prog.Keeps LogGrows (mmcWrite part start c buffer) := by
  refine .ite (.pure _) (.ite (.bind (logGrows_memcpy _ _ _) fun _ => logGrows_blkDwrite _ _ _ _)
    (logGrows_blkDwrite _ _ _ _))

theorem logGrows_ioPass (part : MmcPart) (ioType : MmcIoType) (o n : UInt64) (b : ℕ) :
    Prog.Keeps LogGrows (ioPass part ioType o n b) := by
  cases ioType with
  | IO_READ =>
    exact .ite (.bind (logGrows_mmcReadAndFlush _ _ _ _) fun _ => .ite (.pure _)
      (.bind (logGrows_memcpy _ _ _) fun _ => .pure _))
      (.ite (.bind (logGrows_mmcReadAndFlush _ _ _ _) fun _ => .ite (.pure _) (.pure _)) (.pure _))
  | IO_WRITE =>
    exact .ite (.bind (logGrows_mmcReadAndFlush _ _ _ _) fun _ => .ite (.pure _)
      (.bind (logGrows_memcpy _ _ _) fun _ => .bind (logGrows_mmcWrite _ _ _ _) fun _ =>
        .ite (.pure _) (.pure _)))
      (.ite (.bind (logGrows_mmcWrite _ _ _ _) fun _ => .ite (.pure _) (.pure _)) (.pure _))

theorem logGrows_byteIoLoop (part : MmcPart) (ioType : MmcIoType) (passes : ℕ) (o n : UInt64)
    (b : ℕ) (cnt : UInt64) : Prog.Keeps LogGrows (byteIoLoop part ioType passes o n b cnt) := by
  induction passes generalizing o n b cnt with
  | zero => exact .stuck
  | succ passes ih =>
    unfold byteIoLoop
    refine .ite (.pure _) (.bind (logGrows_ioPass _ _ _ _ _) fun r => ?_)
    cases r with
    | none => exact .pure _
    | some k => exact ih _ _ _ _

/-! ## Isolation -/

/-- What a call may do to the blocks around the partition: nothing, and behind the end it has no
blocks to move. -/
structure Isolated (part : MmcPart) (offset : Int64) (r : Option (IoResult × UInt64) × State) :
    Prop where
  inside : ∀ q ∈ r.2.log, Inside part q
  behind : part.bytes ≤ byteOffset part offset →
    (∀ q ∈ r.2.log, q.count = 0) ∧ ∀ n, r.1 = some (.ok, n) → n = 0

theorem byteIoLoop_zero (part : MmcPart) (ioType : MmcIoType) (hpasses : 0 < passes) (o : UInt64)
    (b : ℕ) (s : State) : (byteIoLoop part ioType passes o 0 b 0).run s = (some (.ok, 0), s) := by
  obtain ⟨p, rfl⟩ := Nat.exists_eq_succ_of_ne_zero (Nat.pos_iff_ne_zero.mp hpasses)
  rfl

/-- At the end, but not a block behind it, the request is one for no blocks, and fails. -/
theorem byteIoLoop_end (ioType : MmcIoType) (b : ℕ) (hv : part.Valid) (hpasses : 0 < passes) (hnear : part.Near o.toNat)
    (hend : part.bytes ≤ o.toNat) (hn : n ≠ 0) (hlog : s.log = []) :
    ∃ t, (byteIoLoop part ioType passes o n b 0).run s = (some (.errorIo, 0), t) ∧
      ∀ q ∈ t.log, q.count = 0 := by
  obtain ⟨p, rfl⟩ := Nat.exists_eq_succ_of_ne_zero (Nat.pos_iff_ne_zero.mp hpasses)
  obtain ⟨r, u, hrun, hin, hpassed⟩ := ioPass_spec ioType b hv hnear hn s
  unfold byteIoLoop
  rw [if_neg hn, Prog.run_bind_of_some hrun]
  cases r with
  | some k =>
    obtain ⟨hpos, -, hfits, -⟩ := hpassed k rfl
    omega
  | none =>
    refine ⟨u, rfl, fun q hq => ?_⟩
    obtain ⟨hstart, hinside⟩ := (hin q hq).resolve_left (by rw [hlog]; exact List.not_mem_nil)
    by_contra hc
    have hle := (hinside hc).2
    have hsec : (o / part.blksz).toNat = part.size.toNat := by
      refine le_antisymm (by rw [UInt64.toNat_div]; exact hnear) ?_
      rw [UInt64.toNat_div, Nat.le_div_iff_mul_le (by have := hv.blksz_ge; omega)]
      exact hend
    rw [hstart, toNat_start hv hsec.le, hsec] at hle
    have hpos : q.count.toNat ≠ 0 := fun h => hc (UInt64.toNat_inj.mp h)
    omega

theorem toNat_zero_add (n : UInt64) : (0 : UInt64).toNat + n.toNat < 2 ^ 64 := by
  rw [UInt64.toNat_zero, Nat.zero_add]
  exact n.toNat_lt

theorem not_isolated_far (hv : part.Valid) (hpasses : 0 < passes) (hn : n ≠ 0)
    (hpart : s.partitions name = some part)
    (hfar : part.bytes + part.blksz.toNat ≤ byteOffset part offset) :
    ¬ Isolated part offset ((mmcByteIo passes (some name) offset n (some b) ioType).run s) := by
  have ho := toNat_calcOffset hv offset (by omega)
  have hlt := byteOffset_lt hv offset
  have hnear : ¬ part.Near (calcOffset part offset).toUInt64.toNat := by
    rw [near_iff hv]
    omega
  obtain ⟨r, u, hrun, ⟨q, hq, hout⟩, -⟩ :=
    ioPass_far ioType b hv hnear (by omega) hn s
  intro h
  refine hout (h.inside q ?_)
  rw [run_mmcByteIo hv hpart, if_neg (by omega)]
  obtain ⟨p, rfl⟩ := Nat.exists_eq_succ_of_ne_zero (Nat.pos_iff_ne_zero.mp hpasses)
  unfold byteIoLoop
  rw [if_neg hn, Prog.run_bind_of_some hrun]
  cases r with
  | none => exact hq
  | some k => exact (logGrows_byteIoLoop _ _ _ _ _ _ _ u).subset hq

/-- A call leaves the blocks around the partition alone exactly when there is nothing to move or
the offset is not a block or more behind the end. -/
theorem isolated_iff (hv : part.Valid) (hpart : s.partitions name = some part)
    (hpasses : 0 < passes) : Isolated part offset
      ((mmcByteIo passes (some name) offset n (some b) ioType).run { s with log := [] }) ↔
    n = 0 ∨ byteOffset part offset < part.bytes + part.blksz.toNat := by
  obtain ⟨s', hs'⟩ : ∃ s', s' = { s with log := [] } := ⟨_, rfl⟩
  have hpart' : s'.partitions name = some part := by rw [hs']; exact hpart
  have hlog : s'.log = [] := by rw [hs']
  rw [← hs']
  constructor
  · intro h
    by_contra hout
    obtain ⟨hn, hfar⟩ := not_or.mp hout
    exact not_isolated_far hv hpasses hn hpart' (Int.not_lt.mp hfar) h
  · intro hcond
    rw [run_mmcByteIo hv hpart']
    have hnone : ∀ r : Option (IoResult × UInt64), (∀ m, r = some (.ok, m) → m = 0) →
        Isolated part offset (r, s') := fun r hr =>
      ⟨fun q hq => absurd hq (by rw [hlog]; exact List.not_mem_nil),
        fun _ => ⟨fun q hq => absurd hq (by rw [hlog]; exact List.not_mem_nil), hr⟩⟩
    by_cases hneg : byteOffset part offset < 0
    · rw [if_pos hneg]
      exact hnone _ fun m hm => by cases hm
    · rw [if_neg hneg]
      by_cases hn : n = 0
      · rw [hn, byteIoLoop_zero _ _ hpasses]
        exact hnone _ fun m hm => by cases hm; rfl
      · have ho := toNat_calcOffset hv offset (by omega)
        have hnear : part.Near (calcOffset part offset).toUInt64.toNat := by
          rw [near_iff hv]
          have := hcond.resolve_left hn
          omega
        obtain ⟨hin, -⟩ := byteIoLoop_spec hv hnear (toNat_zero_add n)
        refine ⟨fun q hq => (hin q hq).resolve_left ?_, fun hend => ?_⟩
        · rw [hlog]
          exact List.not_mem_nil
        · obtain ⟨t, ht, hzero⟩ := byteIoLoop_end ioType b hv hpasses hnear
            (by omega) hn hlog
          rw [ht]
          exact ⟨hzero, fun m hm => by cases hm⟩

/-- A partition of eight blocks. -/
def samplePart : MmcPart := { start := 100, size := 8, blksz := 512 }

theorem samplePart_valid : samplePart.Valid := ⟨by decide, by decide, by decide⟩

def sampleState : State where
  mem := fun a => UInt8.ofNat a
  disk := fun _ => 0
  partitions := fun name => if name = "misc" then some samplePart else none
  moved := fun _ => 2 ^ 64
  pos := 0
  log := []

/-- A block in the middle of the partition. -/
theorem isolated_within : Isolated samplePart 1024
    ((mmcByteIo 2 (some "misc") 1024 512 (some 0x50000000) .IO_WRITE).run
      { sampleState with log := [] }) :=
  (isolated_iff samplePart_valid rfl (by decide)).mpr (.inr (by decide))

/-- A block behind the end. -/
theorem not_isolated_behind : ¬ Isolated samplePart 4608
    ((mmcByteIo 1 (some "misc") 4608 512 (some 0x50000000) .IO_WRITE).run sampleState) :=
  not_isolated_far samplePart_valid (by decide) (by decide) rfl (by decide)

/-! ## Byte ranges -/

/-- A call moves exactly the bytes from the offset on, as many as it reports, or it fails. -/
structure ByteIoExact (part : MmcPart) (offset : Int64) : Prop where
  returns : ∀ (ioType : MmcIoType) (n : UInt64) (b : ℕ) (s : State) (name : String),
    s.partitions name = some part → ∃ N, ∀ passes, N ≤ passes →
      ∃ r t, (mmcByteIo passes (some name) offset n (some b) ioType).run s = (some r, t)
  exact : ∀ {ioType : MmcIoType} {passes b : ℕ} {n m : UInt64} {s t : State} {name : String},
    s.partitions name = some part → Apart b n.toNat →
    (mmcByteIo passes (some name) offset n (some b) ioType).run s = (some (.ok, m), t) →
      m ≤ n ∧ (m < n → byteOffset part offset + m.toNat = part.bytes) ∧
      (m ≠ 0 → 0 ≤ byteOffset part offset ∧ byteOffset part offset + m.toNat ≤ part.bytes) ∧
      Moved part ioType (byteOffset part offset).toNat m.toNat b s t
  readBack : ∀ {passes passes' b b' : ℕ} {n m m' : UInt64} {s t u v : State} {name name' : String},
    s.partitions name = some part → Apart b n.toNat →
    (mmcByteIo passes (some name) offset n (some b) .IO_WRITE).run s = (some (.ok, m), t) →
    u.disk = t.disk → u.partitions name' = some part → Apart b' n.toNat →
    (mmcByteIo passes' (some name') offset n (some b') .IO_READ).run u = (some (.ok, m'), v) →
      ∀ i < m'.toNat, v.mem (b' + i) = s.mem (b + i)

section Exact

variable (hv : part.Valid) (hcond : ¬ (part.bytes + part.blksz.toNat ≤ byteOffset part offset ∧
  (part.blksz.toNat : ℤ) ∣ byteOffset part offset))

include hv hcond

/-- An offset that the loop can move bytes from, or one whose first pass fails. -/
theorem near_or_fails (ioType : MmcIoType) (hpos : 0 ≤ byteOffset part offset) (hn : n ≠ 0) (b : ℕ) (s : State) :
    part.Near (calcOffset part offset).toUInt64.toNat ∨ ∃ u,
      (ioPass part ioType (calcOffset part offset).toUInt64 n b).run s = (some none, u) := by
  have ho := toNat_calcOffset hv offset hpos
  have hlt := byteOffset_lt hv offset
  refine (Classical.em _).imp_right fun hnear => ?_
  obtain ⟨r, u, hrun, -, hnone⟩ := ioPass_far ioType b hv hnear (by omega) hn s
  have hmod : (calcOffset part offset).toUInt64 % part.blksz ≠ 0 := by
    intro hmod
    rw [near_iff hv] at hnear
    refine hcond ⟨by omega, ?_⟩
    rw [← ho]
    exact Int.natCast_dvd_natCast.mpr (Nat.dvd_of_mod_eq_zero
      ((UInt64.toNat_mod _ _).symm.trans (congrArg UInt64.toNat hmod)))
  obtain rfl := hnone (.inl hmod)
  exact ⟨u, hrun⟩

/-- What a call that succeeds has done. -/
theorem byteIo_ok (hpart : s.partitions name = some part) {m : UInt64}
    (h : (mmcByteIo passes (some name) offset n (some b) ioType).run s = (some (.ok, m), t)) :
    m = n ∧ (n ≠ 0 → 0 ≤ byteOffset part offset ∧ byteOffset part offset + n.toNat ≤ part.bytes) ∧
      (Apart b n.toNat → Moved part ioType (byteOffset part offset).toNat n.toNat b s t) := by
  rw [run_mmcByteIo hv hpart] at h
  by_cases hneg : byteOffset part offset < 0
  · rw [if_pos hneg] at h
    cases congrArg Prod.fst h
  · rw [if_neg hneg] at h
    have ho := toNat_calcOffset hv offset (by omega)
    have hto : (calcOffset part offset).toUInt64.toNat = (byteOffset part offset).toNat := by omega
    cases passes with
    | zero => cases congrArg Prod.fst h
    | succ p =>
      by_cases hn : n = 0
      · subst hn
        obtain rfl := congrArg Prod.snd h
        cases congrArg Prod.fst h
        exact ⟨rfl, fun h => absurd rfl h, fun _ => Moved.zero _ _ _ _ _⟩
      · rcases near_or_fails hv hcond ioType (by omega) hn b s with hnear | ⟨u, hu⟩
        · obtain ⟨hm, hfit, hmoved⟩ := (byteIoLoop_spec hv hnear (toNat_zero_add n)).2.2 m t h
          rw [UInt64.toNat_zero, Nat.zero_add] at hm
          rw [hto] at hfit hmoved
          exact ⟨UInt64.toNat_inj.mp hm, fun hn => ⟨by omega, by have := hfit hn; omega⟩, hmoved⟩
        · unfold byteIoLoop at h
          rw [if_neg hn, Prog.run_bind_of_some hu] at h
          cases congrArg Prod.fst h

theorem byteIo_returns (hpart : s.partitions name = some part) (hpasses : n.toNat < passes) :
    ∃ r t, (mmcByteIo passes (some name) offset n (some b) ioType).run s = (some r, t) := by
  rw [run_mmcByteIo hv hpart]
  by_cases hneg : byteOffset part offset < 0
  · rw [if_pos hneg]
    exact ⟨_, _, rfl⟩
  · rw [if_neg hneg]
    by_cases hn : n = 0
    · rw [hn, byteIoLoop_zero _ _ (by omega)]
      exact ⟨_, _, rfl⟩
    · rcases near_or_fails hv hcond ioType (by omega) hn b s with hnear | ⟨u, hu⟩
      · exact (byteIoLoop_spec hv hnear (toNat_zero_add n)).2.1 hpasses
      · obtain ⟨p, rfl⟩ := Nat.exists_eq_succ_of_ne_zero (show passes ≠ 0 by omega)
        unfold byteIoLoop
        rw [if_neg hn, Prog.run_bind_of_some hu]
        exact ⟨_, _, rfl⟩

theorem byteIoExact : ByteIoExact part offset where
  returns ioType n b s name hpart :=
    ⟨n.toNat + 1, fun _ hpasses => byteIo_returns hv hcond hpart hpasses⟩
  exact hpart hap h := by
    obtain ⟨rfl, hfit, hmoved⟩ := byteIo_ok hv hcond hpart h
    exact ⟨UInt64.le_refl _, fun hlt => absurd hlt (UInt64.lt_irrefl _), hfit, hmoved hap⟩
  readBack hpart hap h hdisk hpart' hap' h' i hi := by
    obtain ⟨rfl, -, hmoved⟩ := byteIo_ok hv hcond hpart h
    obtain ⟨rfl, -, hmoved'⟩ := byteIo_ok hv hcond hpart' h'
    rw [(hmoved' hap').2.1 i hi, hdisk, (hmoved hap).1, Mem.copy_add _ _ _ _ _ _ hi]

end Exact

/-- A block or more behind the end, a read into an unaligned buffer succeeds. -/
theorem read_behind_end (hv : part.Valid)
    (hfar : part.bytes + part.blksz.toNat ≤ byteOffset part offset)
    (hdvd : (part.blksz.toNat : ℤ) ∣ byteOffset part offset) (hpart : s.partitions name = some part)
    (hmoved : ∀ k, 2 ^ 64 ≤ s.moved k) (hb : isBufUnaligned b = true) :
    ∃ t, (mmcByteIo 2 (some name) offset (CONFIG_LIBAVB_BUF_SIZE / part.blksz * part.blksz)
      (some b) .IO_READ).run s =
        (some (.ok, CONFIG_LIBAVB_BUF_SIZE / part.blksz * part.blksz), t) := by
  have hB := hv.blksz_ge
  have ho := toNat_calcOffset hv offset (by omega)
  have hlt := byteOffset_lt hv offset
  obtain ⟨x, hx⟩ : ∃ x, x = (calcOffset part offset).toUInt64 := ⟨_, rfl⟩
  obtain ⟨k, hk⟩ : ∃ k, k = CONFIG_LIBAVB_BUF_SIZE / part.blksz := ⟨_, rfl⟩
  have hkle : k.toNat ≤ CONFIG_LIBAVB_BUF_SIZE.toNat / part.blksz.toNat := by
    rw [hk, UInt64.toNat_div]
  obtain ⟨hmul, hfit⟩ := toNat_buffered hv hkle
  have hnear : ¬ part.Near x.toNat := by
    rw [near_iff hv, hx]
    omega
  have hfar' : part.size.toNat < (x / part.blksz).toNat := by
    rw [UInt64.toNat_div]
    exact Nat.lt_of_not_le hnear
  have hsec : (x / part.blksz).toNat < 2 ^ 62 := by
    rw [UInt64.toNat_div]
    have h2 := Nat.div_le_div_left (a := x.toNat) hB (by omega)
    rw [hx] at h2 ⊢
    omega
  obtain ⟨-, hk0⟩ := clampToBuffer_far hv hfar' hsec 1 (by decide)
  rw [← hk] at hk0
  have hkpos : k.toNat ≠ 0 := fun h => hk0 (UInt64.toNat_inj.mp h)
  have hdiv : k * part.blksz / part.blksz = k := by
    apply UInt64.toNat_inj.mp
    rw [UInt64.toNat_div, hmul, Nat.mul_div_cancel _ (by omega)]
  have hmod : x % part.blksz = 0 := by
    apply UInt64.toNat_inj.mp
    rw [UInt64.toNat_mod, UInt64.toNat_zero]
    apply Nat.mod_eq_zero_of_dvd
    apply Int.natCast_dvd_natCast.mp
    rw [hx, ho]
    exact hdvd
  have hn0 : k * part.blksz ≠ 0 := by
    intro h
    rw [h, UInt64.toNat_zero] at hmul
    exact absurd hmul.symm (Nat.mul_ne_zero hkpos (by omega))
  have hwhole : ¬ (x % part.blksz ≠ 0 ∨ k * part.blksz < part.blksz) := by
    rintro (h | h)
    · exact h hmod
    · rw [UInt64.lt_iff_toNat_lt, hmul] at h
      exact absurd h (Nat.not_lt.mpr (Nat.le_mul_of_pos_left _ (by omega)))
  have hk63 : k.toNat < 2 ^ 63 := by
    have := Nat.div_le_self CONFIG_LIBAVB_BUF_SIZE.toNat part.blksz.toNat
    have hsize : CONFIG_LIBAVB_BUF_SIZE.toNat = 0x1000000 := rfl
    omega
  obtain ⟨c, ret, t, hrun, -, -, -, hret⟩ := readAndFlush_far hv hfar' hsec _ hk63 b s
  have hret' : ret = k := (hret hb hmoved).trans hk.symm
  have hpass : (ioPass part .IO_READ x (k * part.blksz) b).run s =
      (some (some (k * part.blksz)), t) := by
    unfold ioPass
    dsimp only
    rw [if_neg hwhole, hdiv, if_pos hk0, Prog.run_bind_of_some hrun, hret', if_neg hk0]
    rfl
  rw [run_mmcByteIo hv hpart, if_neg (by omega), ← hx, ← hk]
  unfold byteIoLoop
  rw [if_neg hn0, Prog.run_bind_of_some hpass]
  unfold byteIoLoop
  dsimp only
  rw [if_pos (UInt64.sub_self _), UInt64.zero_add]
  exact ⟨t, rfl⟩

theorem not_exact_far (hv : part.Valid)
    (hfar : part.bytes + part.blksz.toNat ≤ byteOffset part offset)
    (hdvd : (part.blksz.toNat : ℤ) ∣ byteOffset part offset) : ¬ ByteIoExact part offset := by
  intro h
  obtain ⟨s, hs⟩ : ∃ s, s = { sampleState with partitions := fun _ => some part } := ⟨_, rfl⟩
  have hpart : s.partitions "misc" = some part := by rw [hs]
  have hmoved : ∀ k, 2 ^ 64 ≤ s.moved k := by rw [hs]; exact fun _ => le_refl _
  obtain ⟨t, ht⟩ := read_behind_end hv hfar hdvd hpart hmoved
    (show isBufUnaligned 0x50000001 = true from rfl)
  have hkle : (CONFIG_LIBAVB_BUF_SIZE / part.blksz).toNat ≤
      CONFIG_LIBAVB_BUF_SIZE.toNat / part.blksz.toNat := (UInt64.toNat_div _ _).le
  obtain ⟨hmul, hfit⟩ := toNat_buffered hv hkle
  have hsize : CONFIG_LIBAVB_BUF_SIZE.toNat = 0x1000000 := rfl
  have hap : Apart 0x50000001 (CONFIG_LIBAVB_BUF_SIZE / part.blksz * part.blksz).toNat := by
    intro i _
    unfold InArea CONFIG_LIBAVB_BUF_ADDR
    omega
  have hpos : CONFIG_LIBAVB_BUF_SIZE / part.blksz * part.blksz ≠ 0 := by
    intro h0
    rw [h0, UInt64.toNat_zero, UInt64.toNat_div] at hmul
    have hB := hv.blksz_ge
    have hdiv := Nat.div_pos hv.blksz_le (by omega)
    exact absurd hmul.symm (Nat.mul_ne_zero hdiv.ne' (by omega))
  have hend := ((h.exact hpart hap ht).2.2.1 hpos).2
  have hB := hv.blksz_ge
  omega

end RCar.AvbIo
