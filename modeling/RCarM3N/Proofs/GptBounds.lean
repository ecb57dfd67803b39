import RCarM3N.Proofs.GptLookup
import RCarM3N.Proofs.IoDrv

/-! When `get_part_info` stays inside its two buffers, whatever the blocks of the table hold. It always terminates: with
entry size 0 it reads no block. -/

namespace RCar.Bl2

/-- The fields of a header block. -/
def headerOf (blk : Mem) : GptHeader := ⟨(blk.le32 80).toNat, (blk.le32 84).toNat⟩

/-- The blocks of the table that are read. -/
def blocksRead (header : GptHeader) : ℕ :=
  addrToBlk ((header.partSize * min header.listNum PLAT_PARTITION_MAX_ENTRIES % 2 ^ 32 + EMMC_SECTOR_SIZE - 1) % 2 ^ 32)

/-- The bytes of block `k` behind its last whole entry. -/
def leftOver (es k : ℕ) : ℕ := 512 * (k + 1) % es

/-- The bytes at the start of block `k` that belong to an entry of the block before. -/
def carried (es k : ℕ) : ℕ := (es - 512 * k % es) % es

/-- The parser stays in block `k`, and what is left over of the block fits the entry buffer. -/
structure BlockFits (es k : ℕ) : Prop where
  size : es ≤ 512
  whole : GPT_ENTRY_SIZE ≤ es + leftOver es k
  tail : leftOver es k ≤ GPT_ENTRY_SIZE

/-- Every block fits, and so does every entry that lies in two of the blocks. -/
def Fits (es n : ℕ) : Prop := ∀ k < n, BlockFits es k ∧ (k + 1 < n → leftOver es k = 0 ∨ es ≤ GPT_ENTRY_SIZE)

variable {es k n p : ℕ} {name : String} {buf m : Mem} {s t : State}

/-! ## Where the entries lie -/

theorem carried_lt (hes : 0 < es) (k : ℕ) : carried es k < es := Nat.mod_lt _ hes

theorem carried_zero (es : ℕ) : carried es 0 = 0 := by simp [carried]

theorem carried_succ (hes : 0 < es) (k : ℕ) :
    carried es (k + 1) = if leftOver es k = 0 then 0 else es - leftOver es k := by
  change (es - leftOver es k) % es = _
  have hlt : leftOver es k < es := Nat.mod_lt _ hes
  split_ifs with h
  · rw [h, Nat.sub_zero, Nat.mod_self]
  · exact Nat.mod_eq_of_lt (by omega)

/-- Block `k` and the bytes carried into it are whole entries. -/
theorem exists_carried (hes : 0 < es) (k : ℕ) : ∃ c, 512 * k + carried es k = es * c := by
  have hdiv := Nat.div_add_mod (512 * k) es
  have hlt := Nat.mod_lt (512 * k) hes
  unfold carried
  rcases Nat.eq_zero_or_pos (512 * k % es) with h | h
  · refine ⟨512 * k / es, ?_⟩
    rw [h, Nat.sub_zero, Nat.mod_self]
    omega
  · refine ⟨512 * k / es + 1, ?_⟩
    rw [Nat.mod_eq_of_lt (by omega), Nat.mul_succ]
    omega

/-- Where a scan of block `k` stops. -/
theorem stop_eq (hes : 0 < es) {j : ℕ} (hle : carried es k + es * j ≤ 512) (hlt : 512 < carried es k + es * j + es) :
    carried es k + es * j = 512 - leftOver es k := by
  obtain ⟨c, hc⟩ := exists_carried hes k
  have hleft : leftOver es k = 512 - (carried es k + es * j) := by
    have h : 512 * (k + 1) = 512 - (carried es k + es * j) + es * (c + j) := by
      rw [Nat.mul_add es]
      omega
    rw [leftOver, h, Nat.add_mul_mod_self_left, Nat.mod_eq_of_lt (by omega)]
  omega

/-! ## One entry -/

section Entry

variable {σ : Type} {f : ℕ → Prog σ UInt8} {size a : ℕ}

theorem isFind_returns (name : String) (h : ∀ x < GPT_ENTRY_SIZE, f x = pure (m (a + x))) : ∃ r, isFind f name = pure r := by
  rw [isFind_congr h, isFind, parseGptEntry_pure, Prog.pure_bind]
  cases entryAt m a with
  | none => exact ⟨none, rfl⟩
  | some e => exact ⟨_, rfl⟩

theorem isFind_byteOf (buf : Mem) (name : String) (h : a + GPT_ENTRY_SIZE ≤ size) :
    ∃ r, isFind (fun x => byteOf buf size (a + x)) name = (pure r : Prog σ _) :=
  isFind_returns name fun x hx => by rw [byteOf, if_pos (by omega)]

theorem le64_zero (h : ∀ i < 8, m (a + i) = 0) : m.le64 a = 0 := by
  have hzero : m.le64 a = Mem.le64 (fun _ => 0) 0 := Mem.le64_congr h
  rw [hzero]
  rfl

theorem le64_ne_zero (h : m (a + 7) ≠ 0) : m.le64 a ≠ 0 := by
  intro h0
  apply h
  rw [← byte_le64 m a (show 7 < 8 by decide), h0]
  rfl

/-- An entry without sectors is skipped. -/
theorem isFind_unused (h : ∀ x, 32 ≤ x → x < 48 → f x = pure 0) : isFind f name = pure none := by
  have hzero : ∀ off, 32 ≤ off → off + 8 ≤ 48 → le64Of f off = pure 0 := by
    intro off h1 h2
    have hpure : le64Of (fun i => pure ((fun _ => 0 : Mem) (0 + i))) off = (pure 0 : Prog σ ℕ) := by
      refine (le64Of_pure (fun _ => 0) 0 off).trans ?_
      rw [le64_zero fun _ _ => rfl]
    exact (le64Of_congr off fun i hi => h _ (by omega) (by omega)).trans hpure
  rw [isFind, parseGptEntry, hzero 32 (by decide) (by decide), hzero 40 (by decide) (by decide)]
  rfl

theorem bytesOf_outside {l : List ℕ} (h : ∃ i ∈ l, size ≤ a + i) (s : σ) :
    (bytesOf (fun i => byteOf buf size (a + i)) l).run s = (none, s) := by
  induction l with
  | nil => simp at h
  | cons i l ih =>
    by_cases hi : a + i < size
    · have htail : ∃ j ∈ l, size ≤ a + j := by
        obtain ⟨j, hj, hsize⟩ := h
        rcases List.mem_cons.mp hj with rfl | hj
        · omega
        · exact ⟨j, hj, hsize⟩
      rw [bytesOf, byteOf, if_pos hi, Prog.run_bind_pure, Prog.run_bind_of_none (ih htail)]
    · rw [bytesOf, byteOf, if_neg hi]
      rfl

theorem highBytesZero_outside {l : List ℕ} (h : ∃ i ∈ l, size ≤ a + i) (hzero : ∀ i ∈ l, a + i < size → buf (a + i) = 0)
    (s : σ) : (highBytesZero (fun i => byteOf buf size (a + i)) l).run s = (none, s) := by
  induction l with
  | nil => simp at h
  | cons i l ih =>
    by_cases hi : a + i < size
    · have htail : ∃ j ∈ l, size ≤ a + j := by
        obtain ⟨j, hj, hsize⟩ := h
        rcases List.mem_cons.mp hj with rfl | hj
        · omega
        · exact ⟨j, hj, hsize⟩
      rw [highBytesZero, byteOf, if_pos hi, Prog.run_bind_pure, hzero i (.head _) hi]
      exact ih htail fun j hj => hzero j (.tail _ hj)
    · rw [highBytesZero, byteOf, if_neg hi]
      rfl

theorem le64Of_inside {off : ℕ} (h : a + off + 8 ≤ size) :
    le64Of (fun x => byteOf buf size (a + x)) off = (pure (buf.le64 (a + off)) : Prog σ ℕ) := by
  rw [← le64Of_pure]
  exact le64Of_congr off fun i hi => by rw [byteOf, if_pos (by omega)]

theorem le64Of_outside {off : ℕ} (h : size < a + off + 8) (s : σ) :
    (le64Of (fun x => byteOf buf size (a + x)) off).run s = (none, s) :=
  Prog.run_bind_of_none (bytesOf_outside ⟨off + 7, by simp, by omega⟩ s) _

/-- An entry with a sector and no name is read to its end. -/
theorem isFind_outside (hsize : size < a + GPT_ENTRY_SIZE) (hused : a + 47 < size → buf (a + 47) ≠ 0)
    (hname : ∀ x, 56 ≤ x → x < GPT_ENTRY_SIZE → a + x < size → buf (a + x) = 0) (s : σ) :
    (isFind (fun x => byteOf buf size (a + x)) name).run s = (none, s) := by
  unfold GPT_ENTRY_SIZE at hsize hname
  refine Prog.run_bind_of_none ?_ _
  unfold parseGptEntry
  by_cases h40 : size < a + 40
  · exact Prog.run_bind_of_none (le64Of_outside h40 s) _
  rw [le64Of_inside (by omega), Prog.run_bind_pure]
  by_cases h48 : size < a + 48
  · exact Prog.run_bind_of_none (le64Of_outside h48 s) _
  rw [le64Of_inside (by omega), Prog.run_bind_pure, if_neg fun h => le64_ne_zero (hused (by omega)) h.2]
  refine Prog.run_bind_of_none (Prog.run_bind_of_none ?_ _) _
  simp only [← Nat.add_assoc]
  refine highBytesZero_outside (a := a + 56) ⟨71, by decide, by omega⟩ (fun i hi hin => ?_) s
  obtain ⟨j, hj, rfl⟩ := List.mem_map.mp hi
  have := List.mem_range.mp hj
  unfold EFI_NAMELEN at this
  rw [Nat.add_assoc] at hin ⊢
  exact hname _ (by omega) (by omega) hin

end Entry

/-! ## One block -/

section Block

variable {σ : Type} {ptr : ℕ}

theorem scanBlock_returns (buf : Mem) (name : String) (hes : 0 < es) (hptr : ptr ≤ 512)
    (hin : ∀ j, ptr + es * j + es ≤ 512 → ptr + es * j + GPT_ENTRY_SIZE ≤ 512) :
    (∃ e, scanBlock buf es name ptr = (pure (.inl e) : Prog σ _)) ∨
      ∃ j, scanBlock buf es name ptr = (pure (.inr (ptr + es * j)) : Prog σ _) ∧ ptr + es * j ≤ 512 ∧
        512 < ptr + es * j + es := by
  induction hd : 512 - ptr using Nat.strong_induction_on generalizing ptr with
  | _ d ih =>
    rw [scanBlock]
    by_cases hnext : ptr + es ≤ 512
    · obtain ⟨r, hr⟩ := isFind_byteOf (σ := σ) buf name (hin 0 hnext)
      rw [Nat.mul_zero, Nat.add_zero] at hr
      rw [if_pos hnext, hr, Prog.pure_bind]
      cases r with
      | some e => exact .inl ⟨e, rfl⟩
      | none =>
        simp only [if_neg hes.ne']
        have hshift : ∀ j, ptr + es + es * j = ptr + es * (j + 1) := fun j => by rw [Nat.mul_succ]; omega
        rcases ih (512 - (ptr + es)) (by omega) hnext (by simpa only [hshift] using fun j => hin (j + 1)) rfl with
          h | ⟨j, h, hle, hlt⟩
        · exact .inl h
        · rw [hshift] at h hle hlt
          exact .inr ⟨j + 1, h, hle, hlt⟩
    · rw [if_neg hnext]
      exact .inr ⟨0, rfl, hptr, by omega⟩

/-- Entries without sectors are passed. -/
theorem scanBlock_skip (hes : 0 < es) (n : ℕ) (hin : ∀ j < n, ptr + es * j + es ≤ 512)
    (hnone : ∀ j < n, isFind (fun x => byteOf buf 512 (ptr + es * j + x)) name = (pure none : Prog σ _)) :
    scanBlock buf es name ptr = (scanBlock buf es name (ptr + es * n) : Prog σ _) := by
  induction n with
  | zero => rfl
  | succ n ih =>
    rw [ih (fun j hj => hin j (by omega)) fun j hj => hnone j (by omega), scanBlock, if_pos (hin n (by omega)),
      hnone n (by omega), Prog.pure_bind]
    simp only [if_neg hes.ne']
    rw [Nat.mul_succ, Nat.add_assoc]

theorem scanBlock_stuck (hes : 0 < es) {n : ℕ} (hin : ∀ j ≤ n, ptr + es * j + es ≤ 512)
    (hnone : ∀ j < n, isFind (fun x => byteOf buf 512 (ptr + es * j + x)) name = (pure none : Prog σ _)) {s : σ}
    (hlast : (isFind (fun x => byteOf buf 512 (ptr + es * n + x)) name).run s = (none, s)) :
    (scanBlock buf es name ptr).run s = (none, s) := by
  rw [scanBlock_skip hes n (fun j hj => hin j hj.le) hnone, scanBlock, if_pos (hin n le_rfl)]
  exact Prog.run_bind_of_none hlast _

end Block

/-! ## The blocks -/

theorem whole_entries (hes : 0 < es) (hwhole : GPT_ENTRY_SIZE ≤ es + leftOver es k) {j : ℕ} (hj : carried es k + es * j + es ≤ 512) :
    carried es k + es * j + GPT_ENTRY_SIZE ≤ 512 := by
  unfold GPT_ENTRY_SIZE at hwhole ⊢
  obtain ⟨c, hc⟩ := exists_carried hes k
  -- the last whole entry ends where the bytes left over begin
  have hsplit : 512 * (k + 1) = 512 - (carried es k + es * (j + 1)) + es * (c + (j + 1)) := by
    rw [Nat.mul_add es c, Nat.mul_succ es j]
    omega
  have hle : leftOver es k ≤ 512 - (carried es k + es * (j + 1)) := by
    rw [leftOver, hsplit, Nat.add_mul_mod_self_left]
    exact Nat.mod_le _ _
  rw [Nat.mul_succ] at hle
  omega

theorem scanSplit_returns {off : ℕ} (buf elem : Mem) (name : String) (hlt : off < es) (hsplit : off = 0 ∨ es ≤ GPT_ENTRY_SIZE) :
    ∃ r, scanSplit buf es name off elem = (pure r : Prog State _) := by
  unfold scanSplit
  by_cases h0 : off = 0
  · rw [if_pos h0]
    exact ⟨_, rfl⟩
  · have hes : es ≤ GPT_ENTRY_SIZE := hsplit.resolve_left h0
    have hsize := hes
    unfold GPT_ENTRY_SIZE at hsize
    rw [if_neg h0, memcpyIn, if_pos ⟨by omega, by omega⟩, Prog.pure_bind]
    obtain ⟨r, hr⟩ := isFind_returns (σ := State) (a := 0)
      (f := byteOf (elem.copy (es - off) buf 0 off) GPT_ENTRY_SIZE) name fun x hx => by rw [byteOf, if_pos hx, Nat.zero_add]
    rw [hr, Prog.pure_bind]
    cases r with
    | none => exact ⟨_, rfl⟩
    | some e => exact ⟨_, rfl⟩

/-- Blocks that fit are read to the end, or up to an entry that is found. -/
theorem scanBlocks_returns (name : String) (hes : 0 < es) (n k : ℕ) (hfits : ∀ i, k ≤ i → i < k + n → BlockFits es i ∧
      (i + 1 < k + n → leftOver es i = 0 ∨ es ≤ GPT_ENTRY_SIZE))
    (hsplit : carried es k = 0 ∨ es ≤ GPT_ENTRY_SIZE) (elem : Mem) (s : State) :
    ∃ r t, (scanBlocks es name n k (carried es k) elem).run s = (some r, t) := by
  induction n generalizing k elem s with
  | zero => exact ⟨none, s, rfl⟩
  | succ n ih =>
    obtain ⟨hblock, hnext⟩ := hfits k le_rfl (by omega)
    have hsize := hblock.size
    have hlt := carried_lt hes k
    obtain ⟨ok, buf, hread, -⟩ := run_emmcReadSector_iff s (fun _ => 0) (GPT_BLOCK_ENTRY_OFFSET + k) one_ne_zero
    rw [scanBlocks, Prog.run_bind_of_some hread]
    cases ok with
    | false => exact ⟨none, _, rfl⟩
    | true =>
      obtain ⟨r, hr⟩ := scanSplit_returns buf elem name hlt hsplit
      simp only [Bool.not_true, Bool.false_eq_true, if_false, hr, Prog.run_bind_pure]
      rcases r with e | elem
      · exact ⟨some e, _, rfl⟩
      · rcases scanBlock_returns (σ := State) buf name hes (by omega : carried es k ≤ 512)
          (fun j hj => whole_entries hes hblock.whole hj) with ⟨e, h⟩ | ⟨j, h, hle, hgt⟩
        · simp only [h, Prog.run_bind_pure]
          exact ⟨some e, _, rfl⟩
        · have hstop := stop_eq hes hle hgt
          simp only [h, Prog.run_bind_pure, hstop]
          have hleft : leftOver es k < es := Nat.mod_lt _ hes
          have htail := hblock.tail
          have hsucc := carried_succ hes k
          have hrest : ∀ i, k + 1 ≤ i → i < k + 1 + n → BlockFits es i ∧
              (i + 1 < k + 1 + n → leftOver es i = 0 ∨ es ≤ GPT_ENTRY_SIZE) := by
            intro i hi hlt
            obtain ⟨h1, h2⟩ := hfits i (by omega) (by omega)
            exact ⟨h1, fun h => h2 (by omega)⟩
          by_cases h0 : leftOver es k = 0
          · rw [if_pos h0] at hsucc
            rw [if_pos (by omega), ← hsucc]
            exact ih (k + 1) hrest (.inl hsucc) elem _
          · rw [if_neg h0] at hsucc
            rw [if_neg (by omega), if_pos (by omega), memcpyIn, if_pos ⟨by omega, by omega⟩, Prog.run_bind_pure,
              show 512 - leftOver es k + es - 512 = carried es (k + 1) by omega]
            cases n with
            | zero => exact ⟨none, _, rfl⟩
            | succ n => exact ih (k + 1) hrest (.inr ((hnext (by omega)).resolve_left h0)) _ _

/-! ## Blocks of zeros -/

theorem copy_zeros {off : ℕ} (d : ℕ) (h : ∀ i < n, buf (off + i) = 0) :
    Mem.copy (fun _ => 0) d buf off n = fun _ => 0 := by
  funext a
  unfold Mem.copy
  split_ifs with ha
  · exact h _ (by omega)
  · rfl

theorem scanSplit_zeros {off : ℕ} (hlt : off < es) (hsplit : off = 0 ∨ es ≤ GPT_ENTRY_SIZE)
    (hzero : ∀ i < off, buf i = 0) :
    scanSplit buf es name off (fun _ => 0) = (pure (.inr fun _ => 0) : Prog State _) := by
  unfold scanSplit
  by_cases h0 : off = 0
  · rw [if_pos h0]
  · have hes : es ≤ GPT_ENTRY_SIZE := hsplit.resolve_left h0
    have hsize := hes
    unfold GPT_ENTRY_SIZE at hsize
    have hfind : isFind (byteOf (fun _ => 0) GPT_ENTRY_SIZE) name = (pure none : Prog State _) :=
      isFind_unused fun x _ hx => by rw [byteOf, if_pos (by unfold GPT_ENTRY_SIZE; omega)]
    rw [if_neg h0, memcpyIn, if_pos ⟨by omega, by omega⟩, Prog.pure_bind,
      copy_zeros _ fun i hi => by rw [Nat.zero_add, hzero i hi], hfind, Prog.pure_bind]

theorem isFind_zeros {σ : Type} {a : ℕ} (ha : a + GPT_ENTRY_SIZE ≤ 512)
    (hzero : ∀ x, 32 ≤ x → x < 48 → buf (a + x) = 0) :
    isFind (fun x => byteOf buf 512 (a + x)) name = (pure none : Prog σ _) := by
  unfold GPT_ENTRY_SIZE at ha
  exact isFind_unused fun x h1 h2 => by rw [byteOf, if_pos (by omega), hzero x h1 h2]

theorem scanBlock_zeros {σ : Type} (hes : 0 < es) (hsize : es ≤ 512) (hwhole : GPT_ENTRY_SIZE ≤ es + leftOver es k)
    (hzero : ∀ x < 512, buf x = 0) :
    scanBlock buf es name (carried es k) = (pure (.inr (512 - leftOver es k)) : Prog σ _) := by
  have hlt := carried_lt hes k
  have hdiv := Nat.div_add_mod (512 - carried es k) es
  have hmod := Nat.mod_lt (512 - carried es k) hes
  have hin : ∀ j < (512 - carried es k) / es, carried es k + es * j + es ≤ 512 := by
    intro j hj
    have := Nat.mul_le_mul_left es hj
    rw [Nat.mul_succ] at this
    omega
  rw [scanBlock_skip hes _ hin fun j hj => ?_, stop_eq hes (by omega) (by omega), scanBlock, if_neg]
  · have hstop := stop_eq (k := k) hes (j := (512 - carried es k) / es) (by omega) (by omega)
    omega
  · have h := whole_entries hes hwhole (hin j hj)
    unfold GPT_ENTRY_SIZE at h
    exact isFind_zeros h fun x _ _ => hzero _ (by omega)

theorem run_readTable (ht : AllSucceed t) (hsel : t.sel = p) (k : ℕ) :
    ∃ buf u, (emmcReadSector (fun _ => 0) (GPT_BLOCK_ENTRY_OFFSET + k) 1).run t = (some (true, buf), u) ∧
      SameStore t u ∧ u.sel = p ∧ ∀ x < 512, buf x = t.part p (1024 + 512 * k + x) := by
  obtain ⟨buf, u, hread, hu, husel, hbuf⟩ := run_readBlock ht hsel (GPT_BLOCK_ENTRY_OFFSET + k)
  refine ⟨buf, u, hread, hu, husel, fun x hx => ?_⟩
  rw [hbuf x hx]
  unfold GPT_BLOCK_ENTRY_OFFSET addrToBlk
  congr 1
  omega

theorem run_block_zeros (name : String) (ht : AllSucceed t) (hsel : t.sel = p) (hes : 0 < es) (hblock : BlockFits es k)
    (hsplit : carried es k = 0 ∨ es ≤ GPT_ENTRY_SIZE) (hzero : ∀ x < 512, t.part p (1024 + 512 * k + x) = 0) (n : ℕ) :
    ∃ u, (scanBlocks es name (n + 1) k (carried es k) fun _ => 0).run t =
      (scanBlocks es name n (k + 1) (carried es (k + 1)) fun _ => 0).run u ∧ SameStore t u ∧ u.sel = p := by
  obtain ⟨buf, u, hread, hu, husel, hbuf⟩ := run_readTable ht hsel k
  have hbytes : ∀ x < 512, buf x = 0 := fun x hx => by rw [hbuf x hx, hzero x hx]
  have hsize := hblock.size
  have hleft : leftOver es k < es := Nat.mod_lt _ hes
  have htail := hblock.tail
  have hlt := carried_lt hes k
  have hsucc := carried_succ hes k
  refine ⟨u, ?_, hu, husel⟩
  rw [scanBlocks, Prog.run_bind_of_some hread]
  simp only [Bool.not_true, Bool.false_eq_true, if_false, scanSplit_zeros hlt hsplit fun i hi => hbytes i (by omega),
    scanBlock_zeros hes hsize hblock.whole hbytes, Prog.run_bind_pure]
  by_cases h0 : leftOver es k = 0
  · rw [if_pos h0] at hsucc
    rw [if_pos (by omega), hsucc]
  · rw [if_neg h0] at hsucc
    rw [if_neg (by omega), if_pos (by omega), memcpyIn, if_pos ⟨by omega, by omega⟩, Prog.run_bind_pure,
      copy_zeros _ fun i hi => hbytes _ (by omega), show 512 - leftOver es k + es - 512 = carried es (k + 1) by omega]

theorem run_blocks_zeros (name : String) (ht : AllSucceed t) (hsel : t.sel = p) (hes : 0 < es) (k n : ℕ)
    (hblocks : ∀ i < k, BlockFits es i) (hsplit : ∀ i < k, carried es i = 0 ∨ es ≤ GPT_ENTRY_SIZE)
    (hzero : ∀ x < 512 * k, t.part p (1024 + x) = 0) :
    ∃ u, (scanBlocks es name (k + n) 0 0 fun _ => 0).run t =
      (scanBlocks es name n k (carried es k) fun _ => 0).run u ∧ SameStore t u ∧ u.sel = p := by
  induction k generalizing n with
  | zero => exact ⟨t, by rw [Nat.zero_add, carried_zero], SameStore.refl t, hsel⟩
  | succ k ih =>
    obtain ⟨u, hrun, hu, husel⟩ := ih (n + 1) (fun i hi => hblocks i (by omega)) (fun i hi => hsplit i (by omega))
      fun x hx => hzero x (by omega)
    obtain ⟨v, hlast, hv, hvsel⟩ := run_block_zeros name (ht.of_sameStore hu) husel hes
      (hblocks k (by omega)) (hsplit k (by omega)) (fun x hx => by rw [hu.part, Nat.add_assoc, hzero _ (by omega)]) n
    refine ⟨v, ?_, hu.trans hv, hvsel⟩
    rw [← hlast, ← hrun, Nat.add_right_comm, Nat.add_assoc]

/-! ## Blocks that do not fit -/

theorem memcpyIn_stuck {σ : Type} {dst src : Mem} {dsize d ssize x n : ℕ} (h : dsize < d + n) :
    memcpyIn dst dsize d src ssize x n = (Prog.stuck : Prog σ Mem) := by
  rw [memcpyIn, if_neg (by omega)]

/-- A block whose scan does not return, or stops before more bytes than the entry buffer has. -/
theorem run_block_stuck (ht : AllSucceed t) (hsel : t.sel = p) (hes : 0 < es)
    (hsplit : carried es k = 0 ∨ es ≤ GPT_ENTRY_SIZE)
    (hzero : ∀ x < carried es k, x < 512 → t.part p (1024 + 512 * k + x) = 0)
    (hscan : ∀ buf : Mem, (∀ x < 512, buf x = t.part p (1024 + 512 * k + x)) →
      (∀ s : State, (scanBlock buf es name (carried es k)).run s = (none, s)) ∨
      ∃ q, scanBlock buf es name (carried es k) = (pure (.inr q) : Prog State _) ∧ q + GPT_ENTRY_SIZE < 512) (n : ℕ) :
    ((scanBlocks es name (n + 1) k (carried es k) fun _ => 0).run t).1 = none := by
  obtain ⟨buf, u, hread, -, -, hbuf⟩ := run_readTable ht hsel k
  have hlt := carried_lt hes k
  have hsmall : carried es k < 512 := by
    unfold GPT_ENTRY_SIZE at hsplit
    omega
  rw [scanBlocks, Prog.run_bind_of_some hread]
  simp only [Bool.not_true, Bool.false_eq_true, if_false, Prog.run_bind_pure,
    scanSplit_zeros hlt hsplit fun i hi => (hbuf i (by omega)).trans (hzero i hi (by omega))]
  rcases hscan buf hbuf with h | ⟨q, h, hq⟩
  · rw [Prog.run_bind_of_none (h u)]
  · have htail : GPT_ENTRY_SIZE < 0 + (512 - q) := by omega
    rw [h, Prog.run_bind_pure]
    simp only [if_neg (show q ≠ 512 by omega), if_pos (show q < 512 by omega), memcpyIn_stuck htail]
    rfl

/-- An entry that lies in two blocks and is larger than the entry buffer. -/
theorem run_split_stuck (ht : AllSucceed t) (hsel : t.sel = p) (hes : GPT_ENTRY_SIZE < es) (h0 : carried es k ≠ 0)
    (n : ℕ) : ((scanBlocks es name (n + 1) k (carried es k) fun _ => 0).run t).1 = none := by
  obtain ⟨buf, u, hread, -⟩ := run_readTable ht hsel k
  have hlt := carried_lt (Nat.zero_lt_of_lt hes) k
  rw [scanBlocks, Prog.run_bind_of_some hread]
  have hcopy : GPT_ENTRY_SIZE < es - carried es k + carried es k := by omega
  simp only [Bool.not_true, Bool.false_eq_true, if_false, scanSplit, if_neg h0, memcpyIn_stuck hcopy]
  rfl

/-- The first entry of a block that lies whole in it and is read past its end. -/
theorem exists_outside (hes : 0 < es) (hwhole : es + leftOver es k < GPT_ENTRY_SIZE) :
    ∃ j, carried es k + es * j + es ≤ 512 ∧ 512 < carried es k + es * j + GPT_ENTRY_SIZE ∧
      ∀ i < j, carried es k + es * i + GPT_ENTRY_SIZE ≤ 512 := by
  unfold GPT_ENTRY_SIZE at hwhole ⊢
  have hlt := carried_lt hes k
  have hdiv := Nat.div_add_mod (512 - carried es k) es
  have hmod := Nat.mod_lt (512 - carried es k) hes
  obtain ⟨n, hn⟩ : ∃ n, (512 - carried es k) / es = n + 1 :=
    Nat.exists_eq_succ_of_ne_zero (Nat.div_pos (by omega) hes).ne'
  rw [hn, Nat.mul_succ] at hdiv
  have hstop := stop_eq (k := k) hes (j := n + 1) (by rw [Nat.mul_succ]; omega) (by rw [Nat.mul_succ]; omega)
  rw [Nat.mul_succ] at hstop
  have hex : ∃ j, carried es k + es * j + es ≤ 512 ∧ 512 < carried es k + es * j + 128 := ⟨n, by omega, by omega⟩
  refine ⟨Nat.find hex, (Nat.find_spec hex).1, (Nat.find_spec hex).2, fun i hi => ?_⟩
  by_contra hi'
  have hmul := Nat.mul_le_mul_left es hi.le
  have hfirst := (Nat.find_spec hex).1
  exact Nat.find_min hex hi ⟨by omega, by omega⟩

/-- A medium on which nothing is used but the entry at byte `a`, which has no name. -/
def oneUsed (a : ℕ) : Mem := fun x => if x = a + 47 then 1 else 0

theorem oneUsed_of_lt {a x : ℕ} (h : x < a + 47) : oneUsed a x = 0 := if_neg h.ne

theorem oneUsed_of_gt {a x : ℕ} (h : a + 47 < x) : oneUsed a x = 0 := if_neg h.ne'

theorem scanBlock_outside {j : ℕ} (hes : 0 < es) (hin : carried es k + es * j + es ≤ 512)
    (hout : 512 < carried es k + es * j + GPT_ENTRY_SIZE)
    (hfirst : ∀ i < j, carried es k + es * i + GPT_ENTRY_SIZE ≤ 512)
    (hbuf : ∀ x < 512, buf x = oneUsed (1024 + 512 * k + (carried es k + es * j)) (1024 + 512 * k + x)) (s : State) :
    (scanBlock buf es name (carried es k)).run s = (none, s) := by
  have hstep : ∀ i < j, es * i + es ≤ es * j := fun i hi => Nat.mul_le_mul_left es hi
  refine scanBlock_stuck hes (n := j) (fun i hi => ?_) (fun i hi => ?_) ?_
  · have := Nat.mul_le_mul_left es hi
    omega
  · have hi' := hstep i hi
    have hwhole := hfirst i hi
    have hle := hwhole
    unfold GPT_ENTRY_SIZE at hle
    refine isFind_zeros hwhole fun x h1 h2 => ?_
    rw [hbuf _ (by omega), oneUsed_of_lt (by omega)]
  · refine isFind_outside hout (fun h => ?_) (fun x h1 h2 h => ?_) s
    · rw [hbuf _ h, oneUsed, if_pos (by omega)]
      decide
    · rw [hbuf _ h, oneUsed_of_gt (by omega)]

/-! ## The whole call -/

theorem run_getPartInfo_select (ht : AllSucceed t) (p : ℕ) (header : GptHeader) (name : String) :
    ∃ u, (getPartInfo p header name).run t =
      (scanBlocks header.partSize name (blocksRead header) 0 0 fun _ => 0).run u ∧ SameStore t u ∧ u.sel = p := by
  obtain ⟨u, hsel, hu, husel⟩ := run_select ht p
  refine ⟨u, ?_, hu, husel⟩
  unfold getPartInfo
  rw [Prog.run_bind_of_some hsel]
  rfl

theorem getPartInfo_returns {header : GptHeader} (hfits : Fits header.partSize (blocksRead header)) (s : State) :
    ∃ r t, (getPartInfo p header name).run s = (some r, t) := by
  obtain ⟨ok, u, hsel, -⟩ := run_emmcSelectPartition_iff s p
  unfold getPartInfo
  rw [Prog.run_bind_of_some hsel]
  cases ok with
  | false => exact ⟨none, u, rfl⟩
  | true =>
    change ∃ r t, (scanBlocks header.partSize name (blocksRead header) 0 0 fun _ => 0).run u = (some r, t)
    rcases Nat.eq_zero_or_pos header.partSize with h0 | hes
    · have hnone : blocksRead header = 0 := by simp [blocksRead, h0, addrToBlk, EMMC_SECTOR_SIZE]
      rw [hnone]
      exact ⟨none, u, rfl⟩
    · have h := scanBlocks_returns name hes (blocksRead header) 0
        (fun i _ hi => by rw [Nat.zero_add] at hi ⊢; exact hfits i hi) (.inl (carried_zero _)) (fun _ => 0) u
      rwa [carried_zero] at h

/-- Whatever the table holds from block `k` on, the scan gets there and returns. -/
def Reaches (es n p : ℕ) (name : String) (k : ℕ) : Prop :=
  ∀ m : Mem, (∀ x < 512 * k, m (1024 + x) = 0) → ∃ u, AllSucceed u ∧ u.sel = p ∧ u.part p = m ∧
    ((scanBlocks es name (n + 1) k (carried es k) fun _ => 0).run u).1 ≠ none

section Reaches

variable (hes : 0 < es) (hreach : Reaches es n p name k)

include hes hreach

theorem Reaches.whole (hsplit : carried es k = 0 ∨ es ≤ GPT_ENTRY_SIZE) : GPT_ENTRY_SIZE ≤ es + leftOver es k := by
  by_contra hsmall
  obtain ⟨j, hin, hout, hfirst⟩ := exists_outside hes (not_le.mp hsmall)
  obtain ⟨u, hu, husel, hpart, hne⟩ := hreach (oneUsed (1024 + 512 * k + (carried es k + es * j)))
    fun x hx => oneUsed_of_lt (by omega)
  refine hne (run_block_stuck hu husel hes hsplit (fun x hx _ => ?_)
    (fun buf hbuf => .inl fun s => scanBlock_outside hes hin hout hfirst (fun x hx => ?_) s) n)
  · rw [hpart, oneUsed_of_lt (by omega)]
  · rw [hbuf x hx, hpart]

theorem Reaches.tail (hsplit : carried es k = 0 ∨ es ≤ GPT_ENTRY_SIZE) (hsize : es ≤ 512) :
    leftOver es k ≤ GPT_ENTRY_SIZE := by
  obtain ⟨u, hu, husel, hpart, hne⟩ := hreach (fun _ => 0) fun _ _ => rfl
  by_contra hbig
  have hwhole := Reaches.whole hes hreach hsplit
  have hlt : leftOver es k < es := Nat.mod_lt _ hes
  exact hne (run_block_stuck hu husel hes hsplit (fun x _ _ => by rw [hpart])
    (fun buf hbuf => .inr ⟨_, scanBlock_zeros hes hsize hwhole fun x hx => by rw [hbuf x hx, hpart], by omega⟩) n)

/-- An entry that goes on in the next block is copied to the entry buffer. -/
theorem Reaches.next (hsplit : carried es k = 0 ∨ es ≤ GPT_ENTRY_SIZE) (hblock : BlockFits es k) (hn : n ≠ 0) :
    leftOver es k = 0 ∨ es ≤ GPT_ENTRY_SIZE := by
  obtain ⟨u, hu, husel, hpart, hne⟩ := hreach (fun _ => 0) fun _ _ => rfl
  by_contra hboth
  obtain ⟨hleft, hbig⟩ := not_or.mp hboth
  obtain ⟨n, rfl⟩ := Nat.exists_eq_succ_of_ne_zero hn
  obtain ⟨v, hrun, hv, hvsel⟩ := run_block_zeros name hu husel hes hblock hsplit (fun x _ => by rw [hpart]) (n + 1)
  rw [hrun] at hne
  have hlt : leftOver es k < es := Nat.mod_lt _ hes
  have hcarried : carried es (k + 1) ≠ 0 := by
    rw [carried_succ hes, if_neg hleft]
    omega
  exact hne (run_split_stuck (hu.of_sameStore hv) hvsel (not_le.mp hbig) hcarried n)

end Reaches

theorem Reaches.size (hes : 0 < es) (hreach : Reaches es n p name 0) : es ≤ 512 := by
  by_contra hbig
  obtain ⟨u, hu, husel, hpart, hne⟩ := hreach (fun _ => 0) fun _ _ => rfl
  refine hne (run_block_stuck hu husel hes (.inl (carried_zero es)) (fun x _ _ => by rw [hpart])
    (fun buf _ => .inr ⟨0, ?_, by decide⟩) n)
  rw [carried_zero, scanBlock, if_neg (by omega)]

/-- Behind blocks that fit, a call that always returns reaches the next block. -/
theorem reaches_of_returns {header : GptHeader} (hret : ∀ s, ∃ r t, (getPartInfo p header name).run s = (some r, t))
    (hes : 0 < header.partSize) (hn : blocksRead header = k + (n + 1))
    (hblocks : ∀ i < k, BlockFits header.partSize i)
    (hsplit : ∀ i < k, carried header.partSize i = 0 ∨ header.partSize ≤ GPT_ENTRY_SIZE) :
    Reaches header.partSize n p name k := by
  intro m hm
  have hsucceed : AllSucceed (mediumCard m) := fun _ => rfl
  obtain ⟨u, hrun, hu, husel⟩ := run_getPartInfo_select hsucceed p header name
  obtain ⟨v, hblock, hv, hvsel⟩ := run_blocks_zeros name (hsucceed.of_sameStore hu) husel hes k (n + 1)
    hblocks hsplit fun x hx => by rw [hu.part]; exact hm x hx
  refine ⟨v, (hsucceed.of_sameStore hu).of_sameStore hv, hvsel, by rw [hv.part, hu.part]; rfl, ?_⟩
  obtain ⟨r, w, hr⟩ := hret (mediumCard m)
  rw [hrun, hn, hblock] at hr
  rw [hr]
  exact Option.some_ne_none r

theorem fits_of_returns {header : GptHeader}
    (hret : ∀ s, ∃ r t, (getPartInfo p header name).run s = (some r, t)) : Fits header.partSize (blocksRead header) := by
  intro k hk
  have hes : 0 < header.partSize := by
    rcases Nat.eq_zero_or_pos header.partSize with h0 | h
    · simp [blocksRead, h0, addrToBlk, EMMC_SECTOR_SIZE] at hk
    · exact h
  induction k using Nat.strong_induction_on with
  | _ k ih =>
    obtain ⟨n, hn⟩ := Nat.exists_eq_add_of_lt hk
    have hblocks : ∀ i < k, BlockFits header.partSize i := fun i hi => (ih i hi (hi.trans hk)).1
    have hsplit : ∀ i ≤ k, carried header.partSize i = 0 ∨ header.partSize ≤ GPT_ENTRY_SIZE := by
      intro i hi
      cases i with
      | zero => exact .inl (carried_zero _)
      | succ i =>
        rcases (ih i hi (by omega)).2 (by omega) with h | h
        · left
          rw [carried_succ hes, if_pos h]
        · exact .inr h
    have hreach : Reaches header.partSize n p name k :=
      reaches_of_returns hret hes hn hblocks fun i hi => hsplit i hi.le
    have hsize : header.partSize ≤ 512 := by
      cases k with
      | zero => exact Reaches.size hes hreach
      | succ k => exact (hblocks 0 (by omega)).size
    have hk' := hsplit k le_rfl
    have hblock : BlockFits header.partSize k := ⟨hsize, Reaches.whole hes hreach hk', Reaches.tail hes hreach hk' hsize⟩
    exact ⟨hblock, fun hnext => Reaches.next hes hreach hk' hblock (by omega)⟩

/-- `get_part_info` returns, with every access in bounds, whatever the table holds and whichever commands fail, if and only
if every block it reads fits. -/
theorem getPartInfo_inBounds_iff (p : ℕ) (blk : Mem) (name : String) :
    (∀ s, ∃ r t, (getPartInfo p (headerOf blk) name).run s = (some r, t)) ↔
      Fits (headerOf blk).partSize (blocksRead (headerOf blk)) :=
  ⟨fits_of_returns, fun h s => getPartInfo_returns h s⟩

/-- A header with one entry of 64 bytes. -/
def smallEntries : Mem := fun i => if i = 80 then 1 else if i = 84 then 64 else 0

theorem getPartInfo_smallEntries :
    ¬∀ (blk : Mem) (s : State), ∃ r t, (getPartInfo USER_PARTITION (headerOf blk) "misc").run s = (some r, t) := by
  intro h
  have hwhole := (fits_of_returns (h smallEntries) 0 (by decide)).1.whole
  revert hwhole
  decide

end RCar.Bl2
