import RCarM3N.Proofs.Gpt
import RCarM3N.Lib.Search

/-! Which entry of a partition table `get_part_info` finds: the first one of the blocks read
whose name starts with the name asked for, where the table means the first of its announced
entries with this very name. -/

namespace RCar.Bl2

open Search

/-- The bytes of a C string before its NUL. -/
def nameBytes (name : String) : List UInt8 := name.toList.map fun c => c.toNat.toUInt8

/-- The decoded name of the entry at byte `a`: the low bytes of its UTF-16 name up to the NUL. -/
def entryName (m : Mem) (a : ℕ) : List UInt8 :=
  ((List.range EFI_NAMELEN).map fun i => m (a + (56 + 2 * i))).takeWhile (· ≠ 0)

/-- The entry at byte `a` of a table, if it is used and its name is one of 8-bit characters. -/
def entryAt (m : Mem) (a : ℕ) : Option PartitionEntry :=
  if m.le64 (a + 32) = 0 ∧ m.le64 (a + 40) = 0 then
    none
  else if ∀ i < EFI_NAMELEN, m (a + (56 + (2 * i + 1))) = 0 then
    some
      { start := m.le64 (a + 32) * PLAT_PARTITION_BLOCK_SIZE % 2 ^ 64
        length := (m.le64 (a + 40) + 2 ^ 64 - m.le64 (a + 32) + 1) * PLAT_PARTITION_BLOCK_SIZE % 2 ^ 64
        name := entryName m a }
  else
    none

/-- The test of `is_find`. -/
def StartsWith (name : String) (e : PartitionEntry) : Prop := nameBytes name <+: e.name

/-- The entry has the name in full. -/
def Named (name : String) (e : PartitionEntry) : Prop := e.name = nameBytes name

instance (name : String) : DecidablePred (StartsWith name) :=
  fun e => inferInstanceAs (Decidable (nameBytes name <+: e.name))

instance (name : String) : DecidablePred (Named name) :=
  fun e => inferInstanceAs (Decidable (e.name = nameBytes name))

/-- Entry `j` of the table of a medium. -/
def tableEntry (m : Mem) (header : GptHeader) (j : ℕ) : Option PartitionEntry :=
  entryAt m (1024 + header.partSize * j)

/-- The entries that the header announces, as far as the platform looks at them. -/
def tableLength (header : GptHeader) : ℕ := min header.listNum PLAT_PARTITION_MAX_ENTRIES

/-- The entries in the blocks that are read. -/
def entriesRead (header : GptHeader) : ℕ :=
  (header.partSize * tableLength header + 511) / 512 * (512 / header.partSize)

/-- The entry that the table has under this name. -/
def partitionNamed (m : Mem) (header : GptHeader) (name : String) : Option PartitionEntry :=
  first (tableEntry m header) (Named name) (tableLength header)

/-! ## The parser on bytes that are there -/

section Pure

variable {σ : Type} (m : Mem)

theorem highBytesZero_pure (l : List ℕ) :
    highBytesZero (fun i => (pure (m i) : Prog σ UInt8)) l = pure (decide (∀ i ∈ l, m i = 0)) := by
  induction l with
  | nil => simp [highBytesZero]
  | cons i l ih =>
    rw [highBytesZero, ih, Prog.pure_bind]
    by_cases h : m i = 0 <;> simp [h]

theorem lowBytes_pure (l : List ℕ) :
    lowBytes (fun i => (pure (m i) : Prog σ UInt8)) l = pure ((l.map m).takeWhile (· ≠ 0)) := by
  induction l with
  | nil => simp [lowBytes]
  | cons i l ih =>
    rw [lowBytes, ih, Prog.pure_bind, Prog.pure_bind]
    by_cases h : m i = 0 <;> simp [h]

theorem bytesOf_pure (l : List ℕ) :
    bytesOf (fun i => (pure (m i) : Prog σ UInt8)) l = pure (l.map m) := by
  induction l with
  | nil => rfl
  | cons i l ih =>
    rw [bytesOf, ih]
    rfl

theorem le64Of_pure (a off : ℕ) :
    le64Of (fun i => (pure (m (a + i)) : Prog σ UInt8)) off = pure (m.le64 (a + off)) := by
  rw [le64Of, bytesOf_pure fun i => m (a + i)]
  rfl

theorem unicodeToAscii_pure (a : ℕ) :
    unicodeToAscii (fun i => (pure (m (a + (56 + i))) : Prog σ UInt8)) =
      pure (if ∀ i < EFI_NAMELEN, m (a + (56 + (2 * i + 1))) = 0 then some (entryName m a) else none) := by
  have hall : (∀ i ∈ (List.range EFI_NAMELEN).map fun i => 2 * i + 1, m (a + (56 + i)) = 0) ↔
      ∀ i < EFI_NAMELEN, m (a + (56 + (2 * i + 1))) = 0 := by
    simp
  rw [unicodeToAscii, highBytesZero_pure fun i => m (a + (56 + i)),
    lowBytes_pure fun i => m (a + (56 + i)), Prog.pure_bind, List.map_map, decide_eq_decide.mpr hall]
  by_cases h : ∀ i < EFI_NAMELEN, m (a + (56 + (2 * i + 1))) = 0
  · rw [if_pos h, decide_eq_true h]
    rfl
  · rw [if_neg h, decide_eq_false h]
    rfl

theorem parseGptEntry_pure (a : ℕ) :
    parseGptEntry (fun i => (pure (m (a + i)) : Prog σ UInt8)) = pure (entryAt m a) := by
  rw [parseGptEntry, le64Of_pure, le64Of_pure, unicodeToAscii_pure, Prog.pure_bind,
    Prog.pure_bind, entryAt]
  by_cases hused : m.le64 (a + 32) = 0 ∧ m.le64 (a + 40) = 0
  · rw [if_pos hused, if_pos hused]
  · rw [if_neg hused, if_neg hused, Prog.pure_bind]
    by_cases hname : ∀ i < EFI_NAMELEN, m (a + (56 + (2 * i + 1))) = 0
    · rw [if_pos hname, if_pos hname]
    · rw [if_neg hname, if_neg hname]

end Pure

/-! ## The comparison of names -/

/-- `strncmp` over a whole C string tests for a prefix. -/
theorem strncmpEq_iff_prefix {l l' : List UInt8} (hl : ∀ c ∈ l, c ≠ 0) :
    strncmpEq l.length (Mem.ofList l) (Mem.ofList l') = true ↔ l <+: l' := by
  induction l generalizing l' with
  | nil => simp [strncmpEq]
  | cons c l ih =>
    have hc : c ≠ 0 := hl c (.head _)
    cases l' with
    | nil =>
      simp only [List.length_cons, strncmpEq, Mem.ofList, List.getD_cons_zero, List.getD_nil, hc,
        decide_false, Bool.false_and, Bool.false_eq_true, List.prefix_nil, reduceCtorEq]
    | cons c' l' =>
      have hshift : strncmpEq l.length (fun i => Mem.ofList (c :: l) (i + 1))
          (fun i => Mem.ofList (c' :: l') (i + 1)) = true ↔ l <+: l' :=
        ih fun c'' h => hl c'' (.tail _ h)
      rw [List.length_cons, strncmpEq, Bool.and_eq_true, Bool.or_eq_true, hshift,
        List.cons_prefix_cons]
      simp [Mem.ofList, hc]

/-- A partition name to look up: a C string that fits into the name field with its NUL. -/
structure PartName (name : String) : Prop where
  bytes : ∀ c ∈ name.toList, 0 < c.toNat ∧ c.toNat < 256
  short : name.length < EFI_NAMELEN

theorem nameBytes_ne_zero {name : String} (h : PartName name) : ∀ c ∈ nameBytes name, c ≠ 0 := by
  intro c hc
  obtain ⟨a, ha, rfl⟩ := List.mem_map.mp hc
  obtain ⟨h0, h1⟩ := h.bytes a ha
  intro heq
  have := congrArg UInt8.toNat heq
  simp only [UInt8.toNat_ofNat', UInt8.toNat_zero] at this
  omega

theorem strncmpEq_name {name : String} (h : PartName name) (e : PartitionEntry) :
    strncmpEq name.length (cstring name) (Mem.ofList e.name) = true ↔ StartsWith name e := by
  have hlen : name.length = (nameBytes name).length := by
    rw [nameBytes, List.length_map, String.length_toList]
  rw [hlen]
  exact strncmpEq_iff_prefix (nameBytes_ne_zero h)

theorem isFind_pure {σ : Type} {name : String} (h : PartName name) (m : Mem) (a : ℕ) :
    isFind (fun i => (pure (m (a + i)) : Prog σ UInt8)) name =
      pure ((entryAt m a).filter fun e => StartsWith name e) := by
  rw [isFind, parseGptEntry_pure, Prog.pure_bind]
  rcases entryAt m a with _ | e
  · rfl
  · by_cases he : StartsWith name e
    · rw [Option.filter_some, if_pos (decide_eq_true he)]
      simp only [(strncmpEq_name h e).mpr he, if_true]
    · rw [Option.filter_some, if_neg (by simpa using he)]
      simp only [mt (strncmpEq_name h e).mp he, Bool.false_eq_true, if_false]

/-! ## The scan -/

section Scan

variable {m : Mem} {header : GptHeader} {name : String} {per : ℕ}

/-- The test of the scan on entry `j`. -/
def candidate (m : Mem) (header : GptHeader) (name : String) (j : ℕ) : Option PartitionEntry :=
  (tableEntry m header j).filter fun e => StartsWith name e

/-- The entries `k`, ..., `per - 1` of block `i`. -/
theorem scanBlock_eq {σ : Type} {buf : Mem} {i : ℕ} (hname : PartName name)
    (hsize : GPT_ENTRY_SIZE ≤ header.partSize) (hper : header.partSize * per = 512)
    (hbuf : ∀ x < 512, buf x = m (1024 + 512 * i + x)) (d k : ℕ) (hk : k + d = per) :
    scanBlock buf header.partSize name (header.partSize * k) =
      (pure (match (List.range' (per * i + k) d).findSome? (candidate m header name) with
        | some e => .inl e
        | none => .inr 512) : Prog σ (Sum PartitionEntry ℕ)) := by
  unfold GPT_ENTRY_SIZE at hsize
  induction d generalizing k with
  | zero =>
    rw [Nat.add_zero] at hk
    rw [hk, hper, scanBlock, if_neg (by omega)]
    rfl
  | succ d ih =>
    have hin : header.partSize * k + header.partSize ≤ 512 := by
      rw [← hper, ← hk, ← Nat.mul_succ]
      exact Nat.mul_le_mul_left _ (by omega)
    have hpos : header.partSize * (per * i + k) = 512 * i + header.partSize * k := by
      rw [Nat.mul_add, ← Nat.mul_assoc, hper]
    have hfind : isFind (fun x => byteOf buf 512 (header.partSize * k + x)) name =
        (pure (candidate m header name (per * i + k)) : Prog σ (Option PartitionEntry)) := by
      rw [candidate, tableEntry, ← isFind_pure hname]
      refine isFind_congr fun x hx => ?_
      unfold GPT_ENTRY_SIZE at hx
      rw [byteOf, if_pos (by omega), hbuf _ (by omega), hpos]
      congr 2
      omega
    rw [scanBlock, if_pos hin, hfind, Prog.pure_bind, List.range'_succ, List.findSome?_cons]
    rcases candidate m header name (per * i + k) with _ | e
    · simp only [if_neg (show header.partSize ≠ 0 by omega)]
      rw [← Nat.mul_succ, ih (k + 1) (by omega)]
      rfl
    · rfl

/-- The entries of `n` blocks from block `i` on. -/
theorem run_scanBlocks {t : State} {p : ℕ} (ht : AllSucceed t) (hsel : t.sel = p)
    (hname : PartName name) (hsize : GPT_ENTRY_SIZE ≤ header.partSize)
    (hper : header.partSize * per = 512) (n i : ℕ) (elem : Mem) :
    ∃ t', (scanBlocks header.partSize name n i 0 elem).run t =
      (some ((List.range' (per * i) (per * n)).findSome? (candidate (t.part p) header name)), t') ∧
      SameStore t t' := by
  induction n generalizing i t elem with
  | zero => exact ⟨t, rfl, SameStore.refl t⟩
  | succ n ih =>
    obtain ⟨buf, u, hread, hu, husel, hbuf⟩ := run_readBlock ht hsel (GPT_BLOCK_ENTRY_OFFSET + i)
    have hbytes : ∀ x < 512, buf x = t.part p (1024 + 512 * i + x) := by
      intro x hx
      rw [hbuf x hx]
      unfold GPT_BLOCK_ENTRY_OFFSET addrToBlk
      congr 1
      omega
    have hblock : scanBlock buf header.partSize name (header.partSize * 0) = (pure _ : Prog State _) :=
      scanBlock_eq hname hsize hper hbytes per 0 (Nat.zero_add _)
    rw [Nat.mul_zero] at hblock
    have hrange : List.range' (per * i) (per * (n + 1)) =
        List.range' (per * i + 0) per ++ List.range' (per * (i + 1)) (per * n) := by
      rw [Nat.add_zero (per * i), Nat.mul_succ per i, List.range'_append_1, Nat.mul_succ, Nat.add_comm per]
    rw [scanBlocks, Prog.run_bind_of_some hread]
    simp only [Bool.not_true, Bool.false_eq_true, if_false, scanSplit, if_true, Prog.run_bind_pure,
      hblock]
    rw [hrange, List.findSome?_append]
    rcases (List.range' (per * i + 0) per).findSome? (candidate (t.part p) header name) with _ | e
    · obtain ⟨t', ht', hs⟩ := ih (ht.of_sameStore hu) husel (i + 1) elem
      rw [hu.part] at ht'
      exact ⟨t', ht', hu.trans hs⟩
    · exact ⟨u, rfl, hu⟩

/-- The lookup stops at the first entry of the blocks read whose name starts with the name. -/
theorem run_getPartInfo_first {t : State} {p : ℕ} (ht : AllSucceed t) (hname : PartName name)
    (hsize : header.partSize = 128 ∨ header.partSize = 256 ∨ header.partSize = 512) :
    ∃ t', (getPartInfo p header name).run t =
      (some (first (tableEntry (t.part p) header) (StartsWith name) (entriesRead header)), t') := by
  have hper : header.partSize * (512 / header.partSize) = 512 := by
    rcases hsize with h | h | h <;> rw [h]
  have hmax : tableLength header ≤ 128 := Nat.min_le_right _ _
  have hbytes : header.partSize * tableLength header ≤ 512 * 128 :=
    Nat.mul_le_mul (by omega) hmax
  have hblocks : addrToBlk ((header.partSize * tableLength header % 2 ^ 32 + EMMC_SECTOR_SIZE - 1) %
      2 ^ 32) = (header.partSize * tableLength header + 511) / 512 := by
    unfold addrToBlk EMMC_SECTOR_SIZE
    omega
  obtain ⟨u, hsel, hu, husel⟩ := run_select ht p
  obtain ⟨v, hscan, -⟩ := run_scanBlocks (ht.of_sameStore hu) husel hname
    (by unfold GPT_ENTRY_SIZE; omega) hper
    ((header.partSize * tableLength header + 511) / 512) 0 fun _ => 0
  rw [hu.part, Nat.mul_zero, ← List.range_eq_range', Nat.mul_comm (512 / header.partSize)] at hscan
  refine ⟨v, ?_⟩
  unfold getPartInfo
  rw [Prog.run_bind_of_some hsel]
  change (scanBlocks header.partSize name (addrToBlk ((header.partSize * tableLength header % 2 ^ 32 +
    EMMC_SECTOR_SIZE - 1) % 2 ^ 32)) 0 0 fun _ => 0).run u = _
  rw [hblocks]
  exact hscan

/-- `get_part_info` reports the entry that the table has under the name, if and only if the
first entry read whose name starts with it has this very name and is one of the table's. -/
theorem getPartInfo_exact_iff {t : State} {p : ℕ} (ht : AllSucceed t) (hname : PartName name)
    (hsize : header.partSize = 128 ∨ header.partSize = 256 ∨ header.partSize = 512) :
    (∃ t', (getPartInfo p header name).run t = (some (partitionNamed (t.part p) header name), t')) ↔
      ∀ j < entriesRead header, ∀ e, tableEntry (t.part p) header j = some e → StartsWith name e →
        (∀ i < j, ∀ e', tableEntry (t.part p) header i = some e' → ¬ StartsWith name e') →
        Named name e ∧ j < tableLength header := by
  have hread : tableLength header ≤ entriesRead header := by
    have hmax : tableLength header ≤ 128 := Nat.min_le_right _ _
    unfold entriesRead
    rcases hsize with h | h | h <;> rw [h] <;> omega
  have hprefix : ∀ e, Named name e → StartsWith name e := by
    intro e he
    unfold StartsWith
    rw [show e.name = nameBytes name from he]
  rw [partitionNamed, ← first_eq_first_iff hprefix hread]
  obtain ⟨t', hrun⟩ := run_getPartInfo_first (p := p) ht hname hsize
  constructor
  · rintro ⟨t'', h⟩
    exact Option.some.inj (congrArg Prod.fst (hrun.symm.trans h))
  · intro h
    exact ⟨t', by rw [hrun, h]⟩

end Scan

/-! ## A table in which names start with one another -/

/-- An entry of 128 bytes for the sectors `first` to `last`. -/
def entryBytes (first last : UInt8) (name : String) : Mem := fun i =>
  if i = 32 then first
  else if i = 40 then last
  else if 56 ≤ i ∧ i % 2 = 0 then cstring name ((i - 56) / 2)
  else 0

/-- The entries `misc2`, `misc` and `boot`, of which a header may announce some. -/
def threeEntries : Mem := fun a =>
  if a < 1024 then 0
  else if a < 1152 then entryBytes 34 161 "misc2" (a - 1024)
  else if a < 1280 then entryBytes 162 170 "misc" (a - 1152)
  else if a < 1408 then entryBytes 171 200 "boot" (a - 1280)
  else 0

/-- A card with this medium, on which every access succeeds. -/
def mediumCard (m : Mem) : State where
  part _ := m
  sel := USER_PARTITION
  outcomes _ := .success
  pos := 0
  dram _ := 0
  stack _ := 0
  partitionAccess := 0
  bootPartitionEn := 0
  bootPartition := 0
  avbAbFlowSuccess := 0

theorem threeEntries_first : tableEntry threeEntries ⟨2, 128⟩ 0 =
    some ⟨34 * 512, 128 * 512, nameBytes "misc2"⟩ := by
  decide +kernel

theorem getPartInfo_exact_misc2 :
    ∃ t', (getPartInfo USER_PARTITION ⟨2, 128⟩ "misc2").run (mediumCard threeEntries) =
      (some (partitionNamed threeEntries ⟨2, 128⟩ "misc2"), t') :=
  (getPartInfo_exact_iff (fun _ => rfl) ⟨by simp, by decide⟩ (.inl rfl)).mpr <| by
    intro j _ e he _ hbefore
    rcases j.eq_zero_or_pos with rfl | hj
    · obtain rfl := Option.some.inj (threeEntries_first.symm.trans he)
      exact ⟨rfl, by decide⟩
    · exact absurd (List.prefix_refl _) (hbefore 0 hj _ threeEntries_first)

/-- The entry `misc2` is taken for `misc`, and `boot` is found although the header announces
two entries. -/
theorem prefix_is_taken :
    ((getPartInfo USER_PARTITION ⟨2, 128⟩ "misc").run (mediumCard threeEntries)).1 =
        some (some ⟨34 * 512, 128 * 512, nameBytes "misc2"⟩) ∧
      partitionNamed threeEntries ⟨2, 128⟩ "misc" = some ⟨162 * 512, 9 * 512, nameBytes "misc"⟩ ∧
      ((getPartInfo USER_PARTITION ⟨2, 128⟩ "boot").run (mediumCard threeEntries)).1 =
        some (some ⟨171 * 512, 30 * 512, nameBytes "boot"⟩) ∧
      partitionNamed threeEntries ⟨2, 128⟩ "boot" = none := by
  have hrun : ∀ name, PartName name →
      ((getPartInfo USER_PARTITION ⟨2, 128⟩ name).run (mediumCard threeEntries)).1 =
        some (first (tableEntry threeEntries ⟨2, 128⟩) (StartsWith name) 4) := by
    intro name hname
    have hsucceed : AllSucceed (mediumCard threeEntries) := fun _ => rfl
    obtain ⟨t', h⟩ := run_getPartInfo_first (p := USER_PARTITION) hsucceed hname
      (show (GptHeader.mk 2 128).partSize = 128 ∨ _ from .inl rfl)
    exact congrArg Prod.fst h
  rw [hrun "misc" ⟨by simp, by decide⟩, hrun "boot" ⟨by simp, by decide⟩]
  decide +kernel

end RCar.Bl2
