import RCarM3N.Proofs.Bl2Flow
import RCarM3N.Proofs.IplCheck

/-! A partition table with one entry, and the cards on which the flow of BL2 finds its `misc`
partition and images that pass or fail the check. -/

namespace RCar.Bl2

variable {b : ℕ} {s t : State}

/-! ## The parser reads 128 bytes -/

section Congr

variable {σ : Type} {f g : ℕ → Prog σ UInt8}

theorem highBytesZero_congr {l : List ℕ} (h : ∀ i ∈ l, f i = g i) :
    highBytesZero f l = highBytesZero g l := by
  induction l with
  | nil => rfl
  | cons i l ih =>
    rw [highBytesZero, highBytesZero, h i (.head _), ih fun j hj => h j (.tail _ hj)]

theorem lowBytes_congr {l : List ℕ} (h : ∀ i ∈ l, f i = g i) :
    lowBytes f l = lowBytes g l := by
  induction l with
  | nil => rfl
  | cons i l ih =>
    rw [lowBytes, lowBytes, h i (.head _), ih fun j hj => h j (.tail _ hj)]

theorem bytesOf_congr {l : List ℕ} (h : ∀ i ∈ l, f i = g i) :
    bytesOf f l = bytesOf g l := by
  induction l with
  | nil => rfl
  | cons i l ih =>
    rw [bytesOf, bytesOf, h i (.head _), ih fun j hj => h j (.tail _ hj)]

theorem unicodeToAscii_congr (h : ∀ i < 72, f i = g i) :
    unicodeToAscii f = unicodeToAscii g := by
  unfold unicodeToAscii
  rw [highBytesZero_congr (g := g), lowBytes_congr (g := g)]
  all_goals
    intro i hi
    obtain ⟨j, hj, rfl⟩ := List.mem_map.mp hi
    have := List.mem_range.mp hj
    unfold EFI_NAMELEN at this
    exact h _ (by omega)

theorem le64Of_congr (off : ℕ) (h : ∀ i < 8, f (off + i) = g (off + i)) :
    le64Of f off = le64Of g off := by
  unfold le64Of
  rw [bytesOf_congr (g := g)]
  intro i hi
  obtain ⟨j, hj, rfl⟩ := List.mem_map.mp hi
  exact h j (List.mem_range.mp hj)

theorem isFind_congr {name : String} (h : ∀ i < GPT_ENTRY_SIZE, f i = g i) :
    isFind f name = isFind g name := by
  unfold GPT_ENTRY_SIZE at h
  unfold isFind parseGptEntry
  rw [le64Of_congr 32 fun i hi => h _ (by omega),
    le64Of_congr 40 fun i hi => h _ (by omega),
    unicodeToAscii_congr fun i hi => h (56 + i) (by omega)]

end Congr

/-! ## A table with one entry -/

/-- The first entry of a table at block 2, for a parser that stays in it. -/
def firstEntry (m : Mem) : Prog State (Option PartitionEntry) :=
  isFind (fun i => pure (m (1024 + i))) "misc"

/-- A header at block 1 that announces one entry. -/
structure OneEntry (m : Mem) : Prop where
  signature : m.read 512 9 = (cstring "EFI PART").read 0 9
  listNum : (m.le32 (512 + 80)).toNat = 1
  partSize : (m.le32 (512 + 84)).toNat = 128

theorem run_readBlock {p : ℕ} (ht : AllSucceed t) (hsel : t.sel = p) (blk : ℕ) :
    ∃ buf t', (emmcReadSector (fun _ => 0) blk 1).run t = (some (true, buf), t') ∧ SameStore t t' ∧
      t'.sel = p ∧ ∀ i < 512, buf i = t.part p (512 * blk + i) := by
  refine ⟨_, _, run_emmcReadSector ht _ blk one_ne_zero, ⟨rfl, rfl, rfl, rfl⟩, hsel,
    fun i hi => ?_⟩
  rw [Mem.copy_in _ _ _ _ _ _ (by omega) (by omega), hsel, Nat.sub_zero]

theorem run_select (ht : AllSucceed t) (p : ℕ) :
    ∃ t', (emmcSelectPartition p).run t = (some true, t') ∧ SameStore t t' ∧ t'.sel = p := by
  obtain ⟨pos, hp⟩ := run_emmcSelectPartition ht p
  exact ⟨_, hp, ⟨rfl, rfl, rfl, rfl⟩, rfl⟩

theorem run_loadGptHeader (ht : AllSucceed t) (h : OneEntry (t.part USER_PARTITION)) :
    ∃ t', (loadGptHeader USER_PARTITION).run t = (some (some ⟨1, 128⟩), t') ∧ SameStore t t' := by
  obtain ⟨u, hsel, hu, husel⟩ := run_select ht USER_PARTITION
  obtain ⟨buf, v, hread, hv, -, hbuf⟩ :=
    run_readBlock (ht.of_sameStore hu) husel GPT_HEADER_BLK_OFFSET
  rw [hu.part] at hbuf
  have hsig : buf.read 0 9 = (cstring "EFI PART").read 0 9 := by
    rw [← h.signature]
    exact Mem.read_congr fun i hi => by rw [Nat.zero_add, hbuf i (by omega)]; rfl
  have hword : ∀ k, k + 4 ≤ 512 → buf.le32 k = (t.part USER_PARTITION).le32 (512 + k) := by
    intro k hk
    refine Mem.le32_congr fun i hi => ?_
    rw [hbuf _ (by omega), Nat.add_assoc]
    rfl
  refine ⟨v, ?_, hu.trans hv⟩
  unfold loadGptHeader
  rw [Prog.run_bind_of_some hsel, show addrToBlk PLAT_PARTITION_BLOCK_SIZE = 1 from rfl]
  simp only [Bool.not_true, Bool.false_eq_true, if_false]
  rw [Prog.run_bind_of_some hread]
  simp only [Bool.not_true, Bool.false_eq_true, if_false, hsig, ne_eq, not_true_eq_false,
    hword 80 (by omega), hword 84 (by omega), h.listNum, h.partSize]
  rfl

theorem scanBlock_first {buf : Mem} {entrySize : ℕ} {name : String} {e : PartitionEntry}
    (hs : entrySize ≤ 512)
    (he : isFind (fun i => byteOf buf 512 (0 + i)) name =
      (pure (some e) : Prog State (Option PartitionEntry))) :
    scanBlock buf entrySize name 0 = (pure (.inl e) : Prog State _) := by
  rw [scanBlock, if_pos (by omega), he]
  rfl

theorem run_scanBlocks_first {buf elem : Mem} {entrySize k : ℕ} {name : String} {e : PartitionEntry}
    {t' : State} (hs : entrySize ≤ 512)
    (hread : (emmcReadSector (fun _ => 0) (GPT_BLOCK_ENTRY_OFFSET + 0) 1).run t =
      (some (true, buf), t'))
    (he : isFind (fun i => byteOf buf 512 (0 + i)) name =
      (pure (some e) : Prog State (Option PartitionEntry))) :
    (scanBlocks entrySize name (k + 1) 0 0 elem).run t = (some (some e), t') := by
  rw [scanBlocks, Prog.run_bind_of_some hread]
  simp only [Bool.not_true, Bool.false_eq_true, if_false, scanSplit, if_true, Prog.run_bind_pure,
    scanBlock_first hs he]
  rfl

theorem run_getPartInfo {e : PartitionEntry} (ht : AllSucceed t)
    (he : firstEntry (t.part USER_PARTITION) = pure (some e)) :
    ∃ t', (getPartInfo USER_PARTITION ⟨1, 128⟩ "misc").run t = (some (some e), t') ∧
      SameStore t t' := by
  obtain ⟨u, hsel, hu, husel⟩ := run_select ht USER_PARTITION
  obtain ⟨buf, v, hread, hv, -, hbuf⟩ :=
    run_readBlock (ht.of_sameStore hu) husel (GPT_BLOCK_ENTRY_OFFSET + 0)
  rw [hu.part] at hbuf
  have hfind : isFind (fun i => byteOf buf 512 (0 + i)) "misc" =
      (pure (some e) : Prog State (Option PartitionEntry)) := by
    rw [← he, firstEntry]
    refine isFind_congr fun i hi => ?_
    unfold GPT_ENTRY_SIZE at hi
    rw [byteOf, if_pos (by omega), hbuf _ (by omega), Nat.zero_add]
    rfl
  refine ⟨v, ?_, hu.trans hv⟩
  unfold getPartInfo
  rw [Prog.run_bind_of_some hsel]
  exact run_scanBlocks_first (by decide) hread hfind

/-- A table whose first entry is `misc`, outside the sectors of `misc` that change. -/
theorem MiscAt.of_table {e : PartitionEntry} (h : OneEntry (s.part USER_PARTITION))
    (he : firstEntry (s.part USER_PARTITION) = pure (some e)) (hb : addrToBlk e.start = b) :
    MiscAt b s := by
  intro t ht hout
  have hsame : ∀ a < 1536, t.part USER_PARTITION a = s.part USER_PARTITION a :=
    fun a ha => hout a (by omega) (by omega)
  have hone : OneEntry (t.part USER_PARTITION) := by
    refine ⟨?_, ?_, ?_⟩
    · rw [← h.signature]
      exact Mem.read_congr fun i hi => hsame _ (by omega)
    · rw [← h.listNum]
      exact congrArg _ (Mem.le32_congr fun i hi => hsame _ (by omega))
    · rw [← h.partSize]
      exact congrArg _ (Mem.le32_congr fun i hi => hsame _ (by omega))
  have hfirst : firstEntry (t.part USER_PARTITION) = pure (some e) := by
    rw [← he]
    refine isFind_congr fun i hi => ?_
    unfold GPT_ENTRY_SIZE at hi
    rw [hsame _ (by omega)]
  obtain ⟨u, hheader, hu⟩ := run_loadGptHeader ht hone
  obtain ⟨w, hinfo, hw⟩ := run_getPartInfo (ht.of_sameStore hu) (e := e) (by rwa [hu.part])
  refine ⟨e, w, ?_, hu.trans hw, hb⟩
  unfold getMiscPartEntry
  rw [Prog.run_bind_of_some hheader]
  exact hinfo

/-! ## Cards -/

/-- A table with one entry: `misc`, from sector 34 on. -/
def gptDisk : Mem := fun a =>
  if 512 ≤ a ∧ a < 520 then cstring "EFI PART" (a - 512)
  else if a = 592 then 1
  else if a = 596 then 128
  else if a = 1056 then 34
  else if a = 1064 then 161
  else if 1080 ≤ a ∧ a < 1088 ∧ a % 2 = 0 then cstring "misc" ((a - 1080) / 2)
  else 0

def miscEntry : PartitionEntry where
  start := 34 * 512
  length := 128 * 512
  name := [0x6D, 0x69, 0x73, 0x63]

/-- An image whose check succeeds, or a blank one. -/
def bootImage : Bool → Mem
  | true => emptyImage
  | false => fun _ => 0

/-- A card whose `misc` partition holds `d` and `v`, with an image for each slot. -/
def card (d : AvbABData) (v : MiscVirtABMsg) (good : Slot → Bool) : State where
  part := Function.update (Function.update (fun _ => putMisc 34 gptDisk d v)
    PARTITION_ID_BOOT_1 (bootImage (good AVB_AB_SLOT_A)))
    PARTITION_ID_BOOT_2 (bootImage (good AVB_AB_SLOT_B))
  sel := USER_PARTITION
  outcomes _ := .success
  pos := 0
  dram _ := 0
  stack _ := 0
  partitionAccess := 0
  bootPartitionEn := 0
  bootPartition := 0
  avbAbFlowSuccess := 0

theorem user_card (d : AvbABData) (v : MiscVirtABMsg) (good : Slot → Bool) :
    (card d v good).part USER_PARTITION = putMisc 34 gptDisk d v := rfl

theorem gptDisk_firstEntry : firstEntry gptDisk = pure (some miscEntry) := by
  funext s
  rfl

theorem putMisc_gptDisk (d : AvbABData) (v : MiscVirtABMsg) {a : ℕ} (ha : a < 1536) :
    putMisc 34 gptDisk d v a = gptDisk a := by
  rw [putMisc_outside]
  · rw [dataOffset_eq]
    omega
  · rw [msgOffset_eq]
    omega

theorem ready_card (d : AvbABData) (v : MiscVirtABMsg) (good : Slot → Bool) :
    Ready 34 (card d v good) := by
  have hword : ∀ k < 512, (putMisc 34 gptDisk d v).le32 (512 + k) = gptDisk.le32 (512 + k) :=
    fun k hk => Mem.le32_congr fun i hi => putMisc_gptDisk d v (by omega)
  refine ⟨fun _ => rfl, by decide, MiscAt.of_table (e := miscEntry) ?_ ?_ rfl⟩
  · rw [user_card]
    refine ⟨?_, ?_, ?_⟩
    · have h : (putMisc 34 gptDisk d v).read 512 9 = gptDisk.read 512 9 :=
        Mem.read_congr fun i hi => putMisc_gptDisk d v (by omega)
      rw [h]
      decide +kernel
    · rw [hword 80 (by omega)]
      decide +kernel
    · rw [hword 84 (by omega)]
      decide +kernel
  · rw [user_card, ← gptDisk_firstEntry]
    refine isFind_congr fun i hi => ?_
    unfold GPT_ENTRY_SIZE at hi
    rw [putMisc_gptDisk d v (by omega)]

theorem abData_card (d : AvbABData) (v : MiscVirtABMsg) (good : Slot → Bool) :
    abData 34 (card d v good) = d := by
  rw [abData, user_card, dataAt_putMisc]

theorem virtMsg_card (d : AvbABData) (v : MiscVirtABMsg) (good : Slot → Bool) :
    virtMsg 34 (card d v good) = v := by
  rw [virtMsg, user_card, msgAt_putMisc]

/-! ## Checks with a known result -/

theorem iplOffsets_emptyImage : iplOffsets emptyImage = [0, 0, 0, 0] := by decide +kernel

theorem run_checkEmmcHash_bootImage {p : ℕ} (ok : Bool) (hs : AllSucceed s)
    (hp : s.part p = bootImage ok) :
    ∃ t, (checkEmmcHash p).run s = (some (if ok then 0 else -1), t) := by
  cases ok
  · refine ⟨_, Prod.ext (checkEmmcHash_of_not_magic (.inr (hs _)) (hs _) ?_) rfl⟩
    rw [hp]
    decide +kernel
  · have hoff : ∀ off ∈ iplOffsets (s.part p), ¬ 0 < off := by
      rw [hp, bootImage, iplOffsets_emptyImage]
      decide
    obtain ⟨r, t, hrun, hr⟩ := (decides_iff_of_accessesSucceed (p := p)
      ⟨by rw [hp]; decide +kernel, fun off ho h0 => absurd h0 (hoff off ho)⟩ (fun _ _ => hs _)
      fun off ho h0 => absurd h0 (hoff off ho)).mpr fun off ho h0 => absurd h0 (hoff off ho)
    refine ⟨t, ?_⟩
    rw [hrun, hr.mpr ⟨fun _ _ => hs _, fun off ho h0 => absurd h0 (hoff off ho)⟩]
    rfl

/-- Every slot has the image that `good` says. -/
def Images (s : State) (good : Slot → Bool) : Prop := ∀ c, s.part (partitionOf c) = bootImage (good c)

theorem images_card (d : AvbABData) (v : MiscVirtABMsg) (good : Slot → Bool) :
    Images (card d v good) good := by
  rw [Images, Fin.forall_fin_two]
  exact ⟨rfl, rfl⟩

/-- What the checks of such images return. -/
def results (good : Slot → Bool) : Slot → ℤ := fun c => if good c then 0 else -1

/-- On such a card the checks return what the images say. -/
theorem iplResults_of_images {good : Slot → Bool} (h : Ready b s) (himg : Images s good) :
    ∃ t, IplResults s (results good) t := by
  obtain ⟨t0, hread, hd⟩ := run_avbAbReadData h
  have hpart : ∀ c, t0.part (partitionOf c) = bootImage (good c) := by
    intro c
    rw [← himg c]
    refine hd.other ?_
    fin_cases c <;> decide
  have ht0 : AllSucceed t0 := (h.of_disk hd).succeed
  obtain ⟨t1, hA⟩ := run_checkEmmcHash_bootImage _ ht0 (hpart AVB_AB_SLOT_A)
  have hkeep := checkEmmcHash_sameStore (partitionOf AVB_AB_SLOT_A) t0
  rw [hA] at hkeep
  obtain ⟨t2, hB⟩ := run_checkEmmcHash_bootImage (good AVB_AB_SLOT_B) (ht0.of_sameStore hkeep)
    (p := partitionOf AVB_AB_SLOT_B) (by rw [hkeep.part, hpart])
  exact ⟨t2, _, t0, t1, hread, hA, hB⟩

/-- A call of the flow on such a card. -/
theorem run_avbAbFlow_card (d : AvbABData) (v : MiscVirtABMsg) (good : Slot → Bool) (hv : d.Valid) :
    ∃ t s', IplResults (card d v good) (results good) t ∧
      avbAbFlow.run (card d v good) = (some (bootResult (marked (results good) d)), s') ∧
      Disk 34 (card d v good) s' (bootData d (marked (results good) d))
        (flowMsg (marked (results good) d) v) ∧
      ∀ c, currSlot (marked (results good) d) = some c → Reports s' c := by
  obtain ⟨t, hrc⟩ := iplResults_of_images (ready_card d v good) (images_card d v good)
  obtain ⟨s', hrun, hd, hrep⟩ := run_avbAbFlow (ready_card d v good) hrc
  rw [decision, abData_card, loaded_of_valid hv] at hrun hd hrep
  rw [virtMsg_card] at hd
  exact ⟨t, s', hrc, hrun, hd, hrep⟩

end RCar.Bl2
