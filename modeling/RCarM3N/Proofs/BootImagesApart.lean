import RCarM3N.Proofs.BootFromRam

/-! Images that lie apart from the addresses in their headers, with the sizes and the page size of a well-formed
image: no copy meets anything that is still to be read, and the parts are placed as the headers say. -/

namespace RCar.BootRam

open Fastboot.ZImage (ALIGN BOOT_IMAGE_HEADER_V3_PAGESIZE)
open AndroidImage (IH_MAGIC)

variable {b : Board} {m mem : Mem} {hdr vhdr tbl : UInt64} {x : Fields} {r : Boot} {k table : ℕ}

/-! ## Sizes in pages -/

theorem toNat_align {n a : UInt32} (hk : k < 32) (ha : a.toNat = 2 ^ k) (hn : n.toNat + 2 ^ k ≤ 2 ^ 32) :
    (ALIGN n a).toNat = pages n.toNat a.toNat := by
  have hpos := Nat.two_pow_pos k
  have hmask : (a - 1).toNat = 2 ^ k - 1 := by
    rw [UInt32.toNat_sub_of_le _ _ (UInt32.le_iff_toNat_le.mpr (by rw [ha]; exact hpos)), ha]
    rfl
  have hsum : (n + (a - 1)).toNat = n.toNat + 2 ^ k - 1 := by
    rw [UInt32.toNat_add, hmask, Nat.mod_eq_of_lt (by omega)]
    omega
  rw [ALIGN, toNat_clearLow _ hk.le hmask, hsum, pages, ha]

theorem le_pages {n page : ℕ} (h : 0 < page) : n ≤ pages n page := by
  have := Nat.div_add_mod (n + page - 1) page
  have hlt := Nat.mod_lt (n + page - 1) h
  rw [Nat.mul_comm] at this
  unfold pages
  omega

theorem pages_lt {n page : ℕ} (h : 0 < page) : pages n page < n + page := by
  have := Nat.div_mul_le_self (n + page - 1) page
  unfold pages
  omega

theorem toNat_signExtended {y : UInt32} (h : y.toNat < 2 ^ 31) : y.toInt32.toInt64.toUInt64.toNat = y.toNat := by
  have hmsb : y.toBitVec.msb = false := BitVec.msb_eq_false_iff_two_mul_lt.mpr (by rw [UInt32.toNat_toBitVec]; omega)
  change (y.toBitVec.signExtend 64).toNat = y.toNat
  rw [BitVec.signExtend_eq_setWidth_of_msb_false hmsb, BitVec.toNat_setWidth, UInt32.toNat_toBitVec]
  exact Nat.mod_eq_of_lt (by omega)

/-- The size of the header is small, so that its sign plays no part. -/
theorem toNat_alignedHeaderSize {page : UInt32} (hk : k ≤ 30) (hpage : page.toNat = 2 ^ k) :
    (alignedHeaderSize page).toNat = pages 2112 page.toNat := by
  have hpow : 2 ^ k ≤ 2 ^ 30 := Nat.pow_le_pow_right (by decide) hk
  have halign : (ALIGN VENDOR_BOOT_IMAGE_HEADER_V3_SIZE page).toNat = pages 2112 page.toNat :=
    toNat_align (by omega) hpage (show 2112 + 2 ^ k ≤ 2 ^ 32 by omega)
  have hlt := pages_lt (show 0 < page.toNat by rw [hpage]; exact Nat.two_pow_pos k) (n := 2112)
  rw [alignedHeaderSize, toNat_signExtended (by omega), halign]

/-! ## What a reader of the fields looks at -/

theorem be32_congr {m' : Mem} {a a' : ℕ} (h : ∀ i < 4, mem (a + i) = m' (a' + i)) : be32 mem a = be32 m' a' := by
  rw [be32, be32, Mem.le32_congr h]

theorem vendorFields_congr (h : ∀ i < 2112, mem (vhdr.toNat + i) = m (vhdr.toNat + i)) :
    vendorFields mem vhdr = vendorFields m vhdr := by
  have hword : ∀ off < 2109, mem.le32 (vhdr.toNat + off) = m.le32 (vhdr.toNat + off) := fun off hoff =>
    Mem.le32_congr fun i hi => by
      rw [Nat.add_assoc]
      exact h _ (by omega)
  simp only [vendorFields, ramdiskAddr, pageSize, vendorRamdiskSize, hword 20 (by decide), hword 12 (by decide),
    hword 24 (by decide)]

theorem dtbAddr_congr (h : ∀ i < 2112, mem (vhdr.toNat + i) = m (vhdr.toNat + i)) : dtbAddr mem vhdr = dtbAddr m vhdr :=
  Mem.le64_congr fun i hi => by
    rw [Nat.add_assoc]
    exact h _ (by omega)

theorem ramdiskFields_congr (hboot : ∀ i < 16, mem (hdr.toNat + i) = m (hdr.toNat + i))
    (h : ∀ i < 2112, mem (vhdr.toNat + i) = m (vhdr.toNat + i)) :
    ramdiskFields mem hdr vhdr = ramdiskFields m hdr vhdr := by
  have hsize : ramdiskSize mem hdr = ramdiskSize m hdr := Mem.le32_congr fun i hi => by
    rw [Nat.add_assoc]
    exact hboot _ (by omega)
  have hvendor := vendorFields_congr h
  simp only [vendorFields, VendorFields.mk.injEq] at hvendor
  rw [ramdiskFields, ramdiskFields, hsize, hvendor.1, hvendor.2.2]

/-- The number of entries of a table. -/
def dtCount (m : Mem) (tbl : UInt64) : ℕ := (be32 m (tbl.toNat + 16)).toInt32.toInt.toNat

/-- The entries of a table lie in it. -/
structure TableIn (m : Mem) (tbl : UInt64) (table : ℕ) : Prop where
  header : 32 ≤ table
  entries : (be32 m (tbl.toNat + 20)).toNat + 32 * dtCount m tbl ≤ table
  addresses : tbl.toNat + table ≤ 2 ^ 64

theorem dtEntry_in (h : TableIn m tbl table) {i : ℕ} (hi : i < dtCount m tbl) :
    tbl.toNat ≤ dtEntry m tbl i ∧ dtEntry m tbl i + 32 ≤ tbl.toNat + table := by
  obtain ⟨-, hentries, haddr⟩ := h
  have hoff : (tbl + (be32 m (tbl.toNat + 20)).toUInt64).toNat = tbl.toNat + (be32 m (tbl.toNat + 20)).toNat := by
    rw [UInt64.toNat_add, UInt32.toNat_toUInt64]
    exact Nat.mod_eq_of_lt (by omega)
  unfold dtEntry
  rw [hoff]
  omega

theorem getFdtByPlatId_some {platId entry : ℕ} (h : getFdtByPlatId m tbl platId = some entry) :
    ∃ i < dtCount m tbl, entry = dtEntry m tbl i := by
  unfold getFdtByPlatId at h
  split_ifs at h
  obtain ⟨i, hfind, rfl⟩ := Option.map_eq_some_iff.mp h
  exact ⟨i, List.mem_range.mp (List.mem_of_find?_eq_some hfind), rfl⟩

theorem treeFields_congr {platId : ℕ} (h : ∀ i < 2112, mem (vhdr.toNat + i) = m (vhdr.toNat + i))
    (htable : TableIn m tbl table) (ht : ∀ i < table, mem (tbl.toNat + i) = m (tbl.toNat + i)) :
    treeFields mem vhdr tbl platId = treeFields m vhdr tbl platId := by
  have hin : ∀ a, tbl.toNat ≤ a → a + 4 ≤ tbl.toNat + table → be32 mem a = be32 m a := fun a h1 h2 =>
    be32_congr fun i hi => by
      have := ht (a - tbl.toNat + i) (by omega)
      rwa [show tbl.toNat + (a - tbl.toNat + i) = a + i by omega] at this
  have hheader := htable.header
  have hword : ∀ off ≤ 28, be32 mem (tbl.toNat + off) = be32 m (tbl.toNat + off) := fun off hoff =>
    hin _ (by omega) (by omega)
  have hentry : dtEntry mem tbl = dtEntry m tbl := by
    funext i
    rw [dtEntry, dtEntry, hword 20 (by decide)]
  have hcheck : checkFdtHeader mem tbl = checkFdtHeader m tbl := by
    have hmagic := hword 0 (by decide)
    rw [Nat.add_zero] at hmagic
    rw [checkFdtHeader, checkFdtHeader, hmagic, hword 12 (by decide)]
  have hfind : getFdtByPlatId mem tbl platId = getFdtByPlatId m tbl platId := by
    rw [getFdtByPlatId, getFdtByPlatId, hcheck, hword 16 (by decide), hentry]
    congr 2
    refine List.find?_congr fun i hi => ?_
    have := dtEntry_in htable (List.mem_range.mp hi)
    rw [hin _ (by omega) (by omega)]
  rw [treeFields, treeFields, hfind, dtbAddr_congr h]
  refine Option.map_congr fun entry hentry => ?_
  obtain ⟨i, hi, rfl⟩ := getFdtByPlatId_some hentry
  have := dtEntry_in htable hi
  rw [hin _ (by omega) (by omega), hin _ (by omega) (by omega)]

/-! ## Images apart from where they go -/

/-- The boot image and the vendor boot image, the latter with so many bytes of its table of trees. -/
def images (m : Mem) (hdr vhdr : UInt64) (table : ℕ) : Set ℕ :=
  Set.Ico hdr.toNat (ramdiskStart m hdr + (ramdiskSize m hdr).toNat) ∪ Set.Ico vhdr.toNat (tableStart m vhdr + table)

theorem bootHeader_in {i : ℕ} (hi : i < 4096) : hdr.toNat + i ∈ images m hdr vhdr table :=
  .inl ⟨by omega, by unfold ramdiskStart; omega⟩

theorem table_in {i : ℕ} (hi : i < table) : tableStart m vhdr + i ∈ images m hdr vhdr table :=
  .inr ⟨by unfold tableStart vendorStart; omega, by omega⟩

theorem ramdisk_in {i : ℕ} (hi : i < (ramdiskSize m hdr).toNat) : ramdiskStart m hdr + i ∈ images m hdr vhdr table :=
  .inl ⟨by unfold ramdiskStart; omega, by omega⟩

theorem kernelSpace_pos (m : Mem) (vhdr : UInt64) : 0 < (kernelSpace m vhdr).toNat := by
  unfold kernelSpace
  split_ifs with h1 h2
  · rw [UInt32.toNat_sub_of_le _ _ (UInt32.le_of_lt h1)]
    exact Nat.sub_pos_of_lt (UInt32.lt_iff_toNat_lt.mp h1)
  · rw [UInt32.toNat_sub_of_le _ _ (UInt32.le_of_lt h2)]
    exact Nat.sub_pos_of_lt (UInt32.lt_iff_toNat_lt.mp h2)
  · decide

/-- Well-formed images that lie apart from the kernel's space, the ramdisks and the tree. -/
structure Clear (b : Board) (m : Mem) (hdr vhdr : UInt64) (x : Fields) (k table : ℕ) : Prop where
  header : HeaderFields m hdr vhdr b.platId x
  arranged : Arranged m hdr vhdr x (placedLen b m hdr vhdr) (treeExtent b m hdr vhdr x) (reasonBuffer b m hdr vhdr x)
  page : (pageSize m vhdr).toNat = 2 ^ k
  page_le : k ≤ 30
  noHeader : imageHeaderLen m hdr = 0
  kernelSize_le : (kernelSize m hdr).toNat + 4096 ≤ 2 ^ 32
  ramdiskSize_le : (ramdiskSize m hdr).toNat + 4096 ≤ 2 ^ 32
  vendorSize_le : (vendorRamdiskSize m vhdr).toNat + 2 ^ k ≤ 2 ^ 32
  vendor_ne : vhdr ≠ 0
  bootEnd : ramdiskStart m hdr + (ramdiskSize m hdr).toNat < 2 ^ 64
  vendorEnd : tableStart m vhdr + table ≤ 2 ^ 64
  entries : TableIn m (.ofNat (tableStart m vhdr)) table
  tree : x.tree.dtOffset.toNat + x.tree.dtSize.toNat ≤ table
  kernelApart : Disjoint (images m hdr vhdr table)
    (Set.Ico (kernelAddr m vhdr).toNat ((kernelAddr m vhdr).toNat + (kernelSpace m vhdr).toNat))
  ramdiskApart : Disjoint (images m hdr vhdr table) (ramdiskRange m hdr vhdr)
  treeApart : Disjoint (images m hdr vhdr table)
    (Set.Ico x.tree.dtbAddr (x.tree.dtbAddr + treeExtent b m hdr vhdr x))
  /-- The ramdisk is taken for being in place by the vendor ramdisk's size in pages. -/
  inPlace : (ramdiskAddr m vhdr).toNat + (alignedVendorSize (vendorFields m vhdr)).toNat ≠ ramdiskStart m hdr ∨
    vendorRamdiskSize m vhdr = alignedVendorSize (vendorFields m vhdr)

namespace Clear

variable (h : Clear b m hdr vhdr x k table)
include h

theorem page_pos : 0 < (pageSize m vhdr).toNat := by
  rw [h.page]
  exact Nat.two_pow_pos k

theorem alignedVendor : (alignedVendorSize (vendorFields m vhdr)).toNat =
    pages (vendorRamdiskSize m vhdr).toNat (pageSize m vhdr).toNat :=
  toNat_align (h.page_le.trans_lt (by decide)) h.page h.vendorSize_le

theorem alignedKernel : (alignedKernelSize m hdr).toNat = pages (kernelSize m hdr).toNat 4096 :=
  toNat_align (k := 12) (by decide) (by decide) h.kernelSize_le

theorem alignedRamdisk : (ALIGN (ramdiskSize m hdr) BOOT_IMAGE_HEADER_V3_PAGESIZE).toNat =
    pages (ramdiskSize m hdr).toNat 4096 :=
  toNat_align (k := 12) (by decide) (by decide) h.ramdiskSize_le

theorem kernelOffset_eq : (kernelOffset m hdr).toNat = kernelStart m hdr := by
  have hend := h.bootEnd
  have hno := h.noHeader
  have haddr : (hdr + BOOT_IMAGE_HEADER_V3_PAGESIZE.toUInt64).toNat = hdr.toNat + 4096 := by
    rw [UInt64.toNat_add]
    exact Nat.mod_eq_of_lt (show hdr.toNat + 4096 < 2 ^ 64 by unfold ramdiskStart at hend; omega)
  unfold kernelOffset kernelStart
  simp only [haddr]
  rw [hno]
  unfold imageHeaderLen at hno
  split_ifs at hno with hmagic
  rw [if_neg hmagic, haddr]

theorem kernelStart_add : kernelStart m hdr + pages (kernelSize m hdr).toNat 4096 = ramdiskStart m hdr := by
  rw [kernelStart, h.noHeader]
  rfl

theorem ramdiskOffset_eq : (ramdiskOffset m hdr).toNat = ramdiskStart m hdr := by
  have hend := h.bootEnd
  rw [ramdiskOffset, UInt64.toNat_add, h.kernelOffset_eq, UInt32.toNat_toUInt64, h.alignedKernel, h.kernelStart_add]
  exact Nat.mod_eq_of_lt (by omega)

theorem vendorOffset_eq : (vhdr + alignedHeaderSize (pageSize m vhdr)).toNat = vendorStart m vhdr := by
  have hend := h.vendorEnd
  have hheader := h.entries.header
  rw [UInt64.toNat_add, toNat_alignedHeaderSize h.page_le h.page]
  exact Nat.mod_eq_of_lt (by unfold tableStart vendorStart at hend; omega)

theorem table_eq : loadDtTableFromVendorbootimage m vhdr = .ofNat (tableStart m vhdr) := by
  have hend := h.vendorEnd
  have hheader := h.entries.header
  have hsum : vendorStart m vhdr + pages (vendorRamdiskSize m vhdr).toNat (pageSize m vhdr).toNat = tableStart m vhdr := rfl
  rw [loadDtTableFromVendorbootimage, if_neg h.vendor_ne]
  apply UInt64.toNat_inj.mp
  have halign := h.alignedVendor
  simp only [alignedVendorSize, vendorFields] at halign
  rw [UInt64.toNat_add, h.vendorOffset_eq, UInt32.toNat_toUInt64, halign, hsum,
    UInt64.toNat_ofNat_of_lt' (show tableStart m vhdr < UInt64.size by unfold UInt64.size; omega)]
  exact Nat.mod_eq_of_lt (by omega)

theorem toNat_table : (loadDtTableFromVendorbootimage m vhdr).toNat = tableStart m vhdr := by
  have hend := h.vendorEnd
  have hheader := h.entries.header
  rw [h.table_eq, UInt64.toNat_ofNat_of_lt' (show tableStart m vhdr < UInt64.size by unfold UInt64.size; omega)]

/-! ### What the steps leave of the images -/

theorem placedLen_le : placedLen b m hdr vhdr ≤ (kernelSpace m vhdr).toNat := by
  refine le_trans ?_ h.arranged.window
  unfold kernelExtent
  split_ifs
  · exact le_max_left _ _
  · exact le_refl _

theorem afterKernel_kept {a : ℕ} (ha : a ∈ images m hdr vhdr table) : afterKernel b m hdr vhdr a = m a := by
  have hout := Set.disjoint_left.mp h.kernelApart ha
  have hlen := h.placedLen_le
  unfold afterKernel
  unfold placedLen at hlen
  unfold kernelRun at hlen ⊢
  cases hpack : packing m (kernelOffset m hdr) with
  | none =>
    rw [hpack] at hlen
    refine congrArg m (origin_out fun hin => hout ⟨hin.1, hin.2.trans_le ?_⟩)
    exact Nat.add_le_add_left hlen _
  | some p =>
    dsimp only
    cases hrun : b.unpacker.unpack p m (kernelOffset m hdr).toNat (kernelSize m hdr).toNat (kernelAddr m vhdr).toNat
        (kernelSpace m vhdr).toNat with
    | none => rfl
    | some k =>
      refine b.unpacker.outside hrun a ?_
      rwa [Set.mem_Ico, not_and_or, not_le, not_lt] at hout

theorem afterVendor_kept {a : ℕ} (ha : a ∈ images m hdr vhdr table) : afterVendor b m hdr vhdr x a = m a := by
  have hout : a ∉ target (vendorCopy vhdr x.vendor) := fun hin => by
    rw [h.header.vendor] at hin
    have := target_vendor hin
    exact Set.disjoint_left.mp h.ramdiskApart ha
      ⟨this.1, this.2.trans_le (Nat.add_le_add_left (le_max_left _ _) _)⟩
  rw [afterVendor, origin_out hout, h.afterKernel_kept ha]

theorem afterRamdisk_kept {a : ℕ} (ha : a ∈ images m hdr vhdr table) : afterRamdisk b m hdr vhdr x a = m a := by
  have hout : a ∉ target (ramdiskCopy (ramdiskOffset m hdr) (alignedVendorSize x.vendor) x.ramdisk) := fun hin => by
    have := target_ramdisk h.arranged.behind hin
    rw [h.header.ramdisk] at this
    unfold behindVendor at this
    exact Set.disjoint_left.mp h.ramdiskApart ha
      ⟨by omega, this.2.trans_le (by unfold ramdiskExtent; simp only [ramdiskFields]; omega)⟩
  rw [afterRamdisk, origin_out hout, h.afterVendor_kept ha]

theorem afterFinish_kept {a : ℕ} (ha : a ∈ images m hdr vhdr table) : afterFinish b m hdr vhdr x a = m a := by
  have hout := Set.disjoint_left.mp h.treeApart ha
  have hpart : ∀ n ≤ treeExtent b m hdr vhdr x, a ∉ Set.Ico x.tree.dtbAddr (x.tree.dtbAddr + n) := fun n hn hin =>
    hout ⟨hin.1, hin.2.trans_le (Nat.add_le_add_left hn _)⟩
  rw [afterFinish, put_out (hpart _ ((le_max_left _ _).trans (le_max_right _ _))), afterTree,
    origin_out (hpart _ (le_max_left _ _)), h.afterRamdisk_kept ha]

/-! ### What lies in the images -/

theorem vendorHeader_in {i : ℕ} (hi : i < 2112) : vhdr.toNat + i ∈ images m hdr vhdr table := by
  have := le_pages h.page_pos (n := 2112)
  exact .inr ⟨by omega, by unfold tableStart vendorStart; omega⟩

theorem vendor_in {i : ℕ} (hi : i < (vendorRamdiskSize m vhdr).toNat) : vendorStart m vhdr + i ∈ images m hdr vhdr table := by
  have := le_pages h.page_pos (n := (vendorRamdiskSize m vhdr).toNat)
  exact .inr ⟨by unfold vendorStart; omega, by unfold tableStart; omega⟩

theorem reads : Reads b m hdr vhdr x where
  vendor := by
    rw [h.header.vendor]
    exact vendorFields_congr fun i hi => h.afterKernel_kept (h.vendorHeader_in hi)
  ramdisk := by
    rw [h.header.ramdisk]
    exact ramdiskFields_congr (fun i hi => h.afterVendor_kept (bootHeader_in (hi.trans (by decide))))
      fun i hi => h.afterVendor_kept (h.vendorHeader_in hi)
  tree := by
    rw [← h.header.tree, h.table_eq]
    refine treeFields_congr (fun i hi => h.afterRamdisk_kept (h.vendorHeader_in hi)) h.entries fun i hi => ?_
    rw [← h.table_eq, h.toNat_table]
    exact h.afterRamdisk_kept (table_in hi)

/-! ### What the copies take -/

theorem holdsKernel (hrun : (kernelRun b m hdr vhdr).isSome) :
    HoldsKernel m hdr vhdr b.unpacker (afterKernel b m hdr vhdr) (placedLen b m hdr vhdr) := by
  have hapart := (Set.disjoint_union_left.mp h.kernelApart).1
  rw [Set.Ico_disjoint_Ico] at hapart
  have hlen := h.placedLen_le
  have hstart := h.kernelStart_add
  have hsize := le_pages (show 0 < 4096 by decide) (n := (kernelSize m hdr).toNat)
  have hfirst : hdr.toNat + 4096 ≤ kernelStart m hdr := Nat.le_add_right _ _
  unfold HoldsKernel afterKernel placedLen
  unfold placedLen at hlen
  unfold kernelRun at hrun hlen ⊢
  cases hpack : packing m (kernelOffset m hdr) with
  | none =>
    rw [hpack] at hlen
    intro i hi
    have hi' : i < (kernelSize m hdr).toNat := hi.trans_le (Nat.sub_le _ _)
    have halign := h.alignedKernel
    have hkernel := h.kernelOffset_eq
    change (alignedKernelSize m hdr).toNat ≤ _ at hlen
    refine congrArg m ?_
    rw [← hkernel]
    exact moved_apart (by simp only [kernelCopy]; omega) (show i < (alignedKernelSize m hdr).toNat by omega)
  | some p =>
    rw [hpack] at hrun
    obtain ⟨⟨m', n⟩, hk⟩ := Option.isSome_iff_exists.mp hrun
    have hspace := kernelSpace_pos m vhdr
    dsimp only at hk ⊢
    rw [hk]
    exact b.unpacker.apart hk (by rw [h.kernelOffset_eq]; omega)

theorem takesVendor : Takes m (afterKernel b m hdr vhdr) (vendorCopy vhdr x.vendor) (ramdiskAddr m vhdr).toNat
    (vendorStart m vhdr) (vendorRamdiskSize m vhdr).toNat := by
  have hapart := (Set.disjoint_union_left.mp h.ramdiskApart).2
  unfold ramdiskRange ramdiskExtent at hapart
  rw [Set.Ico_disjoint_Ico, h.alignedVendor] at hapart
  have hsum : vendorStart m vhdr + pages (vendorRamdiskSize m vhdr).toNat (pageSize m vhdr).toNat = tableStart m vhdr := rfl
  have hfirst : vhdr.toNat ≤ vendorStart m vhdr := Nat.le_add_right _ _
  have hsize := le_pages h.page_pos (n := (vendorRamdiskSize m vhdr).toNat)
  have hoffset := h.vendorOffset_eq
  intro i hi
  have hi' : i < (alignedVendorSize (vendorFields m vhdr)).toNat := by
    rw [h.alignedVendor]
    omega
  rw [h.header.vendor, ← h.afterKernel_kept (h.vendor_in hi)]
  refine congrArg _ ?_
  unfold vendorCopy
  dsimp only
  split_ifs with hplace
  · rw [← hoffset]
    refine moved_apart ?_ hi'
    have halign := h.alignedVendor
    simp only [vendorFields, hoffset] at halign ⊢
    omega
  · have hra : (ramdiskAddr m vhdr).toNat = vendorStart m vhdr := by
      rw [← hoffset, ← UInt32.toNat_toUInt64]
      exact congrArg UInt64.toNat (not_not.mp hplace)
    rw [hra]
    rfl

theorem takesRamdisk : Takes m (afterVendor b m hdr vhdr x)
    (ramdiskCopy (ramdiskOffset m hdr) (alignedVendorSize x.vendor) x.ramdisk) (behindVendor m vhdr)
    (ramdiskStart m hdr) (ramdiskSize m hdr).toNat := by
  have hapart := (Set.disjoint_union_left.mp h.ramdiskApart).1
  unfold ramdiskRange ramdiskExtent at hapart
  rw [Set.Ico_disjoint_Ico, h.alignedRamdisk] at hapart
  have hfirst : hdr.toNat + 4096 ≤ ramdiskStart m hdr := Nat.le_add_right _ _
  have hsize := le_pages (show 0 < 4096 by decide) (n := (ramdiskSize m hdr).toNat)
  have hbehind := h.arranged.behind
  have hoffset := h.ramdiskOffset_eq
  have halign := h.alignedRamdisk
  have hsum : (ramdiskAddr m vhdr).toNat + (vendorRamdiskSize m vhdr).toNat = behindVendor m vhdr := rfl
  intro i hi
  rw [← h.afterVendor_kept (ramdisk_in hi)]
  refine congrArg _ ?_
  unfold ramdiskCopy at hbehind ⊢
  split_ifs at hbehind ⊢ with hplace
  · have hdst := hbehind _ rfl
    dsimp only at hdst
    rw [← hoffset, ← hdst, h.header.ramdisk]
    rw [h.header.ramdisk] at hdst
    refine moved_apart ?_ (show i < (ALIGN (ramdiskSize m hdr) BOOT_IMAGE_HEADER_V3_PAGESIZE).toNat by omega)
    simp only [ramdiskFields] at hdst ⊢
    omega
  · have hplace := congrArg UInt64.toNat (not_not.mp hplace)
    have hsmall := (ramdiskAddr m vhdr).toNat_lt
    have hvendor := (alignedVendorSize (vendorFields m vhdr)).toNat_lt
    rw [hoffset, h.header.ramdisk, h.header.vendor, UInt64.toNat_add, UInt32.toNat_toUInt64, UInt32.toNat_toUInt64,
      Nat.mod_eq_of_lt (by simp only [ramdiskFields]; omega)] at hplace
    rcases h.inPlace with hne | hequal
    · exact absurd hplace hne
    · rw [← hsum, hequal]
      exact congrArg (· + i) hplace

theorem takesTree : Takes m (afterRamdisk b m hdr vhdr x) (treeCopy (loadDtTableFromVendorbootimage m vhdr) x.tree)
    x.tree.dtbAddr (treeStart m vhdr x.tree) x.tree.dtSize.toNat := by
  have hapart := (Set.disjoint_union_left.mp h.treeApart).2
  rw [Set.Ico_disjoint_Ico] at hapart
  have hextent : x.tree.dtSize.toNat ≤ treeExtent b m hdr vhdr x := le_max_left _ _
  have htree := h.tree
  have hend := h.vendorEnd
  have hfirst : vhdr.toNat ≤ tableStart m vhdr := (Nat.le_add_right _ _).trans (Nat.le_add_right _ _)
  have hstart : tableStart m vhdr + x.tree.dtOffset.toNat = treeStart m vhdr x.tree := rfl
  intro i hi
  have hsrc : (loadDtTableFromVendorbootimage m vhdr + x.tree.dtOffset.toUInt64).toNat = treeStart m vhdr x.tree := by
    rw [UInt64.toNat_add, h.toNat_table, UInt32.toNat_toUInt64]
    exact Nat.mod_eq_of_lt (by omega)
  have hin : treeStart m vhdr x.tree + i ∈ images m hdr vhdr table := by
    rw [← hstart, Nat.add_assoc]
    exact table_in (by omega)
  rw [← h.afterRamdisk_kept hin, ← hsrc]
  refine congrArg _ (moved_apart ?_ hi)
  dsimp only
  omega

theorem lands (hrun : (kernelRun b m hdr vhdr).isSome) : Lands b m hdr vhdr x where
  header := h.header
  reads := h.reads
  seed := dtbAddr_congr fun _ hi => h.afterFinish_kept (h.vendorHeader_in hi)
  arranged := h.arranged
  kernel := h.holdsKernel hrun
  vendor := h.takesVendor
  ramdisk := h.takesRamdisk
  tree := h.takesTree

/-- Such images are placed as their headers say. -/
theorem placed (hboot : doBootAndroidImgFromRam b m hdr vhdr = .ok r) : Placed b m hdr vhdr r := by
  obtain ⟨-, -, hrun, y, hreads, -, rfl⟩ := boots_iff.mp hboot
  obtain rfl := hreads.unique h.reads
  exact (placed_bootOf hreads).mpr (h.lands hrun)

end Clear

end RCar.BootRam
