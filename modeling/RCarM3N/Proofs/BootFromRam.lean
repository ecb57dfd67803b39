import RCarM3N.Model.BootFromRam

/-! The boot from memory places the kernel, the ramdisks and the device tree as the headers say exactly when the
kernel fits its space, the ranges are apart, and each copy takes the bytes of its part: nothing checks that a raw
kernel fits, and nothing keeps a copy from what is still to be read. -/

namespace RCar.BootRam

open Fastboot (ascii)
open Fastboot.ZImage (ALIGN BOOT_IMAGE_HEADER_V3_PAGESIZE)
open AndroidImage (IH_MAGIC)

/-! ## Copies -/

/-- Where the byte at `a` was before the copy. -/
def origin (c : Option Copy) (a : ℕ) : ℕ := c.elim a fun c => moved c.dst c.src c.len a

def target (c : Option Copy) : Set ℕ := c.elim ∅ fun c => Set.Ico c.dst (c.dst + c.len)

theorem memcpy_eq (m : Mem) (d s n : ℕ) : memcpy m d s n = fun a => m (moved d s n a) := by
  unfold memcpy
  split_ifs with hself halign
  · subst hself
    simp only [moved_self]
  · have hwide : s < d → 8 ≤ d - s := fun h => by omega
    have hone : s < d → 1 ≤ d - s := fun h => by omega
    rw [copyBlocks_eq hwide, copyBlocks_moved hone, Nat.one_mul, Nat.div_add_mod]
  · have hone : s < d → 1 ≤ d - s := fun h => by omega
    rw [copyBlocks_eq hone, Nat.one_mul]

theorem runCopy_eq (c : Option Copy) (m : Mem) : runCopy c m = fun a => m (origin c a) := by
  cases c with
  | none => rfl
  | some c => exact memcpy_eq m c.dst c.src c.len

theorem origin_out {c : Option Copy} {a : ℕ} (h : a ∉ target c) : origin c a = a := by
  cases c with
  | none => rfl
  | some c =>
    simp only [target, Option.elim_some, Set.mem_Ico, not_and_or, not_le, not_lt] at h
    exact moved_out h

theorem put_out {m : Mem} {d a : ℕ} {l : List UInt8} (h : a ∉ Set.Ico d (d + l.length)) : put m d l a = m a := by
  rw [Set.mem_Ico, not_and_or, not_le, not_lt] at h
  exact Mem.copy_out _ _ _ _ _ _ h

def bufferRange (buffer : Option ℕ) : Set ℕ := buffer.elim ∅ fun a => Set.Ico a (a + BOOTREASON_MESSAGE_SIZE)

theorem clear_out {m : Mem} {buffer : Option ℕ} {a : ℕ} (h : a ∉ bufferRange buffer) : clear m buffer a = m a := by
  cases buffer with
  | none => rfl
  | some x =>
    refine put_out ?_
    rwa [List.length_replicate]

/-! ## Where the parts lie in the images -/

section Layout

variable (m : Mem) (hdr vhdr : UInt64)

/-- The bytes of whole pages for `n` bytes. -/
def pages (n page : ℕ) : ℕ := (n + page - 1) / page * page

/-- The image header in front of a kernel. -/
def imageHeaderLen : ℕ := if be32 m (hdr.toNat + 4096) = IH_MAGIC then 64 else 0

def kernelStart : ℕ := hdr.toNat + 4096 + imageHeaderLen m hdr
def kernelBytes : ℕ := (kernelSize m hdr).toNat - imageHeaderLen m hdr
def ramdiskStart : ℕ := hdr.toNat + 4096 + pages (kernelSize m hdr).toNat 4096
def vendorStart : ℕ := vhdr.toNat + pages 2112 (pageSize m vhdr).toNat
def tableStart : ℕ := vendorStart m vhdr + pages (vendorRamdiskSize m vhdr).toNat (pageSize m vhdr).toNat

/-- The fields are those of the headers, and those of the table of trees behind the vendor ramdisk. -/
structure HeaderFields (platId : ℕ) (x : Fields) : Prop where
  vendor : x.vendor = vendorFields m vhdr
  ramdisk : x.ramdisk = ramdiskFields m hdr vhdr
  tree : treeFields m vhdr (.ofNat (tableStart m vhdr)) platId = some x.tree

/-! ## Where they are to be placed -/

/-- A raw kernel has the size of the header, and the rest of its last page. -/
def kernelExtent (n : ℕ) : ℕ := if (packing m (kernelOffset m hdr)).isNone then max n (kernelSize m hdr).toNat else n

def kernelRange (n : ℕ) : Set ℕ := Set.Ico (kernelAddr m vhdr).toNat ((kernelAddr m vhdr).toNat + kernelExtent m hdr n)

/-- Both ramdisks, one behind the other, with the rest of their last pages. -/
def ramdiskExtent : ℕ :=
  max (alignedVendorSize (vendorFields m vhdr)).toNat ((vendorRamdiskSize m vhdr).toNat +
    max (ramdiskSize m hdr).toNat (ALIGN (ramdiskSize m hdr) BOOT_IMAGE_HEADER_V3_PAGESIZE).toNat)

def ramdiskRange : Set ℕ := Set.Ico (ramdiskAddr m vhdr).toNat ((ramdiskAddr m vhdr).toNat + ramdiskExtent m hdr vhdr)

/-- The address behind the vendor ramdisk. -/
def behindVendor : ℕ := (ramdiskAddr m vhdr).toNat + (vendorRamdiskSize m vhdr).toNat

def ramdiskOffset : UInt64 := kernelOffset m hdr + (alignedKernelSize m hdr).toUInt64

/-- The kernel is in its space, the ramdisk is put behind the vendor ramdisk, and the ranges are apart, also from the
buffer that is cleared. -/
structure Arranged (x : Fields) (kernelLen treeLen : ℕ) (buffer : Option ℕ) : Prop where
  window : kernelExtent m hdr kernelLen ≤ (kernelSpace m vhdr).toNat
  behind : ∀ c ∈ ramdiskCopy (ramdiskOffset m hdr) (alignedVendorSize x.vendor) x.ramdisk,
    c.dst = behindVendor m vhdr
  kernel_ramdisk : Disjoint (kernelRange m hdr vhdr kernelLen) (ramdiskRange m hdr vhdr)
  kernel_tree : Disjoint (kernelRange m hdr vhdr kernelLen) (Set.Ico x.tree.dtbAddr (x.tree.dtbAddr + treeLen))
  ramdisk_tree : Disjoint (ramdiskRange m hdr vhdr) (Set.Ico x.tree.dtbAddr (x.tree.dtbAddr + treeLen))
  buffer_kernel : Disjoint (bufferRange buffer) (kernelRange m hdr vhdr kernelLen)
  buffer_ramdisk : Disjoint (bufferRange buffer) (ramdiskRange m hdr vhdr)
  buffer_tree : Disjoint (bufferRange buffer) (Set.Ico x.tree.dtbAddr (x.tree.dtbAddr + treeLen))

/-- Bytes of the image `m` are held somewhere in a memory. -/
def Holds (mem : Mem) (dst start len : ℕ) : Prop := ∀ i < len, mem (dst + i) = m (start + i)

/-- A copy finds these bytes, in the memory before it, for the place where they are to be held. -/
def Takes (before : Mem) (c : Option Copy) (dst start len : ℕ) : Prop :=
  ∀ i < len, before (origin c (dst + i)) = m (start + i)

/-- The kernel that is held is what the source unpacks to, or the source itself. -/
def HoldsKernel (u : Unpacker) (mem : Mem) (n : ℕ) : Prop :=
  match packing m (kernelOffset m hdr) with
  | some p => u.decode p (m.read (kernelOffset m hdr).toNat (kernelSize m hdr).toNat) =
      some (mem.read (kernelAddr m vhdr).toNat n)
  | none => Holds m mem (kernelAddr m vhdr).toNat (kernelStart m hdr) (kernelBytes m hdr)

def treeStart (f : TreeFields) : ℕ := tableStart m vhdr + f.dtOffset.toNat

end Layout

/-- The kernel is started with every part where the headers say, in ranges apart, with the bytes that it has in the
image; the tree had them when it was copied, before it was finished at its place. -/
structure Placed (b : Board) (m : Mem) (hdr vhdr : UInt64) (r : Boot) : Prop where
  header : HeaderFields m hdr vhdr b.platId r.fields
  seed : r.seedAddr = dtbAddr m vhdr
  arranged : Arranged m hdr vhdr r.fields r.kernelLen r.treeLen r.buffer
  kernel : HoldsKernel m hdr vhdr b.unpacker r.mem r.kernelLen
  vendor : Holds m r.mem (ramdiskAddr m vhdr).toNat (vendorStart m vhdr) (vendorRamdiskSize m vhdr).toNat
  ramdisk : Holds m r.mem (behindVendor m vhdr) (ramdiskStart m hdr) (ramdiskSize m hdr).toNat
  tree : Holds m r.base r.fields.tree.dtbAddr (treeStart m vhdr r.fields.tree) r.fields.tree.dtSize.toNat

/-! ## The memory on the way -/

section Way

variable (b : Board) (m : Mem) (hdr vhdr : UInt64) (x : Fields)

def kernelRun : Option (Mem × ℕ) :=
  match packing m (kernelOffset m hdr) with
  | some p => b.unpacker.unpack p m (kernelOffset m hdr).toNat (kernelSize m hdr).toNat (kernelAddr m vhdr).toNat
      (kernelSpace m vhdr).toNat
  | none => some (fun a => m (origin (some (kernelCopy m hdr vhdr)) a), (alignedKernelSize m hdr).toNat)

def afterKernel : Mem := (kernelRun b m hdr vhdr).elim m Prod.fst
def placedLen : ℕ := (kernelRun b m hdr vhdr).elim 0 Prod.snd

def afterVendor : Mem := fun a => afterKernel b m hdr vhdr (origin (vendorCopy vhdr x.vendor) a)

def afterRamdisk : Mem := fun a =>
  afterVendor b m hdr vhdr x (origin (ramdiskCopy (ramdiskOffset m hdr) (alignedVendorSize x.vendor) x.ramdisk) a)

def afterTree : Mem := fun a =>
  afterRamdisk b m hdr vhdr x (origin (treeCopy (loadDtTableFromVendorbootimage m vhdr) x.tree) a)

def finishedTree : List UInt8 := (b.fdt.finish (afterTree b m hdr vhdr x) x.tree.dtbAddr).getD []

def afterFinish : Mem := put (afterTree b m hdr vhdr x) x.tree.dtbAddr (finishedTree b m hdr vhdr x)

def seededTree : List UInt8 := b.fdt.fixupKaslr (afterFinish b m hdr vhdr x) (dtbAddr (afterFinish b m hdr vhdr x) vhdr)

def afterSeed : Mem :=
  put (afterFinish b m hdr vhdr x) (dtbAddr (afterFinish b m hdr vhdr x) vhdr) (seededTree b m hdr vhdr x)

def treeExtent : ℕ :=
  max x.tree.dtSize.toNat (max (finishedTree b m hdr vhdr x).length (seededTree b m hdr vhdr x).length)

def reasonBuffer : Option ℕ :=
  b.fdt.bootreason (afterSeed b m hdr vhdr x) (dtbAddr (afterSeed b m hdr vhdr x) vhdr % 2 ^ 32)

/-- The fields that are read on the way are `x`. -/
structure Reads : Prop where
  vendor : vendorFields (afterKernel b m hdr vhdr) vhdr = x.vendor
  ramdisk : ramdiskFields (afterVendor b m hdr vhdr x) hdr vhdr = x.ramdisk
  tree : treeFields (afterRamdisk b m hdr vhdr x) vhdr (loadDtTableFromVendorbootimage m vhdr) b.platId = some x.tree

/-- What the condition asks of the image: with the fields of the headers the ranges are apart and the kernel fits its
space; the fields that the copies before have left are these; and each copy takes the bytes of its part. -/
structure Lands : Prop where
  header : HeaderFields m hdr vhdr b.platId x
  reads : Reads b m hdr vhdr x
  seed : dtbAddr (afterFinish b m hdr vhdr x) vhdr = dtbAddr m vhdr
  arranged : Arranged m hdr vhdr x (placedLen b m hdr vhdr) (treeExtent b m hdr vhdr x) (reasonBuffer b m hdr vhdr x)
  kernel : HoldsKernel m hdr vhdr b.unpacker (afterKernel b m hdr vhdr) (placedLen b m hdr vhdr)
  vendor : Takes m (afterKernel b m hdr vhdr) (vendorCopy vhdr x.vendor) (ramdiskAddr m vhdr).toNat
    (vendorStart m vhdr) (vendorRamdiskSize m vhdr).toNat
  ramdisk : Takes m (afterVendor b m hdr vhdr x)
    (ramdiskCopy (ramdiskOffset m hdr) (alignedVendorSize x.vendor) x.ramdisk) (behindVendor m vhdr)
    (ramdiskStart m hdr) (ramdiskSize m hdr).toNat
  tree : Takes m (afterRamdisk b m hdr vhdr x) (treeCopy (loadDtTableFromVendorbootimage m vhdr) x.tree)
    x.tree.dtbAddr (treeStart m vhdr x.tree) x.tree.dtSize.toNat

end Way

variable {b : Board} {m : Mem} {hdr vhdr : UInt64} {x : Fields} {r : Boot}

/-! ## The run -/

theorem loadKernel_eq (b : Board) (m : Mem) (hdr vhdr : UInt64) :
    loadKernel b.unpacker m hdr vhdr = kernelRun b m hdr vhdr := by
  unfold loadKernel kernelRun
  cases packing m (kernelOffset m hdr) with
  | some p => rfl
  | none => exact congrArg (fun mem => some (mem, _)) (memcpy_eq _ _ _ _)

/-- What the kernel is started with when the fields `x` have been read. -/
def bootOf (b : Board) (m : Mem) (hdr vhdr : UInt64) (x : Fields) : Boot where
  mem := clear (afterSeed b m hdr vhdr x) (reasonBuffer b m hdr vhdr x)
  kernelLen := placedLen b m hdr vhdr
  fields := x
  base := afterTree b m hdr vhdr x
  treeLen := treeExtent b m hdr vhdr x
  seedAddr := dtbAddr (afterFinish b m hdr vhdr x) vhdr
  buffer := reasonBuffer b m hdr vhdr x

theorem loadTree_eq : loadTree b (afterRamdisk b m hdr vhdr x) vhdr (loadDtTableFromVendorbootimage m vhdr)
      (placedLen b m hdr vhdr) x.vendor x.ramdisk =
    (treeFields (afterRamdisk b m hdr vhdr x) vhdr (loadDtTableFromVendorbootimage m vhdr) b.platId).bind fun tree =>
      (b.fdt.finish (afterTree b m hdr vhdr { x with tree }) tree.dtbAddr).map fun _ =>
        bootOf b m hdr vhdr { x with tree } := by
  unfold loadTree
  simp only [runCopy_eq, bind, pure]
  congr 1
  funext tree
  change (b.fdt.finish (afterTree b m hdr vhdr { x with tree }) tree.dtbAddr).bind _ = _
  cases hfinish : b.fdt.finish (afterTree b m hdr vhdr { x with tree }) tree.dtbAddr with
  | none => rfl
  | some l =>
    have hl : finishedTree b m hdr vhdr { x with tree } = l := by
      rw [finishedTree, hfinish]
      rfl
    subst hl
    rfl

theorem boots_iff : doBootAndroidImgFromRam b m hdr vhdr = .ok r ↔
    checkHeaders m hdr vhdr = .ok () ∧ b.memory = true ∧ (kernelRun b m hdr vhdr).isSome ∧
      ∃ x, Reads b m hdr vhdr x ∧ (b.fdt.finish (afterTree b m hdr vhdr x) x.tree.dtbAddr).isSome ∧
        r = bootOf b m hdr vhdr x := by
  unfold doBootAndroidImgFromRam
  rw [loadKernel_eq]
  cases hcheck : checkHeaders m hdr vhdr with
  | error e => simp [bind, Except.bind]
  | ok _ =>
    cases hmemory : b.memory with
    | false => simp [bind, Except.bind, throw, throwThe, MonadExceptOf.throw]
    | true =>
      cases hkernel : kernelRun b m hdr vhdr with
      | none => simp [bind, Except.bind]
      | some k =>
        obtain ⟨mem, n⟩ := k
        have hafter : afterKernel b m hdr vhdr = mem := by rw [afterKernel, hkernel]; rfl
        have hlen : placedLen b m hdr vhdr = n := by rw [placedLen, hkernel]; rfl
        subst hafter hlen
        simp only [bind, Except.bind, Bool.not_true, Bool.false_eq_true, if_false, runCopy_eq]
        -- the tree's own fields come last, so any will do before they are read
        let y : Fields := ⟨vendorFields (afterKernel b m hdr vhdr) vhdr,
          ramdiskFields (afterVendor b m hdr vhdr ⟨vendorFields (afterKernel b m hdr vhdr) vhdr, ⟨0, 0, 0⟩, ⟨0, 0, 0⟩⟩)
            hdr vhdr, ⟨0, 0, 0⟩⟩
        change orFail (-1) (loadTree b (afterRamdisk b m hdr vhdr y) vhdr _ (placedLen b m hdr vhdr) y.vendor y.ramdisk) =
          _ ↔ _
        rw [loadTree_eq]
        constructor
        · intro h
          cases htree : treeFields (afterRamdisk b m hdr vhdr y) vhdr (loadDtTableFromVendorbootimage m vhdr) b.platId with
          | none => simp [htree] at h
          | some tree =>
            cases hfinish : b.fdt.finish (afterTree b m hdr vhdr { y with tree }) tree.dtbAddr with
            | none => simp [htree, hfinish] at h
            | some l =>
              simp only [htree, hfinish, Option.bind_some, Option.map_some, orFail_some] at h
              exact ⟨trivial, trivial, rfl, { y with tree }, ⟨rfl, rfl, htree⟩, by rw [hfinish]; rfl,
                (Except.ok.inj h).symm⟩
        · rintro ⟨-, -, -, ⟨v, rd, tree⟩, ⟨hv, hrd, htree⟩, hfinish, rfl⟩
          obtain ⟨l, hl⟩ := Option.isSome_iff_exists.mp hfinish
          subst hv
          change ramdiskFields (afterVendor b m hdr vhdr y) hdr vhdr = rd at hrd
          subst hrd
          change treeFields (afterRamdisk b m hdr vhdr y) vhdr _ _ = some tree at htree
          change b.fdt.finish (afterTree b m hdr vhdr { y with tree }) tree.dtbAddr = some l at hl
          simp only [htree, hl, Option.bind_some, Option.map_some]
          rfl

theorem Reads.unique {y : Fields} (hx : Reads b m hdr vhdr x) (hy : Reads b m hdr vhdr y) : x = y := by
  obtain ⟨v, rd, tree⟩ := x
  obtain ⟨v', rd', tree'⟩ := y
  have hv : v = v' := hx.vendor.symm.trans hy.vendor
  subst hv
  have hrd : rd = rd' := hx.ramdisk.symm.trans hy.ramdisk
  subst hrd
  have htree : tree = tree' := Option.some.inj (hx.tree.symm.trans hy.tree)
  rw [htree]

/-! ## What the later steps leave alone -/

theorem target_vendor {f : VendorFields} {a : ℕ} (h : a ∈ target (vendorCopy vhdr f)) :
    f.ramdiskAddr.toNat ≤ a ∧ a < f.ramdiskAddr.toNat + (alignedVendorSize f).toNat := by
  unfold vendorCopy at h
  dsimp only at h
  split_ifs at h
  · exact h
  · exact absurd h (Set.notMem_empty a)

theorem target_ramdisk {offset : UInt64} {size : UInt32} {f : RamdiskFields} {a start : ℕ}
    (hstart : ∀ c ∈ ramdiskCopy offset size f, c.dst = start) (h : a ∈ target (ramdiskCopy offset size f)) :
    start ≤ a ∧ a < start + (ALIGN f.ramdiskSize BOOT_IMAGE_HEADER_V3_PAGESIZE).toNat := by
  unfold ramdiskCopy at h hstart
  split_ifs at h hstart with hplace
  · rw [← hstart _ rfl]
    exact h
  · exact absurd h (Set.notMem_empty a)

theorem HeaderFields.tree_addr (h : HeaderFields m hdr vhdr b.platId x) : x.tree.dtbAddr = dtbAddr m vhdr := by
  obtain ⟨entry, -, htree⟩ := Option.map_eq_some_iff.mp h.tree
  rw [← htree]

section Frames

variable (hheader : HeaderFields m hdr vhdr b.platId x)
  (hseed : dtbAddr (afterFinish b m hdr vhdr x) vhdr = dtbAddr m vhdr)
  (harr : Arranged m hdr vhdr x (placedLen b m hdr vhdr) (treeExtent b m hdr vhdr x) (reasonBuffer b m hdr vhdr x))
include hheader hseed

/-- Once the ramdisks are in place only the tree's range and the buffer are written. -/
theorem mem_outside {a : ℕ} (htree : a ∉ Set.Ico x.tree.dtbAddr (x.tree.dtbAddr + treeExtent b m hdr vhdr x))
    (hbuffer : a ∉ bufferRange (reasonBuffer b m hdr vhdr x)) :
    (bootOf b m hdr vhdr x).mem a = afterRamdisk b m hdr vhdr x a := by
  have hpart : ∀ n ≤ treeExtent b m hdr vhdr x, a ∉ Set.Ico x.tree.dtbAddr (x.tree.dtbAddr + n) := fun n hn ha =>
    htree ⟨ha.1, ha.2.trans_le (Nat.add_le_add_left hn _)⟩
  have hbase : afterTree b m hdr vhdr x a = afterRamdisk b m hdr vhdr x a :=
    congrArg _ (origin_out (hpart _ (le_max_left _ _)))
  have hfinish : afterFinish b m hdr vhdr x a = afterTree b m hdr vhdr x a :=
    put_out (hpart _ ((le_max_left _ _).trans (le_max_right _ _)))
  have hseeded : afterSeed b m hdr vhdr x a = afterFinish b m hdr vhdr x a := by
    unfold afterSeed
    rw [hseed, ← hheader.tree_addr]
    exact put_out (hpart _ ((le_max_right _ _).trans (le_max_right _ _)))
  exact (clear_out hbuffer).trans (hseeded.trans (hfinish.trans hbase))

include harr

theorem mem_ramdiskRange {a : ℕ} (ha : a ∈ ramdiskRange m hdr vhdr) :
    (bootOf b m hdr vhdr x).mem a = afterRamdisk b m hdr vhdr x a :=
  mem_outside hheader hseed (Set.disjoint_left.mp harr.ramdisk_tree ha) (Set.disjoint_right.mp harr.buffer_ramdisk ha)

theorem mem_kernelRange {a : ℕ} (ha : a ∈ kernelRange m hdr vhdr (placedLen b m hdr vhdr)) :
    (bootOf b m hdr vhdr x).mem a = afterKernel b m hdr vhdr a := by
  have hout : a ∉ ramdiskRange m hdr vhdr := Set.disjoint_left.mp harr.kernel_ramdisk ha
  have hramdisk : a ∉ target (ramdiskCopy (ramdiskOffset m hdr) (alignedVendorSize x.vendor) x.ramdisk) := fun h => by
    have := target_ramdisk harr.behind h
    rw [hheader.ramdisk] at this
    unfold behindVendor at this
    exact hout ⟨by omega, this.2.trans_le (by unfold ramdiskExtent; simp only [ramdiskFields]; omega)⟩
  have hvendor : a ∉ target (vendorCopy vhdr x.vendor) := fun h => by
    rw [hheader.vendor] at h
    have := target_vendor h
    exact hout ⟨this.1, this.2.trans_le (Nat.add_le_add_left (le_max_left _ _) _)⟩
  rw [mem_outside hheader hseed (Set.disjoint_left.mp harr.kernel_tree ha) (Set.disjoint_right.mp harr.buffer_kernel ha),
    afterRamdisk, origin_out hramdisk, afterVendor, origin_out hvendor]

/-- The ramdisk is put behind the vendor ramdisk. -/
theorem mem_vendor {i : ℕ} (hi : i < (vendorRamdiskSize m vhdr).toNat) :
    (bootOf b m hdr vhdr x).mem ((ramdiskAddr m vhdr).toNat + i) =
      afterVendor b m hdr vhdr x ((ramdiskAddr m vhdr).toNat + i) := by
  have hin : (ramdiskAddr m vhdr).toNat + i ∈ ramdiskRange m hdr vhdr :=
    ⟨Nat.le_add_right _ _, by unfold ramdiskExtent; omega⟩
  rw [mem_ramdiskRange hheader hseed harr hin, afterRamdisk, origin_out]
  intro h
  have := target_ramdisk harr.behind h
  unfold behindVendor at this
  omega

end Frames

/-! ## What is in place -/

theorem holdsKernel_congr {u : Unpacker} {mem mem' : Mem} {n : ℕ} (h : ∀ a ∈ kernelRange m hdr vhdr n, mem a = mem' a) :
    HoldsKernel m hdr vhdr u mem n ↔ HoldsKernel m hdr vhdr u mem' n := by
  unfold HoldsKernel
  cases hpack : packing m (kernelOffset m hdr) with
  | some p =>
    have hread : mem.read (kernelAddr m vhdr).toNat n = mem'.read (kernelAddr m vhdr).toNat n :=
      Mem.read_congr fun i hi => h _ ⟨Nat.le_add_right _ _, by simp [kernelExtent, hpack, hi]⟩
    rw [hread]
  | none =>
    have hbyte : ∀ i < kernelBytes m hdr, mem ((kernelAddr m vhdr).toNat + i) = mem' ((kernelAddr m vhdr).toNat + i) :=
      fun i hi => h _ ⟨Nat.le_add_right _ _, by
        have : i < (kernelSize m hdr).toNat := hi.trans_le (Nat.sub_le _ _)
        simp [kernelExtent, hpack, this]⟩
    exact forall₂_congr fun i hi => by rw [hbyte i hi]

theorem mem_ramdisk_range {i : ℕ} (hi : i < (ramdiskSize m hdr).toNat) :
    behindVendor m vhdr + i ∈ ramdiskRange m hdr vhdr :=
  ⟨by unfold behindVendor; omega, by unfold behindVendor ramdiskExtent; omega⟩

/-- A boot that has read `x` is placed as the headers say just when the image lands with these fields. -/
theorem placed_bootOf (hreads : Reads b m hdr vhdr x) :
    Placed b m hdr vhdr (bootOf b m hdr vhdr x) ↔ Lands b m hdr vhdr x := by
  constructor
  · intro h
    have hheader := h.header
    have hseed := h.seed
    have harr := h.arranged
    refine ⟨hheader, hreads, hseed, harr, ?_, ?_, ?_, h.tree⟩
    · exact (holdsKernel_congr fun a ha => mem_kernelRange hheader hseed harr ha).mp h.kernel
    · exact fun i hi => (mem_vendor hheader hseed harr hi).symm.trans (h.vendor i hi)
    · exact fun i hi => (mem_ramdiskRange hheader hseed harr (mem_ramdisk_range hi)).symm.trans (h.ramdisk i hi)
  · intro h
    have hheader := h.header
    have hseed := h.seed
    have harr := h.arranged
    refine ⟨hheader, hseed, harr, ?_, ?_, ?_, h.tree⟩
    · exact (holdsKernel_congr fun a ha => mem_kernelRange hheader hseed harr ha).mpr h.kernel
    · exact fun i hi => (mem_vendor hheader hseed harr hi).trans (h.vendor i hi)
    · exact fun i hi => (mem_ramdiskRange hheader hseed harr (mem_ramdisk_range hi)).trans (h.ramdisk i hi)

/-- A kernel of two pages, with the ramdisk's address one page above the kernel's. -/
def tooLarge : Mem := fun a =>
  ([(0x58000000, ascii "ANDROID!" ++ le 4097 ++ le 1), (0x58000028, le 3), (0x58002000, [0x11]), (0x58003000, [0x22]),
    (0x5A000000, ascii "VNDRBOOT" ++ [3, 2048, 0x48080000, 0x48081000, 1].flatMap le),
    (0x5A000834, [188, 0x48000000, 0].flatMap le), (0x5A001000, [0x33]),
    (0x5A001800, [DT_TABLE_MAGIC, 188, 32, 32, 1, 32, 2048, 0, 124, 64, 0x04779650, 0, 0, 0, 0, 0].flatMap be ++
      tree.flatMap be)].findSome? fun p => if p.1 ≤ a then p.2[a - p.1]? else none).getD 0
where
  le (x : UInt32) : List UInt8 := [byte32 x 0, byte32 x 1, byte32 x 2, byte32 x 3]
  be (x : UInt32) : List UInt8 := (le x).reverse
  /-- A tree of the nodes `android`, with `partitions`, and `chosen`, without room for more. -/
  tree : List UInt32 := [0xd00dfeed, 124, 56, 124, 40, 17, 16, 0, 0, 68, 0, 0, 0, 0, 1, 0, 1, 0x616e6472, 0x6f696400, 1,
    0x70617274, 0x6974696f, 0x6e730000, 2, 2, 1, 0x63686f73, 0x656e0000, 2, 2, 9]

/-- No kernel is unpacked, and the tree stays as it is. -/
def plainBoard : Board where
  unpacker := ⟨fun _ _ _ _ _ _ => none, fun _ _ => none, nofun, nofun, nofun⟩
  fdt := ⟨fun _ _ => some [], fun _ _ => [], fun _ _ => none⟩
  platId := 0x04779650
  memory := true

theorem tooLarge_boots : doBootAndroidImgFromRam plainBoard tooLarge 0x58000000 0x5A000000 =
    .ok (bootOf plainBoard tooLarge 0x58000000 0x5A000000
      ⟨⟨0x48081000, 2048, 1⟩, ⟨0x48081000, 1, 1⟩, ⟨0x48000000, 124, 64⟩⟩) := by
  refine boots_iff.mpr ⟨?_, rfl, ?_, _, ⟨?_, ?_, ?_⟩, rfl, rfl⟩
  · rfl
  · decide +kernel
  · decide +kernel
  · decide +kernel
  · decide +kernel

end RCar.BootRam
