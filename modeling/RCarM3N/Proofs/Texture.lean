import RCarM3N.Lib.Runs
import RCarM3N.Model.Texture
import RCarM3N.Proofs.TextureRle

/-! What setting images up and down leaves behind: slots, handles, data pointers and the contents of the slots, over
every sequence of calls. -/

namespace RCar.Texture

open Prog

variable {s t u : Video} {img : Img} {i : Fin VIDMEMBUFFERS} {slotAddress : Fin VIDMEMBUFFERS → UInt32}

/-! ## The purpose -/

/-- The memory of a slot. -/
def region (a : UInt32) (n : ℕ) : Set UInt32 := {x | ∃ k < n, x = a + UInt32.ofNat k}

/-- The decompressed size of an image, which is what is allocated. -/
def Img.size (img : Img) : Option UInt32 :=
  (bytesPerPixel img.colourformat).map fun bpp => img.height * img.width * UInt32.ofNat bpp

/-- The image goes to a slot as it is. -/
def Img.raw (img : Img) : Bool := !img.persistent && !img.decompressed

/-- Where ROMFS has a file. -/
def romAddress (s : Video) (name : List UInt8) : Option UInt32 :=
  match s.locRoot with
  | none => none
  | some root => match root.find? fun e => e.name = name, root.head? with
    | some e, some first => some (e.address - first.address + s.clusterImageData)
    | _, _ => none

/-- Where the data of an image are, in ROMFS when its pointer is null. -/
def sourceOf (slotAddress : Fin VIDMEMBUFFERS → UInt32) (s : Video) (img : Img) : Option UInt32 :=
  if s.data img.data = .null then romAddress s img.name else some ((s.data img.data).address slotAddress)

/-- The bytes of the CPU's memory from an address on. -/
def memBytes (mem : UInt32 → UInt8) (a : UInt32) (n : ℕ) : List UInt8 :=
  (List.range n).map fun k => mem (a + UInt32.ofNat k)

/-- The bytes of an image. -/
def ownBytes (slotAddress : Fin VIDMEMBUFFERS → UInt32) (s : Video) (img : Img) : Option (List UInt8) :=
  (sourceOf slotAddress s img).map fun a => memBytes s.mem a img.dataLength.toNat

/-- The graphics library hands out memory that is not in use. -/
def AllocSound (s : Video) (alloc : Option UInt32) (img : Img) : Prop :=
  ∀ a size, alloc = some a → img.size = some size → ∀ i, s.vidmembufferAlloced i = true →
    Disjoint (region a size.toNat) (region (s.vidmembuffer i).mGpuAddress (s.vidmembuffer i).size.toNat)

/-- The calls so far: what each `Init2DImg` of a variable returned that has not been taken back, the last one first, and
the bytes of the image that was set up raw. -/
structure System where
  video : Video
  pending : ℕ → List (Img × Ptr)
  own : ℕ → Option (List UInt8)

inductive Call where
  | init (alloc : Option UInt32) (img : Img) (result : InitResult)
  | deinit (img : Img) (original : Ptr)

/-- A call that returns; a `Deinit2DImg` matches the last `Init2DImg` of the image. -/
inductive Step (slotAddress : Fin VIDMEMBUFFERS → UInt32) : System → Call → System → Prop
  | init {s : System} {v : Video} {alloc : Option UInt32} {img : Img} {r : InitResult}
      (hsound : AllocSound s.video alloc img)
      (hrun : (init2DImg slotAddress alloc img).run s.video = (some r, v)) :
      Step slotAddress s (.init alloc img r) {
        video := v
        pending := Function.update s.pending img.data ((img, r.old) :: s.pending img.data)
        own := if r.ok && img.raw then Function.update s.own img.data (ownBytes slotAddress s.video img) else s.own }
  | deinit {s : System} {v : Video} {img : Img} {original : Ptr} {rest : List (Img × Ptr)}
      (hpending : s.pending img.data = (img, original) :: rest)
      (hrun : (deinit2DImg img original).run s.video = (some (), v)) :
      Step slotAddress s (.deinit img original) {
        video := v
        pending := Function.update s.pending img.data rest
        own := if img.persistent then s.own else Function.update s.own img.data none }

/-- The bytes that an image was set up with stand in its slot. -/
def InSlot (s : Video) (v : ℕ) (bytes : List UInt8) : Prop :=
  ∃ i, s.data v = .slot i ∧ bytes.length ≤ (s.vidmembuffer i).size.toNat ∧
    memBytes s.vid (s.vidmembuffer i).mGpuAddress bytes.length = bytes

/-- Nothing is leaked: as many slots are in use as there are images whose data are in one, no file is open, and each raw
image has its bytes. -/
structure Clean (s : System) : Prop where
  slots : (Finset.univ.filter fun i => s.video.vidmembufferAlloced i = true).card =
    {v | ∃ i, s.video.data v = .slot i}.ncard
  handles : ∀ j, (s.video.locHandle j).inUse = false
  contents : ∀ v bytes, s.own v = some bytes → InSlot s.video v bytes

/-- A failed set-up leaves the data pointer as it was. -/
def FailedKeeps (s : System) (c : Call) (t : System) : Prop :=
  ∀ alloc img r, c = .init alloc img r → r.ok = false → t.video.data = s.video.data

/-- The condition on a set-up: the file, if there is one, is not mapped to address 0; the pointer of an image that goes
to a slot is not in one already; what is written fits the slot; and raw data of the CPU are those at address 0. -/
structure InitMeets (slotAddress : Fin VIDMEMBUFFERS → UInt32) (s : Video) (img : Img) : Prop where
  mapped : s.data img.data = .null → romAddress s img.name ≠ some 0
  fresh : img.persistent = false → ∀ i, s.data img.data ≠ .slot i
  rawFits : ∀ size, img.size = some size → img.raw → img.dataLength.toNat ≤ size.toNat
  rleFits : ∀ bpp a dst, bytesPerPixel img.colourformat = some bpp → sourceOf slotAddress s img = some a →
    img.decompressed → (decoded s.mem dst a img.dataLength.toNat bpp).length ≤
      (img.height * img.width * UInt32.ofNat bpp).toNat
  ownData : img.raw → ∀ a, s.data img.data = .cpu a →
    memBytes s.mem 0 img.dataLength.toNat = memBytes s.mem a img.dataLength.toNat

/-- The condition on a call. -/
def Meets (slotAddress : Fin VIDMEMBUFFERS → UInt32) (s : System) : Call → Prop
  | .init _ img _ => InitMeets slotAddress s.video img
  | .deinit _ _ => True

/-! ## Stored bytes -/

theorem offset_succ (a : UInt32) (k : ℕ) : a + UInt32.ofNat (k + 1) = a + 1 + UInt32.ofNat k := by
  rw [UInt32.ofNat_add, UInt32.add_assoc, UInt32.add_comm 1]
  rfl

theorem mem_region_succ {a x : UInt32} {n : ℕ} : x ∈ region a (n + 1) ↔ x = a ∨ x ∈ region (a + 1) n := by
  constructor
  · rintro ⟨k, hk, rfl⟩
    cases k with
    | zero => exact .inl (by simp)
    | succ k => exact .inr ⟨k, Nat.lt_of_succ_lt_succ hk, offset_succ a k⟩
  · rintro (rfl | ⟨k, hk, rfl⟩)
    · exact ⟨0, Nat.succ_pos n, by simp⟩
    · exact ⟨k + 1, Nat.succ_lt_succ hk, (offset_succ a k).symm⟩

theorem region_mono {a x : UInt32} {m n : ℕ} (h : m ≤ n) (hx : x ∈ region a m) : x ∈ region a n := by
  obtain ⟨k, hk, rfl⟩ := hx
  exact ⟨k, hk.trans_le h, rfl⟩

/-- Less than the whole memory does not come round. -/
theorem not_mem_region_succ (a : UInt32) {n : ℕ} (h : n < 2 ^ 32) : a ∉ region (a + 1) n := by
  rintro ⟨k, hk, heq⟩
  rw [← offset_succ] at heq
  have hnat := congrArg UInt32.toNat heq
  have ha := a.toNat_lt
  rw [UInt32.toNat_add, UInt32.toNat_ofNat'] at hnat
  omega

theorem memBytes_succ (mem : UInt32 → UInt8) (a : UInt32) (n : ℕ) :
    memBytes mem a (n + 1) = mem a :: memBytes mem (a + 1) n := by
  simp only [memBytes, List.range_succ_eq_map, List.map_cons, List.map_map, List.cons.injEq]
  refine ⟨by simp, ?_⟩
  congr 1
  funext k
  simp only [Function.comp, offset_succ]

theorem memBytes_congr {mem mem' : UInt32 → UInt8} {a : UInt32} {n : ℕ} (h : ∀ x ∈ region a n, mem' x = mem x) :
    memBytes mem' a n = memBytes mem a n := by
  refine List.map_congr_left fun k hk => h _ ⟨k, List.mem_range.mp hk, rfl⟩

@[simp] theorem length_memBytes (mem : UInt32 → UInt8) (a : UInt32) (n : ℕ) : (memBytes mem a n).length = n := by
  simp [memBytes]

theorem store_placed_out {l : List UInt8} {vid : UInt32 → UInt8} {x a : UInt32} (h : x ∉ region a l.length) :
    store vid (placed a l) x = vid x := by
  induction l generalizing vid a with
  | nil => rfl
  | cons b l ih =>
    rw [List.length_cons, mem_region_succ, not_or] at h
    change store (Function.update vid a b) (placed (a + 1) l) x = vid x
    rw [ih h.2, Function.update_of_ne h.1]

theorem store_placed_in (vid : UInt32 → UInt8) (l : List UInt8) (a : UInt32) (h : l.length ≤ 2 ^ 32) :
    memBytes (store vid (placed a l)) a l.length = l := by
  induction l generalizing vid a with
  | nil => rfl
  | cons b l ih =>
    have hlen : l.length < 2 ^ 32 := h
    change memBytes (store (Function.update vid a b) (placed (a + 1) l)) a (l.length + 1) = b :: l
    rw [memBytes_succ, store_placed_out (not_mem_region_succ a hlen), Function.update_self,
      ih _ _ hlen.le]

theorem copied_eq (mem : UInt32 → UInt8) (dst src : UInt32) (n : ℕ) :
    copied mem dst src n = placed dst (memBytes mem src n) := by
  induction n generalizing dst src with
  | zero => rfl
  | succ n ih =>
    rw [memBytes_succ, placed, ← ih]
    simp only [copied, List.range_succ_eq_map, List.map_cons, List.map_map, List.cons.injEq]
    refine ⟨by simp, ?_⟩
    congr 1
    funext k
    simp only [Function.comp, offset_succ]

theorem rlePackets_placed (bpp fuel : ℕ) (dst : UInt32) (p size : ℕ) (s : Decoder) :
    ∃ l, ((rlePackets bpp fuel dst p size).run s).2.writes = s.writes ++ placed dst l := by
  induction fuel generalizing dst p size s with
  | zero => exact ⟨[], by simp [rlePackets, placed]⟩
  | succ fuel ih =>
    obtain _ | _ | size := size
    · exact ⟨[], by simp [run_rlePackets_zero, placed]⟩
    · exact ⟨[], by simp [run_rlePackets_one, placed]⟩
    · obtain ⟨l, hl⟩ := ih (dst + UInt32.ofNat (packetAt bpp s.src p).decode.length)
        (p + (packetAt bpp s.src p).encode.length) (size + 2 - (packetAt bpp s.src p).taken) { s with
          reads := s.reads ++ (packetAt bpp s.src p).readsAt p
          writes := s.writes ++ placed dst (packetAt bpp s.src p).decode }
      refine ⟨(packetAt bpp s.src p).decode ++ l, ?_⟩
      rw [run_rlePackets_packet fuel dst (holds_packetAt bpp s.src p) (Nat.le_add_left 2 size), hl, placed_append,
        List.append_assoc]

theorem decoded_placed (mem : UInt32 → UInt8) (dst src : UInt32) (size bpp : ℕ) :
    ∃ l, decoded mem dst src size bpp = placed dst l :=
  rlePackets_placed bpp size dst 0 size _

/-! ## ROMFS -/

def HandlesFree (s : Video) : Prop := ∀ j, (s.locHandle j).inUse = false

/-- The handle that is given out when all are free. -/
def firstHandle : Fin LOC_ROMFS_MAXOPEN := ⟨0, by decide⟩

theorem fopen_cases (hfree : HandlesFree s) (name : List UInt8) :
    (romAddress s name = none ∧ (eeRomFsFOpen name).run s = (some none, s)) ∨
      ∃ a size, romAddress s name = some a ∧ (eeRomFsFOpen name).run s =
        (some (some firstHandle), { s with locHandle := Function.update s.locHandle firstHandle ⟨0, size, a, true⟩ }) := by
  have hfind : ((List.finRange LOC_ROMFS_MAXOPEN).find? fun i => !(s.locHandle i).inUse) =
      some firstHandle := by
    change List.find? _ [firstHandle, ⟨1, by decide⟩] = _
    rw [List.find?_cons_of_pos (by rw [hfree firstHandle]; rfl)]
  unfold eeRomFsFOpen romAddress
  rw [run_bind_get, hfind]
  cases hroot : s.locRoot with
  | none => exact .inl ⟨rfl, rfl⟩
  | some root =>
    cases hentry : root.find? fun e => e.name = name with
    | none =>
      refine .inl ⟨by simp only [hentry], ?_⟩
      simp only [hentry]
      rfl
    | some e =>
      cases hfirst : root.head? with
      | none =>
        refine .inl ⟨by simp only [hentry, hfirst], ?_⟩
        simp only [hentry, hfirst]
        rfl
      | some first =>
        refine .inr ⟨e.address - first.address + s.clusterImageData, e.size, by simp only [hentry, hfirst], ?_⟩
        simp only [hentry, hfirst]
        rw [← hroot]
        rfl

/-- The file is not there and the release is run, or it is used and no handle stays open. -/
theorem useRomFs_cases (hfree : HandlesFree s) {name : List UInt8} (hmapped : romAddress s name ≠ some 0)
    {release : Prog Video Unit} {use : UInt32 → Prog Video Unit} {w : UInt32 → List (UInt32 × UInt8)}
    (huse : ∀ a h u, (use a).run { s with locHandle := h } = (some (), u) →
      u = { s with locHandle := h, vid := store s.vid (w a) })
    {r : Option UInt32} (hrun : (useRomFs name release use).run s = (some r, t)) :
    (r = none ∧ romAddress s name = none ∧ release.run s = (some (), t)) ∨
      ∃ a h, r = some a ∧ romAddress s name = some a ∧ (∀ j, (h j).inUse = false) ∧
        t = { s with locHandle := h, vid := store s.vid (w a) } := by
  unfold useRomFs at hrun
  rcases fopen_cases hfree name with ⟨hnone, hopen⟩ | ⟨a, size, hsome, hopen⟩
  · rw [run_bind_of_some hopen] at hrun
    obtain ⟨_, u, hu, hr⟩ := run_bind_eq_some hrun
    obtain ⟨rfl, rfl⟩ := run_unique hr (run_pure _ _)
    exact .inl ⟨rfl, hnone, hu⟩
  · have hne : a ≠ 0 := by
      rintro rfl
      exact hmapped hsome
    have hmap : (eeRomFsMMap firstHandle 0).run
        { s with locHandle := Function.update s.locHandle firstHandle ⟨0, size, a, true⟩ } =
        (some a, { s with locHandle := Function.update s.locHandle firstHandle ⟨0, size, a, true⟩ }) := by
      unfold eeRomFsMMap
      rw [run_bind_get]
      simp only [Function.update_self, UInt32.add_zero]
      rfl
    rw [run_bind_of_some hopen] at hrun
    simp only at hrun
    rw [run_bind_of_some hmap, if_neg hne] at hrun
    obtain ⟨_, u, hu, hr⟩ := run_bind_eq_some hrun
    obtain rfl := huse a _ u hu
    obtain ⟨rfl, rfl⟩ := run_unique hr rfl
    refine .inr ⟨a, _, rfl, hsome, fun j => ?_, rfl⟩
    by_cases hj : j = firstHandle
    · subst hj
      simp
    · simp only [Function.update_of_ne hj, hfree j]

/-! ## What a set-up does -/

/-- Only slots that are not in use may have changed. -/
structure Unchanged (s t : Video) : Prop where
  data : t.data = s.data
  alloced : t.vidmembufferAlloced = s.vidmembufferAlloced
  memory : ∀ i, s.vidmembufferAlloced i = true → t.vidmembuffer i = s.vidmembuffer i
  vid : t.vid = s.vid
  handles : HandlesFree t

/-- A free slot with memory `a` was taken for the variable `v`, and `l` stored there. -/
structure Loaded (s t : Video) (v : ℕ) (i : Fin VIDMEMBUFFERS) (a size : UInt32) (l : List UInt8) : Prop where
  data : t.data = Function.update s.data v (.slot i)
  free : s.vidmembufferAlloced i = false
  alloced : t.vidmembufferAlloced = Function.update s.vidmembufferAlloced i true
  memory : t.vidmembuffer = Function.update s.vidmembuffer i ⟨a, size⟩
  vid : t.vid = store s.vid (placed a l)
  handles : HandlesFree t

/-- The three ends of `Init2DImg`. -/
inductive Outcome (slotAddress : Fin VIDMEMBUFFERS → UInt32) (s : Video) (alloc : Option UInt32) (img : Img) :
    InitResult → Video → Prop
  | kept {ok : Bool} {t : Video} (h : Unchanged s t) (hok : ok = true → img.persistent = true) :
      Outcome slotAddress s alloc img ⟨ok, s.data img.data⟩ t
  | mapped {a : UInt32} {h : Fin LOC_ROMFS_MAXOPEN → RomFsFile} (hfree : ∀ j, (h j).inUse = false)
      (hp : img.persistent = true) (hnull : s.data img.data = .null) : Outcome slotAddress s alloc img ⟨true, .null⟩
        { s with locHandle := h, data := Function.update s.data img.data (.cpu a) }
  | loaded {t : Video} {i : Fin VIDMEMBUFFERS} {a size : UInt32} {l : List UInt8}
      (h : Loaded s t img.data i a size l) (hp : img.persistent = false) (halloc : alloc = some a)
      (hsize : img.size = some size) (hfits : l.length ≤ size.toNat)
      (hraw : img.raw = true → ownBytes slotAddress s img = some l) :
      Outcome slotAddress s alloc img ⟨true, s.data img.data⟩ t

theorem clusterError_hangs (s : Video) : (clusterError ERR_TEXTURE_SETUP_FAILED).run s = (none, s) := rfl

/-- Slot `i` taken, with `size` bytes of memory at `a`. -/
def Video.taken (s : Video) (i : Fin VIDMEMBUFFERS) (a size : UInt32) : Video :=
  { s with
    vidmembufferAlloced := Function.update s.vidmembufferAlloced i true
    vidmembuffer := Function.update s.vidmembuffer i ⟨a, size⟩ }

/-- An allocation gives a slot that was free, with the memory of the library, or none. -/
theorem demoAllocvidmem_cases (alloc : Option UInt32) (size : UInt32) (s : Video) :
    (∃ t, (demoAllocvidmem alloc size).run s = (some none, t)) ∨
      ∃ i a, alloc = some a ∧ s.vidmembufferAlloced i = false ∧
        (demoAllocvidmem alloc size).run s = (some (some i), s.taken i a size) := by
  unfold demoAllocvidmem
  rw [run_bind_get]
  cases hfind : (List.finRange VIDMEMBUFFERS).find? fun i => !s.vidmembufferAlloced i with
  | none => exact .inl ⟨s, rfl⟩
  | some i =>
    have hfree : s.vidmembufferAlloced i = false := by simpa using List.find?_some hfind
    cases alloc with
    | none => exact .inl ⟨_, rfl⟩
    | some a => exact .inr ⟨i, a, rfl, hfree, rfl⟩

/-- What is left of a set-up once the bytes are stored: the slot is handed to the image. -/
theorem finishInit_loaded {a size : UInt32} {l : List UInt8} {h : Fin LOC_ROMFS_MAXOPEN → RomFsFile} {r : InitResult}
    (hfree : s.vidmembufferAlloced i = false) (hh : ∀ j, (h j).inUse = false)
    (hrun : (finishInit img i).run { s.taken i a size with locHandle := h, vid := store s.vid (placed a l) } =
      (some r, t)) : r = ⟨true, s.data img.data⟩ ∧ Loaded s t img.data i a size l := by
  obtain ⟨rfl, rfl⟩ := run_unique hrun rfl
  exact ⟨rfl, rfl, hfree, rfl, rfl, rfl, hh⟩

/-- A slot that was taken and given back. -/
theorem release_unchanged {a size : UInt32} (hfree : s.vidmembufferAlloced i = false) (hh : HandlesFree s)
    (hrun : (demoFreevidmem (.slot i)).run (s.taken i a size) = (some (), t)) : Unchanged s t := by
  obtain ⟨-, rfl⟩ := run_unique hrun rfl
  refine ⟨rfl, ?_, fun j hj => ?_, rfl, hh⟩
  · change Function.update (Function.update s.vidmembufferAlloced i true) i false = _
    rw [Function.update_idem, ← hfree, Function.update_eq_self]
  · have hne : j ≠ i := by
      rintro rfl
      rw [hfree] at hj
      cases hj
    exact Function.update_of_ne hne _ _

theorem run_getData (v : ℕ) (s : Video) : (getData v).run s = (some (s.data v), s) := rfl

/-- A use of an image's data, once slot `i` is taken: the bytes `l` of a source are stored there, they fit, and for a
raw image they are its own. -/
structure Fills (slotAddress : Fin VIDMEMBUFFERS → UInt32) (s : Video) (img : Img) (i : Fin VIDMEMBUFFERS)
    (a size : UInt32) (use : UInt32 → Prog Video Unit) (l : UInt32 → List UInt8) : Prop where
  stores : ∀ src h u, (use src).run { s.taken i a size with locHandle := h } = (some (), u) →
    u = { s.taken i a size with locHandle := h, vid := store s.vid (placed a (l src)) }
  fits : ∀ src, sourceOf slotAddress s img = some src → (l src).length ≤ size.toNat
  raw : ∀ src, sourceOf slotAddress s img = some src → img.raw = true → ownBytes slotAddress s img = some (l src)

section Slot

variable {a size : UInt32} {use : UInt32 → Prog Video Unit} {l : UInt32 → List UInt8} {r : InitResult}

theorem Fills.ofRom (hfill : Fills slotAddress s img i a size use l) (hfree : s.vidmembufferAlloced i = false)
    (hh : HandlesFree s) (hmapped : romAddress s img.name ≠ some 0) (hp : img.persistent = false)
    (hsize : img.size = some size) (hnull : s.data img.data = .null)
    (hrun : (do
      match ← useRomFs img.name (demoFreevidmem (.slot i)) use with
      | none => return ⟨false, .null⟩
      | some _ => finishInit img i : Prog Video InitResult).run (s.taken i a size) = (some r, t)) :
    Outcome slotAddress s (some a) img r t := by
  obtain ⟨r', u, hrom, hrest⟩ := run_bind_eq_some hrun
  rcases useRomFs_cases (s := s.taken i a size) hh hmapped hfill.stores hrom with
    ⟨rfl, -, hrelease⟩ | ⟨src, h, rfl, hsrc, hfreeh, rfl⟩
  · obtain ⟨rfl, rfl⟩ := run_unique hrest rfl
    rw [← hnull]
    exact .kept (release_unchanged hfree hh hrelease) (fun h => by cases h)
  · have hsource : sourceOf slotAddress s img = some src := by
      rw [sourceOf, if_pos hnull]
      exact hsrc
    obtain ⟨rfl, hloaded⟩ := finishInit_loaded hfree hfreeh hrest
    exact .loaded hloaded hp rfl hsize (hfill.fits src hsource) (hfill.raw src hsource)

theorem Fills.ofCpu (hfill : Fills slotAddress s img i a size use l) (src : UInt32)
    (hfits : (l src).length ≤ size.toNat) (hraw : img.raw = true → ownBytes slotAddress s img = some (l src))
    (hfree : s.vidmembufferAlloced i = false) (hh : HandlesFree s) (hp : img.persistent = false)
    (hsize : img.size = some size)
    (hrun : (use src >>= fun _ => finishInit img i : Prog Video InitResult).run (s.taken i a size) = (some r, t)) :
    Outcome slotAddress s (some a) img r t := by
  obtain ⟨_, u, huse, hrest⟩ := run_bind_eq_some hrun
  obtain rfl := hfill.stores src s.locHandle u huse
  obtain ⟨rfl, hloaded⟩ := finishInit_loaded hfree hh hrest
  exact .loaded hloaded hp rfl hsize hfits hraw

end Slot

theorem copy_fills (hmeets : InitMeets slotAddress s img) (hraw : img.raw = true) {a size : UInt32}
    (hsize : img.size = some size) : Fills slotAddress s img i a size
      (fun src => demoCopytovidmem i src img.dataLength) fun src => memBytes s.mem src img.dataLength.toNat := by
  refine ⟨fun src h u hu => ?_, fun src _ => ?_, fun src hsrc _ => ?_⟩
  · obtain ⟨-, rfl⟩ := run_unique hu rfl
    rw [← copied_eq]
    simp only [Video.taken, Function.update_self]
  · rw [length_memBytes]
    exact hmeets.rawFits size hsize hraw
  · rw [ownBytes, hsrc]
    rfl

theorem decompress_fills (hmeets : InitMeets slotAddress s img) (hdec : img.decompressed = true) {a : UInt32} {bpp : ℕ}
    (hbpp : bytesPerPixel img.colourformat = some bpp) :
    ∃ l, Fills slotAddress s img i a (img.height * img.width * UInt32.ofNat bpp)
      (fun src => do decompressRLE (← demoGetvidmemptr i) src img.dataLength bpp) l := by
  choose l hl using fun src => decoded_placed s.mem a src img.dataLength.toNat bpp
  refine ⟨l, fun src h u hu => ?_, fun src hsrc => ?_, fun src _ hraw => ?_⟩
  · unfold demoGetvidmemptr at hu
    rw [Prog.bind_assoc, run_bind_get] at hu
    simp only [Video.taken, Function.update_self] at hu
    by_cases ha : a = 0
    · rw [if_pos ha] at hu
      cases hu
    · rw [if_neg ha] at hu
      obtain ⟨-, rfl⟩ := run_unique hu rfl
      rw [← hl]
      rfl
  · have hfits := hmeets.rleFits bpp src a hbpp hsrc hdec
    rwa [hl, length_placed] at hfits
  · simp [Img.raw, hdec] at hraw

theorem init_cases {alloc : Option UInt32} {r : InitResult} (hh : HandlesFree s)
    (hmeets : InitMeets slotAddress s img)
    (hrun : (init2DImg slotAddress alloc img).run s = (some r, t)) : Outcome slotAddress s alloc img r t := by
  unfold init2DImg at hrun
  rw [run_bind_of_some (run_getData _ s)] at hrun
  by_cases hp : img.persistent = true
  · rw [if_pos hp] at hrun
    by_cases hnull : s.data img.data = .null
    · rw [if_pos hnull] at hrun
      obtain ⟨r', u, hrom, hrest⟩ := run_bind_eq_some hrun
      rcases useRomFs_cases hh (hmeets.mapped hnull) (w := fun _ => [])
        (fun _ _ _ h => (run_unique h rfl).2) hrom with ⟨rfl, -, hrelease⟩ | ⟨a, h, rfl, -, hfree, rfl⟩
      · obtain ⟨-, rfl⟩ := run_unique hrelease (run_pure _ _)
        obtain ⟨rfl, rfl⟩ := run_unique hrest rfl
        rw [← hnull]
        exact .kept ⟨rfl, rfl, fun _ _ => rfl, rfl, hh⟩ (fun _ => hp)
      · obtain ⟨rfl, rfl⟩ := run_unique hrest rfl
        rw [hnull]
        exact .mapped hfree hp hnull
    · rw [if_neg hnull] at hrun
      obtain ⟨rfl, rfl⟩ := run_unique hrun rfl
      exact .kept ⟨rfl, rfl, fun _ _ => rfl, rfl, hh⟩ (fun _ => hp)
  · have hp' : img.persistent = false := Bool.eq_false_iff.mpr hp
    rw [if_neg hp] at hrun
    cases hbpp : bytesPerPixel img.colourformat with
    | none =>
      rw [hbpp] at hrun
      rw [run_bind_of_none (clusterError_hangs s)] at hrun
      cases hrun
    | some bpp =>
      have hsize : img.size = some (img.height * img.width * UInt32.ofNat bpp) := by rw [Img.size, hbpp]; rfl
      rw [hbpp] at hrun
      rcases demoAllocvidmem_cases alloc (img.height * img.width * UInt32.ofNat bpp) s with
        ⟨u, hnone⟩ | ⟨i, a, rfl, hfree, hsome⟩
      · simp only at hrun
        rw [run_bind_of_some hnone, run_bind_of_none (clusterError_hangs u)] at hrun
        cases hrun
      · simp only at hrun
        rw [run_bind_of_some hsome] at hrun
        by_cases hdec : img.decompressed = true
        · obtain ⟨l, hfill⟩ := decompress_fills (i := i) (a := a) hmeets hdec hbpp
          simp only [if_pos hdec] at hrun
          by_cases hnull : s.data img.data = .null
          · rw [if_pos hnull] at hrun
            exact hfill.ofRom hfree hh (hmeets.mapped hnull) hp' hsize hnull hrun
          · have hsrc : sourceOf slotAddress s img = some ((s.data img.data).address slotAddress) := by
              rw [sourceOf, if_neg hnull]
            rw [if_neg hnull] at hrun
            exact hfill.ofCpu _ (hfill.fits _ hsrc) (hfill.raw _ hsrc) hfree hh hp' hsize (by rw [Prog.bind_assoc]; exact hrun)
        · have hraw : img.raw = true := by simp [Img.raw, hp', hdec]
          have hfill := copy_fills (i := i) (a := a) hmeets hraw hsize
          simp only [if_neg hdec] at hrun
          by_cases hnull : s.data img.data = .null
          · rw [if_pos hnull] at hrun
            exact hfill.ofRom hfree hh (hmeets.mapped hnull) hp' hsize hnull hrun
          · rw [if_neg hnull] at hrun
            -- the bytes at address 0 are copied, which the condition says are the image's own
            refine hfill.ofCpu 0 (by rw [length_memBytes]; exact hmeets.rawFits _ hsize hraw) (fun _ => ?_)
              hfree hh hp' hsize hrun
            cases hdata : s.data img.data with
            | null => exact absurd hdata hnull
            | slot j => exact absurd hdata (hmeets.fresh hp' j)
            | cpu c =>
              rw [hmeets.ownData hraw c hdata, ownBytes, sourceOf, if_neg hnull, hdata]
              rfl

theorem deinit_cases {original : Ptr} (hrun : (deinit2DImg img original).run s = (some (), t)) :
    t = { s with
      data := Function.update s.data img.data original
      vidmembufferAlloced := if img.persistent then s.vidmembufferAlloced else match s.data img.data with
        | .slot i => Function.update s.vidmembufferAlloced i false
        | _ => s.vidmembufferAlloced } := by
  unfold deinit2DImg at hrun
  cases hp : img.persistent with
  | true =>
    rw [hp] at hrun
    exact (run_unique hrun rfl).2
  | false =>
    simp only [hp, Bool.not_false, if_true, run_bind_of_some (run_getData _ s)] at hrun
    cases hdata : s.data img.data <;>
    · rw [hdata] at hrun
      exact (run_unique hrun rfl).2

/-! ## The invariant -/

def Ptr.isSlot : Ptr → Bool
  | .slot _ => true
  | _ => false

/-- The values that the calls of a variable returned, from its current one on: an image that goes to a slot never
replaces another slot, and one that does not leaves a slot alone. -/
def Chain : Ptr → List (Img × Ptr) → Prop
  | cur, [] => cur.isSlot = false
  | cur, (img, p) :: rest =>
    Chain p rest ∧ if img.persistent then (cur.isSlot = true ∨ p.isSlot = true → cur = p) else p.isSlot = false

structure Inv (s : System) : Prop where
  handles : HandlesFree s.video
  chain : ∀ v, Chain (s.video.data v) (s.pending v)
  owned : ∀ i, s.video.vidmembufferAlloced i = true ↔ ∃ v, s.video.data v = .slot i
  unique : ∀ v w i, s.video.data v = .slot i → s.video.data w = .slot i → v = w
  apart : ∀ i j, i ≠ j → s.video.vidmembufferAlloced i = true → s.video.vidmembufferAlloced j = true →
    Disjoint (region (s.video.vidmembuffer i).mGpuAddress (s.video.vidmembuffer i).size.toNat)
      (region (s.video.vidmembuffer j).mGpuAddress (s.video.vidmembuffer j).size.toNat)
  contents : ∀ v bytes, s.own v = some bytes → InSlot s.video v bytes

theorem Inv.clean {s : System} (h : Inv s) : Clean s := by
  refine ⟨?_, h.handles, h.contents⟩
  rw [← Set.ncard_coe_finset]
  choose! f hf using fun i => (h.owned i).mp
  refine Set.ncard_congr (fun i _ => f i) (fun i hi => ?_) (fun i j hi hj hij => ?_) fun v hv => ?_
  · exact ⟨i, hf i (by simpa using hi)⟩
  · have hi' := hf i (by simpa using hi)
    have hj' := hf j (by simpa using hj)
    rw [hij, hj'] at hi'
    exact (Ptr.slot.inj hi').symm
  · obtain ⟨i, hi⟩ := hv
    have halloc : s.video.vidmembufferAlloced i = true := (h.owned i).mpr ⟨v, hi⟩
    exact ⟨i, by simpa using halloc, h.unique _ _ i (hf i halloc) hi⟩

theorem isSlot_of {p : Ptr} (h : ∀ i, p ≠ .slot i) : p.isSlot = false := by
  cases p with
  | slot i => exact absurd rfl (h i)
  | _ => rfl

theorem ne_slot {p : Ptr} (h : p.isSlot = false) (i : Fin VIDMEMBUFFERS) : p ≠ .slot i := by
  rintro rfl
  cases h

/-- What is in a slot stays there while the slot and its memory do. -/
theorem InSlot.frame {v : ℕ} {bytes : List UInt8} (h : InSlot s v bytes) (hdata : t.data v = s.data v)
    (hmemory : ∀ i, s.data v = .slot i → t.vidmembuffer i = s.vidmembuffer i ∧
      ∀ x ∈ region (s.vidmembuffer i).mGpuAddress (s.vidmembuffer i).size.toNat, t.vid x = s.vid x) :
    InSlot t v bytes := by
  obtain ⟨i, hi, hlen, hbytes⟩ := h
  obtain ⟨hvm, hvid⟩ := hmemory i hi
  refine ⟨i, hdata.trans hi, by rw [hvm]; exact hlen, ?_⟩
  rw [hvm, memBytes_congr fun x hx => hvid x (region_mono hlen hx), hbytes]

theorem raw_not_persistent (h : img.raw = true) : img.persistent = false := by
  unfold Img.raw at h
  cases hp : img.persistent
  · rfl
  · simp [hp] at h

theorem Inv.kept {s : System} {t : Video} {ok : Bool} (h : Inv s) (hkept : Unchanged s.video t)
    (hmeets : InitMeets slotAddress s.video img) (hok : ok = true → img.persistent = true) :
    Inv {
      video := t
      pending := Function.update s.pending img.data ((img, s.video.data img.data) :: s.pending img.data)
      own := if ok && img.raw then Function.update s.own img.data (ownBytes slotAddress s.video img) else s.own } := by
  have hown : (ok && img.raw) = false := by
    cases hraw : img.raw with
    | false => exact Bool.and_false ok
    | true =>
      cases ok with
      | false => rfl
      | true =>
        have hp := hok rfl
        rw [raw_not_persistent hraw] at hp
        cases hp
  refine ⟨hkept.handles, fun v => ?_, fun i => ?_, fun v w i hv hw => ?_, fun i j hij hi hj => ?_, fun v bytes hv => ?_⟩
  · simp only [hkept.data]
    by_cases hv : v = img.data
    · subst hv
      rw [Function.update_self]
      refine ⟨h.chain _, ?_⟩
      by_cases hp : img.persistent = true
      · rw [if_pos hp]
        exact fun _ => rfl
      · rw [if_neg hp]
        exact isSlot_of (hmeets.fresh (Bool.eq_false_iff.mpr hp))
    · rw [Function.update_of_ne hv]
      exact h.chain v
  · simp only [hkept.data, hkept.alloced]
    exact h.owned i
  · simp only [hkept.data] at hv hw
    exact h.unique v w i hv hw
  · simp only [hkept.alloced] at hi hj
    simp only [hkept.memory i hi, hkept.memory j hj]
    exact h.apart i j hij hi hj
  · simp only [hown, Bool.false_eq_true, if_false] at hv
    refine (h.contents v bytes hv).frame (congrFun hkept.data v) fun i hi => ?_
    exact ⟨hkept.memory i ((h.owned i).mpr ⟨v, hi⟩), fun x _ => congrFun hkept.vid x⟩

/-- A variable that held no slot is given a value that is none. -/
theorem Inv.pointer {s : System} {v : ℕ} {p : Ptr} (hold : (s.video.data v).isSlot = false) (hnew : p.isSlot = false)
    (w : ℕ) (i : Fin VIDMEMBUFFERS) : Function.update s.video.data v p w = .slot i ↔ s.video.data w = .slot i := by
  by_cases hw : w = v
  · subst hw
    rw [Function.update_self]
    exact ⟨fun h => absurd h (ne_slot hnew i), fun h => absurd h (ne_slot hold i)⟩
  · rw [Function.update_of_ne hw]

theorem Inv.mapped {s : System} {a : UInt32} {hs : Fin LOC_ROMFS_MAXOPEN → RomFsFile} (h : Inv s)
    (hfree : ∀ j, (hs j).inUse = false) (hp : img.persistent = true) (hnull : s.video.data img.data = .null) :
    Inv {
      video := { s.video with locHandle := hs, data := Function.update s.video.data img.data (.cpu a) }
      pending := Function.update s.pending img.data ((img, .null) :: s.pending img.data)
      own := if true && img.raw then Function.update s.own img.data (ownBytes slotAddress s.video img) else s.own } := by
  have hraw : img.raw = false := by simp [Img.raw, hp]
  have hpointer := Inv.pointer (v := img.data) (p := .cpu a) (by rw [hnull]; rfl) rfl
  refine ⟨hfree, fun v => ?_, fun i => ?_, fun v w i hv hw => ?_, h.apart, fun v bytes hv => ?_⟩
  · by_cases hv : v = img.data
    · subst hv
      simp only [Function.update_self]
      refine ⟨hnull ▸ h.chain img.data, ?_⟩
      rw [if_pos hp]
      rintro (h | h) <;> cases h
    · simp only [Function.update_of_ne hv]
      exact h.chain v
  · simp only [hpointer]
    exact h.owned i
  · simp only [hpointer] at hv hw
    exact h.unique v w i hv hw
  · simp only [hraw, Bool.and_false, Bool.false_eq_true, if_false] at hv
    obtain ⟨i, hi, hbytes⟩ := h.contents v bytes hv
    exact ⟨i, (hpointer v i).mpr hi, hbytes⟩

/-! What an image loaded into a slot changes of the invariant, part by part. -/

section

variable {s : System} {w : ℕ} {bytes : List UInt8}

theorem Loaded.ne {j : Fin VIDMEMBUFFERS} (hload : Loaded s.video t w i a size bytes)
    (hj : s.video.vidmembufferAlloced j = true) : j ≠ i := by
  rintro rfl
  rw [hload.free] at hj
  cases hj

theorem Inv.not_owned (h : Inv s) (hload : Loaded s.video t w i a size bytes) (v : ℕ) : s.video.data v ≠ .slot i :=
  fun hv => hload.ne ((h.owned i).mpr ⟨v, hv⟩) rfl

theorem Inv.loaded_owned (h : Inv s) (hload : Loaded s.video t w i a size bytes)
    (hfresh : ∀ j, s.video.data w ≠ .slot j) (j : Fin VIDMEMBUFFERS) :
    t.vidmembufferAlloced j = true ↔ ∃ v, t.data v = .slot j := by
  rw [hload.data, hload.alloced]
  by_cases hj : j = i
  · subst hj
    rw [Function.update_self]
    exact ⟨fun _ => ⟨w, Function.update_self ..⟩, fun _ => rfl⟩
  · rw [Function.update_of_ne hj, h.owned j]
    constructor
    · rintro ⟨v, hv⟩
      have hne : v ≠ w := by
        rintro rfl
        exact hfresh j hv
      exact ⟨v, by rw [Function.update_of_ne hne, hv]⟩
    · rintro ⟨v, hv⟩
      by_cases hne : v = w
      · subst hne
        rw [Function.update_self] at hv
        exact absurd (Ptr.slot.inj hv).symm hj
      · exact ⟨v, by rwa [Function.update_of_ne hne] at hv⟩

theorem Inv.loaded_unique (h : Inv s) (hload : Loaded s.video t w i a size bytes) (v v' : ℕ) (j : Fin VIDMEMBUFFERS)
    (hv : t.data v = .slot j) (hv' : t.data v' = .slot j) : v = v' := by
  simp only [hload.data, Function.update_apply] at hv hv'
  split_ifs at hv hv' with h1 h2
  · exact h1.trans h2.symm
  · exact absurd (Ptr.slot.inj hv ▸ hv') (h.not_owned hload v')
  · exact absurd (Ptr.slot.inj hv' ▸ hv) (h.not_owned hload v)
  · exact h.unique v v' j hv hv'

theorem Inv.loaded_apart (h : Inv s) (hload : Loaded s.video t w i a size bytes)
    (hapart : ∀ j, s.video.vidmembufferAlloced j = true → Disjoint (region a size.toNat)
      (region (s.video.vidmembuffer j).mGpuAddress (s.video.vidmembuffer j).size.toNat))
    (j k : Fin VIDMEMBUFFERS) (hjk : j ≠ k) (hj : t.vidmembufferAlloced j = true) (hk : t.vidmembufferAlloced k = true) :
    Disjoint (region (t.vidmembuffer j).mGpuAddress (t.vidmembuffer j).size.toNat)
      (region (t.vidmembuffer k).mGpuAddress (t.vidmembuffer k).size.toNat) := by
  simp only [hload.alloced, hload.memory, Function.update_apply] at hj hk ⊢
  by_cases hji : j = i
  · have hki : k ≠ i := fun hki => hjk (hji.trans hki.symm)
    rw [if_neg hki] at hk
    rw [if_pos hji, if_neg hki]
    exact hapart k hk
  · rw [if_neg hji] at hj
    by_cases hki : k = i
    · rw [if_pos hki, if_neg hji]
      exact (hapart j hj).symm
    · rw [if_neg hki] at hk
      rw [if_neg hji, if_neg hki]
      exact h.apart j k hjk hj hk

/-- The contents of the other slots stay as they are. -/
theorem InSlot.loaded {v : ℕ} {l : List UInt8} (hin : InSlot s.video v l) (h : Inv s)
    (hload : Loaded s.video t w i a size bytes) (hfits : bytes.length ≤ size.toNat)
    (hapart : ∀ j, s.video.vidmembufferAlloced j = true → Disjoint (region a size.toNat)
      (region (s.video.vidmembuffer j).mGpuAddress (s.video.vidmembuffer j).size.toNat))
    (hv : v ≠ w) : InSlot t v l := by
  refine hin.frame (by rw [hload.data, Function.update_of_ne hv]) fun j hj => ?_
  have halloc := (h.owned j).mpr ⟨v, hj⟩
  refine ⟨by rw [hload.memory, Function.update_of_ne (hload.ne halloc)], fun x hx => ?_⟩
  rw [hload.vid, store_placed_out]
  exact fun hin => Set.disjoint_left.mp (hapart j halloc) (region_mono hfits hin) hx

theorem Loaded.inSlot (hload : Loaded s.video t w i a size bytes) (hfits : bytes.length ≤ size.toNat) :
    InSlot t w bytes := by
  refine ⟨i, by rw [hload.data, Function.update_self], ?_, ?_⟩
  · rw [hload.memory, Function.update_self]
    exact hfits
  · rw [hload.memory, hload.vid, Function.update_self]
    exact store_placed_in _ _ _ (hfits.trans size.toNat_lt.le)

end

theorem Inv.loaded {s : System} {t : Video} {a size : UInt32} {l : List UInt8} (h : Inv s)
    (hload : Loaded s.video t img.data i a size l) (hmeets : InitMeets slotAddress s.video img)
    (hp : img.persistent = false) (hsound : AllocSound s.video (some a) img) (hsize : img.size = some size)
    (hfits : l.length ≤ size.toNat) (hraw : img.raw = true → ownBytes slotAddress s.video img = some l) :
    Inv {
      video := t
      pending := Function.update s.pending img.data ((img, s.video.data img.data) :: s.pending img.data)
      own := if true && img.raw then Function.update s.own img.data (ownBytes slotAddress s.video img) else s.own } := by
  have hfresh := hmeets.fresh hp
  have hapart := hsound a size rfl hsize
  refine ⟨hload.handles, fun v => ?_, h.loaded_owned hload hfresh, h.loaded_unique hload,
    h.loaded_apart hload hapart, fun v bytes hv => ?_⟩
  · simp only [hload.data]
    by_cases hv : v = img.data
    · subst hv
      simp only [Function.update_self]
      refine ⟨h.chain _, ?_⟩
      rw [hp]
      exact isSlot_of hfresh
    · simp only [Function.update_of_ne hv]
      exact h.chain v
  · by_cases hv' : v = img.data
    · subst hv'
      cases hr : img.raw with
      | true =>
        simp only [hr, Bool.and_self, if_true, Function.update_self, hraw hr] at hv
        cases hv
        exact hload.inSlot hfits
      | false =>
        simp only [hr, Bool.and_false, Bool.false_eq_true, if_false] at hv
        obtain ⟨j, hj, -⟩ := h.contents _ _ hv
        exact absurd hj (hfresh j)
    · have hv : s.own v = some bytes := by
        revert hv
        simp only
        split_ifs
        · rw [Function.update_of_ne hv']
          exact id
        · exact id
      exact (h.contents v bytes hv).loaded h hload hfits hapart hv'

/-- An image that leaves slots alone is taken back: nothing that concerns a slot changes. -/
theorem Inv.deinitPersistent {s : System} {original : Ptr} {rest : List (Img × Ptr)} (h : Inv s)
    (hpending : s.pending img.data = (img, original) :: rest) (hp : img.persistent = true) :
    Inv {
      video := { s.video with data := Function.update s.video.data img.data original }
      pending := Function.update s.pending img.data rest
      own := s.own } := by
  have hchain := h.chain img.data
  rw [hpending] at hchain
  obtain ⟨hrest, hsame⟩ := hchain
  rw [if_pos hp] at hsame
  have hpointer : ∀ w i, Function.update s.video.data img.data original w = .slot i ↔ s.video.data w = .slot i := by
    intro w i
    by_cases hw : w = img.data
    · subst hw
      rw [Function.update_self]
      constructor
      · intro heq
        rw [hsame (.inr (by rw [heq]; rfl)), heq]
      · intro heq
        rw [← hsame (.inl (by rw [heq]; rfl)), heq]
    · rw [Function.update_of_ne hw]
  refine ⟨h.handles, fun v => ?_, fun i => ?_, fun v w i hv hw => ?_, h.apart, fun v bytes hv => ?_⟩
  · by_cases hv : v = img.data
    · subst hv
      simp only [Function.update_self]
      exact hrest
    · simp only [Function.update_of_ne hv]
      exact h.chain v
  · simp only [hpointer]
    exact h.owned i
  · simp only [hpointer] at hv hw
    exact h.unique v w i hv hw
  · obtain ⟨i, hi, hbytes⟩ := h.contents v bytes hv
    exact ⟨i, (hpointer v i).mpr hi, hbytes⟩

/-- An image in a slot is taken back, and its slot is free again. -/
theorem Inv.deinitSlot {s : System} {original : Ptr} {rest : List (Img × Ptr)} (h : Inv s)
    (hpending : s.pending img.data = (img, original) :: rest) (hp : img.persistent = false) :
    Inv {
      video := { s.video with
        data := Function.update s.video.data img.data original
        vidmembufferAlloced := match s.video.data img.data with
          | .slot i => Function.update s.video.vidmembufferAlloced i false
          | _ => s.video.vidmembufferAlloced }
      pending := Function.update s.pending img.data rest
      own := Function.update s.own img.data none } := by
  have hchain := h.chain img.data
  rw [hpending] at hchain
  obtain ⟨hrest, hslot⟩ := hchain
  rw [hp, if_neg Bool.false_ne_true] at hslot
  -- a slot is in use afterwards exactly when another variable has it
  have halloced : ∀ i, (match s.video.data img.data with
      | .slot i => Function.update s.video.vidmembufferAlloced i false
      | _ => s.video.vidmembufferAlloced) i = true ↔
      s.video.vidmembufferAlloced i = true ∧ s.video.data img.data ≠ .slot i := by
    intro i
    cases hdata : s.video.data img.data with
    | null => simp
    | cpu a => simp
    | slot j =>
      by_cases hij : i = j
      · subst hij
        simp
      · simp [Function.update_of_ne hij, Ne.symm hij]
  refine ⟨h.handles, fun v => ?_, fun i => ?_, fun v w i hv hw => ?_, fun i j hij hi hj => ?_, fun v bytes hv => ?_⟩
  · by_cases hv : v = img.data
    · subst hv
      simp only [Function.update_self]
      exact hrest
    · simp only [Function.update_of_ne hv]
      exact h.chain v
  · simp only [halloced, h.owned i]
    constructor
    · rintro ⟨⟨v, hv⟩, hne⟩
      have hvv : v ≠ img.data := by
        rintro rfl
        exact hne hv
      exact ⟨v, by rw [Function.update_of_ne hvv, hv]⟩
    · rintro ⟨v, hv⟩
      have hvv : v ≠ img.data := by
        rintro rfl
        rw [Function.update_self] at hv
        exact ne_slot hslot i hv
      rw [Function.update_of_ne hvv] at hv
      exact ⟨⟨v, hv⟩, fun heq => hvv (h.unique _ _ i hv heq)⟩
  · simp only [Function.update_apply] at hv hw
    split_ifs at hv hw with h1 h2
    · exact h1.trans h2.symm
    · exact absurd hv (ne_slot hslot i)
    · exact absurd hw (ne_slot hslot i)
    · exact h.unique v w i hv hw
  · exact h.apart i j hij ((halloced i).mp hi).1 ((halloced j).mp hj).1
  · replace hv : Function.update s.own img.data none v = some bytes := hv
    by_cases hvv : v = img.data
    · subst hvv
      rw [Function.update_self] at hv
      cases hv
    · rw [Function.update_of_ne hvv] at hv
      exact (h.contents v bytes hv).frame (Function.update_of_ne hvv _ _) fun i _ => ⟨rfl, fun x _ => rfl⟩

/-! ## The runs -/

theorem Inv.step {s t : System} {c : Call} (h : Inv s) (hmeets : Meets slotAddress s c) (hstep : Step slotAddress s c t) :
    Inv t ∧ FailedKeeps s c t := by
  cases hstep with
  | @init v alloc img r hsound hrun =>
    have hcases := init_cases h.handles hmeets hrun
    cases hcases with
    | kept hkept hok =>
      refine ⟨h.kept hkept hmeets hok, ?_⟩
      rintro _ _ _ heq -
      exact hkept.data
    | mapped hfree hp hnull =>
      refine ⟨h.mapped hfree hp hnull, ?_⟩
      rintro _ _ _ heq hr
      cases heq
      cases hr
    | loaded hload hp halloc hsize hfits hraw =>
      subst halloc
      refine ⟨h.loaded hload hmeets hp hsound hsize hfits hraw, ?_⟩
      rintro _ _ _ heq hr
      cases heq
      cases hr
  | @deinit v img original rest hpending hrun =>
    refine ⟨?_, ?_⟩
    · rw [deinit_cases hrun]
      cases hp : img.persistent with
      | true => exact h.deinitPersistent hpending hp
      | false => exact h.deinitSlot hpending hp
    · rintro _ _ _ heq
      cases heq

/-- Before the first call: no slot and no handle is in use, and no data pointer is one to a slot. -/
structure Fresh (s : System) : Prop where
  handles : HandlesFree s.video
  slots : ∀ i, s.video.vidmembufferAlloced i = false
  data : ∀ v, (s.video.data v).isSlot = false
  pending : ∀ v, s.pending v = []
  own : ∀ v, s.own v = none

theorem Fresh.inv {s : System} (h : Fresh s) : Inv s := by
  refine ⟨h.handles, fun v => ?_, fun i => ?_, fun v w i hv _ => ?_, fun i j _ hi _ => ?_, fun v bytes hv => ?_⟩
  · rw [h.pending v]
    exact h.data v
  · rw [h.slots i]
    exact ⟨(fun h => nomatch h), fun ⟨v, hv⟩ => absurd hv (ne_slot (h.data v) i)⟩
  · exact absurd hv (ne_slot (h.data v) i)
  · rw [h.slots i] at hi
    cases hi
  · rw [h.own v] at hv
    cases hv

theorem Inv.run {s t : System} {l : List (System × Call × System)} (hs : Inv s) (h : Runs (Step slotAddress) s l t)
    (hmeets : ∀ x ∈ l, Meets slotAddress x.1 x.2.1) :
    Inv t ∧ ∀ x ∈ l, Clean x.1 ∧ FailedKeeps x.1 x.2.1 x.2.2 := by
  induction h with
  | nil s => exact ⟨hs, by simp⟩
  | cons hstep _ ih =>
    obtain ⟨hu, hkeeps⟩ := hs.step (hmeets _ List.mem_cons_self) hstep
    obtain ⟨ht, hrest⟩ := ih hu fun x hx => hmeets x (List.mem_cons_of_mem _ hx)
    exact ⟨ht, List.forall_mem_cons.mpr ⟨⟨hs.clean, hkeeps⟩, hrest⟩⟩

/-- Nothing is leaked in any state of a run whose calls all meet the condition, and a failed set-up changes no pointer. -/
theorem run_clean {s t : System} {l : List (System × Call × System)} (hs : Fresh s)
    (h : Runs (Step slotAddress) s l t) (hmeets : ∀ x ∈ l, Meets slotAddress x.1 x.2.1) :
    Clean t ∧ ∀ x ∈ l, Clean x.1 ∧ FailedKeeps x.1 x.2.1 x.2.2 := by
  obtain ⟨ht, hall⟩ := hs.inv.run h hmeets
  exact ⟨ht.clean, hall⟩

/-- One byte of alpha, whose pointer is variable 0. -/
def dot (name : List UInt8) : Img := ⟨name, 1, 1, IMG_ALPHA8, 0, 0, 1⟩

/-- A file at address 0x1000 and a pointer; the byte 7 is at both, and 0 elsewhere. -/
def dotSystem (p : Ptr) : System where
  video := {
    locRoot := some [⟨[97], 1, 0x20⟩]
    clusterImageData := 0x1000
    locHandle := fun _ => ⟨0, 0, 0, false⟩
    vidmembufferAlloced := fun _ => false
    vidmembuffer := fun _ => ⟨0, 0⟩
    data := fun v => if v = 0 then p else .null
    mem := fun a => if a = 0x1000 then 7 else 0
    vid := fun _ => 0 }
  pending := fun _ => []
  own := fun _ => none

theorem dotSystem_fresh {p : Ptr} (hp : p.isSlot = false) : Fresh (dotSystem p) := by
  refine ⟨fun _ => rfl, fun _ => rfl, fun v => ?_, fun _ => rfl, fun _ => rfl⟩
  change (if v = 0 then p else .null).isSlot = false
  split_ifs
  · exact hp
  · rfl

/-- The first set-up of the dot, with memory at 0x100. -/
theorem dot_step (p : Ptr) (r : InitResult)
    (hr : ((init2DImg (fun _ => 0) (some 0x100) (dot [97])).run (dotSystem p).video).1 = some r) :
    Step (fun _ => 0) (dotSystem p) (.init (some 0x100) (dot [97]) r) {
      video := ((init2DImg (fun _ => 0) (some 0x100) (dot [97])).run (dotSystem p).video).2
      pending := Function.update (fun _ => []) 0 [(dot [97], r.old)]
      own := if r.ok && (dot [97]).raw then
        Function.update (fun _ => none) 0 (ownBytes (fun _ => 0) (dotSystem p).video (dot [97])) else fun _ => none } :=
  .init (fun _ _ _ _ i hi => by cases hi) (Prod.ext hr rfl)

/-- Data of the CPU: what is copied is the byte at address 0. -/
theorem dot_not_clean : ¬∀ s t (l : List (System × Call × System)), Fresh s → Runs (Step fun _ => 0) s l t → Clean t := by
  intro hall
  have hstep := dot_step (.cpu 0x1000) ⟨true, .cpu 0x1000⟩ rfl
  obtain ⟨i, hi, -, hbytes⟩ := (hall _ _ _ (dotSystem_fresh rfl) (.cons hstep (.nil _))).contents 0 [7] rfl
  cases hi
  revert hbytes
  decide

/-- A file: the byte is in the slot. -/
theorem dot_file_clean : ∃ t, Clean t ∧ t.own 0 = some [7] := by
  have hstep := dot_step .null ⟨true, .null⟩ rfl
  have hmeets : InitMeets (fun _ => 0) (dotSystem .null).video (dot [97]) := by
    refine ⟨fun _ => by decide, fun _ i h => ?_, fun size hsize _ => ?_, fun _ _ _ _ _ h => ?_, fun _ a h => ?_⟩
    · cases h
    · cases hsize
      decide
    · cases h
    · cases h
  refine ⟨_, (run_clean (dotSystem_fresh rfl) (.cons hstep (.nil _)) ?_).1, rfl⟩
  rintro x hx
  obtain rfl := List.mem_singleton.mp hx
  exact hmeets

end RCar.Texture
