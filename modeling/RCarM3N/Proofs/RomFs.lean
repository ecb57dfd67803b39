import RCarM3N.Lib.Traces
import RCarM3N.Model.RomFs
import RCarM3N.Proofs.Texture

/-! Reads from ROMFS stay in their file and move its bytes, as long as neither the product of the two sizes nor its sum
with the position wraps into what looks like a shorter read, and the size of an item is not zero. -/

namespace RCar.RomFs

open Texture

variable {s t : Video} {i j : Fin LOC_ROMFS_MAXOPEN} {c : FileCall} {buffer size count : UInt32}

/-- The handle shows a file of the table. -/
def OfTable (s : Video) (f : RomFsFile) : Prop :=
  ∃ root first, s.locRoot = some root ∧ root.head? = some first ∧
    ∃ e ∈ root, f.size = e.size ∧ f.address = e.address - first.address + s.clusterImageData

/-- What a read is to move: the product of the two sizes, up to the end of the file. -/
def wanted (size count : UInt32) (f : RomFsFile) : ℕ := min (size.toNat * count.toNat) (f.size.toNat - f.pos.toNat)

/-- A read moves the next bytes of its file, and these only. -/
structure ReadRight (s : Video) (buffer size count : UInt32) (i : Fin LOC_ROMFS_MAXOPEN) (r : UInt32) (t : Video) : Prop where
  bytes : memBytes t.mem buffer (wanted size count (s.locHandle i)) =
    memBytes s.mem ((s.locHandle i).address + (s.locHandle i).pos) (wanted size count (s.locHandle i))
  frame : ∀ a ∉ region buffer (wanted size count (s.locHandle i)), t.mem a = s.mem a
  pos : (t.locHandle i).pos.toNat = (s.locHandle i).pos.toNat + wanted size count (s.locHandle i)
  file : (t.locHandle i).size = (s.locHandle i).size ∧ (t.locHandle i).address = (s.locHandle i).address
  items : r.toNat = wanted size count (s.locHandle i) / size.toNat

/-- A call returns, leaves every handle at or before the end of its file and the other open handles as they are, and reads
what it is to read. -/
structure CallRight (s : Video) (c : FileCall) : Prop where
  returns : ∃ t, fileCall s c = some t ∧ (∀ i, (t.locHandle i).pos ≤ (t.locHandle i).size) ∧
    (∀ i, (t.locHandle i).inUse = true → OfTable t (t.locHandle i)) ∧
    ∀ j, (s.locHandle j).inUse = true → c.fp ≠ some j → t.locHandle j = s.locHandle j
  read : ∀ buffer size count i, c = .fread buffer size count (some i) → buffer ≠ 0 →
    ∃ r t, (eeRomFsFRead buffer size count (some i)).run s = (some r, t) ∧ ReadRight s buffer size count i r t

/-- Items of some size, a sum that does not wrap, and a product that does not wrap or reaches the end of the file anyway. -/
def ReadFits (size count : UInt32) (f : RomFsFile) : Prop :=
  size ≠ 0 ∧ f.pos.toNat + (size * count).toNat < 2 ^ 32 ∧
    (size.toNat * count.toNat < 2 ^ 32 ∨ f.size.toNat ≤ f.pos.toNat + (size * count).toNat)

instance (size count : UInt32) (f : RomFsFile) : Decidable (ReadFits size count f) :=
  inferInstanceAs (Decidable (_ ∧ _ ∧ _))

def CallFits (s : Video) : FileCall → Prop
  | .fread buffer size count (some i) => buffer ≠ 0 → ReadFits size count (s.locHandle i)
  | _ => True

/-- What every state of a run has. -/
structure FilesInv (s : Video) : Prop where
  pos_le : ∀ i, (s.locHandle i).pos ≤ (s.locHandle i).size
  table : ∀ i, (s.locHandle i).inUse = true → OfTable s (s.locHandle i)

/-- What the code takes for the number of bytes. -/
def taken (size count : UInt32) (f : RomFsFile) : UInt32 :=
  if f.pos + size * count ≥ f.size then f.size - f.pos else size * count

/-- The code's number of bytes is the right one exactly if nothing that matters wraps. -/
theorem taken_eq_iff {f : RomFsFile} (h : f.pos ≤ f.size) (hsize : size ≠ 0) :
    (f.pos + taken size count f).toNat = f.pos.toNat + wanted size count f ↔ ReadFits size count f := by
  have hpos := UInt32.le_iff_toNat_le.mp h
  have hlt := f.size.toNat_lt
  have hprod : (size * count).toNat = size.toNat * count.toNat % 2 ^ 32 := UInt32.toNat_mul size count
  have hmod := Nat.mod_le (size.toNat * count.toNat) (2 ^ 32)
  have hsub : (f.size - f.pos).toNat = f.size.toNat - f.pos.toNat := UInt32.toNat_sub_of_le _ _ h
  have hcmp : f.pos + size * count ≥ f.size ↔ f.size.toNat ≤ (f.pos.toNat + (size * count).toNat) % 2 ^ 32 := by
    rw [ge_iff_le, UInt32.le_iff_toNat_le, UInt32.toNat_add]
  unfold ReadFits taken wanted
  rw [and_iff_right hsize, UInt32.toNat_add]
  generalize size.toNat * count.toNat = P at *
  generalize size * count = N at *
  split_ifs with hend
  · -- what is left of the file: only a sum that does not wrap gets here
    rw [hcmp] at hend
    omega
  · rw [hcmp] at hend
    omega

theorem taken_wanted {f : RomFsFile} (h : f.pos ≤ f.size) (hfits : ReadFits size count f) :
    (taken size count f).toNat = wanted size count f := by
  have hsum := (taken_eq_iff h hfits.1).mpr hfits
  have hpos := UInt32.le_iff_toNat_le.mp h
  have hlt := f.size.toNat_lt
  have hwanted : wanted size count f ≤ f.size.toNat - f.pos.toNat := Nat.min_le_right _ _
  have htaken := (taken size count f).toNat_lt
  rw [UInt32.toNat_add] at hsum
  omega

/-! ## Reading -/

/-- What a read leaves behind. -/
def afterRead (s : Video) (buffer size count : UInt32) (i : Fin LOC_ROMFS_MAXOPEN) : Video :=
  { s with
    mem := store s.mem (copied s.mem buffer ((s.locHandle i).address + (s.locHandle i).pos)
      (taken size count (s.locHandle i)).toNat)
    locHandle := Function.update s.locHandle i
      { s.locHandle i with pos := (s.locHandle i).pos + taken size count (s.locHandle i) } }

theorem afterRead_handle : (afterRead s buffer size count i).locHandle i =
    { s.locHandle i with pos := (s.locHandle i).pos + taken size count (s.locHandle i) } := Function.update_self _ _ _

theorem afterRead_other (hj : j ≠ i) : (afterRead s buffer size count i).locHandle j = s.locHandle j :=
  Function.update_of_ne hj _ _

theorem run_fread (hbuffer : buffer ≠ 0) :
    (eeRomFsFRead buffer size count (some i)).run s =
      (if size = 0 then none else some (taken size count (s.locHandle i) / size), afterRead s buffer size count i) := by
  simp only [eeRomFsFRead, if_neg hbuffer, Prog.run_bind_get, Prog.run_bind_modify, Prog.run_ite]
  unfold afterRead taken
  split_ifs <;> rfl

theorem ReadFits.right (buffer : UInt32) (hfits : ReadFits size count (s.locHandle i)) (h : FilesInv s) :
    ReadRight s buffer size count i (taken size count (s.locHandle i) / size) (afterRead s buffer size count i) := by
  have hn := taken_wanted (h.pos_le i) hfits
  have hlen := length_memBytes s.mem ((s.locHandle i).address + (s.locHandle i).pos) (taken size count (s.locHandle i)).toNat
  have hmem : (afterRead s buffer size count i).mem = store s.mem (placed buffer
      (memBytes s.mem ((s.locHandle i).address + (s.locHandle i).pos) (taken size count (s.locHandle i)).toNat)) := by
    rw [← copied_eq]
    rfl
  rw [hn] at hmem hlen
  refine ⟨?_, fun a ha => ?_, ?_, ?_, ?_⟩
  · have hstore := store_placed_in s.mem
      (memBytes s.mem ((s.locHandle i).address + (s.locHandle i).pos) (wanted size count (s.locHandle i))) buffer
    rw [hlen] at hstore
    rw [hmem]
    exact hstore (hn ▸ (taken size count (s.locHandle i)).toNat_lt.le)
  · rw [hmem]
    apply store_placed_out
    rwa [hlen]
  · rw [afterRead_handle]
    exact (taken_eq_iff (h.pos_le i) hfits.1).mpr hfits
  · rw [afterRead_handle]
    exact ⟨rfl, rfl⟩
  · rw [UInt32.toNat_div, hn]

theorem read_right_iff (h : FilesInv s) (hbuffer : buffer ≠ 0) :
    (∃ r t, (eeRomFsFRead buffer size count (some i)).run s = (some r, t) ∧ ReadRight s buffer size count i r t) ↔
      ReadFits size count (s.locHandle i) := by
  rw [run_fread hbuffer]
  refine ⟨?_, fun hfits => ⟨_, _, by rw [if_neg hfits.1], hfits.right buffer h⟩⟩
  rintro ⟨r, t, hrun, hright⟩
  obtain ⟨hr, rfl⟩ := Prod.mk.inj hrun
  have hsize : size ≠ 0 := by
    intro hzero
    rw [if_pos hzero] at hr
    cases hr
  apply (taken_eq_iff (h.pos_le i) hsize).mp
  rw [← hright.pos, afterRead_handle]

/-! ## The calls -/

theorem FilesInv.read (h : FilesInv s) (hfits : ReadFits size count (s.locHandle i)) :
    FilesInv (afterRead s buffer size count i) where
  pos_le := by
    intro j
    by_cases hj : j = i
    · subst hj
      have hright := (hfits.right buffer h).pos
      have hpos := UInt32.le_iff_toNat_le.mp (h.pos_le j)
      have hwanted : wanted size count (s.locHandle j) ≤ (s.locHandle j).size.toNat - (s.locHandle j).pos.toNat :=
        Nat.min_le_right _ _
      rw [UInt32.le_iff_toNat_le, hright, (hfits.right buffer h).file.1]
      omega
    · rw [afterRead_other hj]
      exact h.pos_le j
  table := by
    intro j hj
    by_cases hji : j = i
    · subst hji
      rw [afterRead_handle] at hj ⊢
      exact h.table j hj
    · rw [afterRead_other hji] at hj ⊢
      exact h.table j hj

/-- An open takes a handle that is not in use, or nothing happens. -/
theorem run_fopen (s : Video) (name : List UInt8) :
    (eeRomFsFOpen name).run s = (some none, s) ∨
      ∃ i f, (s.locHandle i).inUse = false ∧ f.pos = 0 ∧ OfTable s f ∧
        (eeRomFsFOpen name).run s = (some (some i), { s with locHandle := Function.update s.locHandle i f }) := by
  unfold eeRomFsFOpen
  rw [Prog.run_bind_get]
  cases hroot : s.locRoot with
  | none => exact Or.inl rfl
  | some root =>
    cases hfree : (List.finRange LOC_ROMFS_MAXOPEN).find? fun i => !(s.locHandle i).inUse with
    | none => exact Or.inl rfl
    | some i =>
      cases hentry : root.find? fun e => e.name = name with
      | none =>
        simp only [hentry]
        exact Or.inl rfl
      | some e =>
        cases hfirst : root.head? with
        | none =>
          simp only [hentry, hfirst]
          exact Or.inl rfl
        | some first =>
          simp only [hentry, hfirst]
          have hinuse := List.find?_some hfree
          exact Or.inr ⟨i, ⟨0, e.size, e.address - first.address + s.clusterImageData, true⟩, by simpa using hinuse, rfl,
            ⟨root, first, hroot, hfirst, e, List.mem_of_find?_eq_some hentry, rfl, rfl⟩, by rw [← hroot]; rfl⟩

theorem FilesInv.fopen (h : FilesInv s) {f : RomFsFile} (hpos : f.pos = 0) (hf : OfTable s f) :
    FilesInv { s with locHandle := Function.update s.locHandle i f } where
  pos_le := by
    intro j
    change (Function.update s.locHandle i f j).pos ≤ (Function.update s.locHandle i f j).size
    by_cases hj : j = i
    · rw [hj, Function.update_self, hpos]
      exact UInt32.zero_le
    · rw [Function.update_of_ne hj]
      exact h.pos_le j
  table := by
    intro j hj
    change (Function.update s.locHandle i f j).inUse = true at hj
    change OfTable s (Function.update s.locHandle i f j)
    by_cases hji : j = i
    · rw [hji, Function.update_self]
      exact hf
    · rw [Function.update_of_ne hji] at hj ⊢
      exact h.table j hj

theorem FilesInv.fclose (h : FilesInv s) :
    FilesInv { s with locHandle := Function.update s.locHandle i { s.locHandle i with inUse := false } } where
  pos_le := by
    intro j
    change (Function.update s.locHandle i { s.locHandle i with inUse := false } j).pos ≤
      (Function.update s.locHandle i { s.locHandle i with inUse := false } j).size
    by_cases hj : j = i
    · rw [hj, Function.update_self]
      exact h.pos_le i
    · rw [Function.update_of_ne hj]
      exact h.pos_le j
  table := by
    intro j hj
    change (Function.update s.locHandle i { s.locHandle i with inUse := false } j).inUse = true at hj
    change OfTable s (Function.update s.locHandle i { s.locHandle i with inUse := false } j)
    by_cases hji : j = i
    · rw [hji, Function.update_self] at hj
      cases hj
    · rw [Function.update_of_ne hji] at hj ⊢
      exact h.table j hj

theorem FilesInv.start (hs : ∀ i, s.locHandle i = ⟨0, 0, 0, false⟩) : FilesInv s where
  pos_le := by
    intro i
    rw [hs i]
    exact UInt32.le_refl _
  table := by
    intro i hi
    rw [hs i] at hi
    cases hi

/-- A call that fits returns, keeps the invariant, and leaves the handles of the others alone. -/
theorem FilesInv.call (h : FilesInv s) (hc : CallFits s c) : ∃ t, fileCall s c = some t ∧ FilesInv t ∧
    ∀ j, (s.locHandle j).inUse = true → c.fp ≠ some j → t.locHandle j = s.locHandle j := by
  cases c with
  | fopen name =>
    rcases run_fopen s name with hrun | ⟨i, f, hfree, hpos, hf, hrun⟩
    · exact ⟨s, by rw [fileCall, hrun], h, fun _ _ _ => rfl⟩
    · refine ⟨_, by rw [fileCall, hrun], h.fopen hpos hf, fun j hj _ => Function.update_of_ne ?_ _ _⟩
      rintro rfl
      rw [hfree] at hj
      cases hj
  | fclose fp =>
    cases fp with
    | none => exact ⟨s, rfl, h, fun _ _ _ => rfl⟩
    | some i =>
      refine ⟨_, rfl, h.fclose (i := i), fun j _ hj => Function.update_of_ne ?_ _ _⟩
      rintro rfl
      exact hj rfl
  | fread buffer size count fp =>
    cases fp with
    | none => exact ⟨s, rfl, h, fun _ _ _ => rfl⟩
    | some i =>
      by_cases hbuffer : buffer = 0
      · refine ⟨s, ?_, h, fun _ _ _ => rfl⟩
        rw [fileCall, eeRomFsFRead, if_pos hbuffer]
        rfl
      · have hfits := hc hbuffer
        refine ⟨_, by rw [fileCall, run_fread hbuffer, if_neg hfits.1], h.read hfits, fun j _ hj => afterRead_other ?_⟩
        rintro rfl
        exact hj rfl

theorem FilesInv.callRight (h : FilesInv s) (hc : CallFits s c) : CallRight s c where
  returns := by
    obtain ⟨t, ht, hinv, hother⟩ := h.call hc
    exact ⟨t, ht, hinv.pos_le, hinv.table, hother⟩
  read := by
    rintro buffer size count i rfl hbuffer
    exact (read_right_iff h hbuffer).mpr (hc hbuffer)

theorem CallRight.fits (h : FilesInv s) (hc : CallRight s c) : CallFits s c := by
  cases c with
  | fopen name => trivial
  | fclose fp => trivial
  | fread buffer size count fp =>
    cases fp with
    | none => trivial
    | some i =>
      intro hbuffer
      exact (read_right_iff h hbuffer).mp (hc.read buffer size count i rfl hbuffer)

/-- Whatever files are opened, read and closed, in any order and through any handle, every call does right as long as every
read fits; with the first one that does not, it does not. -/
theorem fileCalls_right_iff (s : Video) (hs : ∀ i, s.locHandle i = ⟨0, 0, 0, false⟩) (cs : List FileCall) :
    (∀ x ∈ trace fileCall s cs, CallRight x.1 x.2) ↔ ∀ x ∈ trace fileCall s cs, CallFits x.1 x.2 := by
  refine trace_right_iff (fun s c h hc => ⟨h.callRight hc, ?_⟩) (fun s c h hc => hc.fits h) (FilesInv.start hs) cs
  obtain ⟨t, ht, hinv, -⟩ := h.call hc
  exact ⟨t, ht, hinv⟩

/-- A file system with one file, of the name "a", before the first call. -/
def demo : Video where
  locRoot := some [⟨[97], 4416, 0xF0000000⟩]
  clusterImageData := 0x58000000
  locHandle := fun _ => ⟨0, 0, 0, false⟩
  vidmembufferAlloced := fun _ => false
  vidmembuffer := fun _ => ⟨0, 0⟩
  data := fun _ => .null
  mem := fun _ => 0
  vid := fun _ => 0

def demoOpened : Video :=
  { demo with locHandle := Function.update demo.locHandle firstHandle ⟨0, 4416, 0x58000000, true⟩ }

theorem trace_demo (c : FileCall) :
    trace fileCall demo [.fopen [97], c] = (demo, .fopen [97]) :: trace fileCall demoOpened [c] :=
  trace_cons rfl

theorem fileCalls_right_demo :
    trace fileCall demo [.fopen [97], .fread 0x40000000 4 3 (some firstHandle)] =
      [(demo, .fopen [97]), (demoOpened, .fread 0x40000000 4 3 (some firstHandle))] ∧
    ∀ x ∈ trace fileCall demo [.fopen [97], .fread 0x40000000 4 3 (some firstHandle)], CallRight x.1 x.2 := by
  refine ⟨by rw [trace_demo, trace_singleton], (fileCalls_right_iff demo (fun _ => rfl) _).mpr ?_⟩
  rw [trace_demo, trace_singleton, List.forall_mem_cons, List.forall_mem_singleton]
  exact ⟨trivial, fun _ => by decide⟩

/-- A read of items of no bytes divides by zero; one of 65536 times 65536 bytes moves none. -/
theorem fread_wraps :
    (¬ ∀ x ∈ trace fileCall demo [.fopen [97], .fread 0x40000000 0 1 (some firstHandle)], CallRight x.1 x.2) ∧
      ¬ ∀ x ∈ trace fileCall demo [.fopen [97], .fread 0x40000000 65536 65536 (some firstHandle)], CallRight x.1 x.2 := by
  have hinv : FilesInv demoOpened := (FilesInv.start (s := demo) fun _ => rfl).fopen rfl
    ⟨_, _, rfl, rfl, _, List.mem_singleton_self _, rfl, rfl⟩
  have hunfit : ∀ size count : UInt32, ¬ ReadFits size count (demoOpened.locHandle firstHandle) →
      ¬ ∀ x ∈ trace fileCall demo [.fopen [97], .fread 0x40000000 size count (some firstHandle)], CallRight x.1 x.2 := by
    intro size count hunfit hall
    rw [trace_demo, trace_singleton, List.forall_mem_cons, List.forall_mem_singleton] at hall
    exact hunfit (hall.2.fits hinv (by decide))
  exact ⟨hunfit 0 1 (by decide), hunfit 65536 65536 (by decide)⟩

end RCar.RomFs
