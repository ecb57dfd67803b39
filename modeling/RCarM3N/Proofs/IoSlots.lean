import RCarM3N.Lib.Runs
import RCarM3N.Proofs.IoInit

/-! The one open slot of each backend over all sequences of calls: it is free again whenever
a call returns, if and only if no call fails between the open and the close of a backend. -/

namespace RCar.Bl2

open Prog

variable {s s' t : IoState} {dev : Dev} {build : BuildOptions}

/-- Both slots are free. -/
def Clear (s : IoState) : Prop := ∀ dev, (s.file dev).inUse = false

/-! ## An open, a seek and a read -/

/-- A read at `off` succeeds after an open in the state `s`. -/
def ReadsFrom (s : IoState) (off : ℤ) (length : ℕ) : Dev → Prop
  | .memdrv => ¬ FLASH_MEMORY_SIZE < off + toSigned length
  | .emmcdrv => sectorNum length ≠ 0 ∧
      s.card.outcomes (selectPos s.card (openTarget s)) = .success

/-- The memory after it. -/
def readInto (s : IoState) (off : ℤ) (buffer length : ℕ) : Dev → Mem
  | .memdrv => s.mem.copy buffer s.mem ((FLASH0_BASE + off) % 2 ^ 32).toNat
      (dmaLength (length % 2 ^ 32))
  | .emmcdrv => s.mem.copy buffer (s.card.part (openTarget s)) (512 * (off / 512 % 2 ^ 32).toNat)
      (512 * sectorNum length)

theorem ioRead_opened {off rc : ℤ} {buffer length : ℕ} {cnt : Option ℕ} {u : IoState}
    (hopened : OpenedOk dev s t) (hrun : (ioRead dev buffer length).run { t with
      file := Function.update t.file dev { t.file dev with filePos := off } } =
        (some (rc, cnt), u)) :
    (rc = IO_SUCCESS ↔ ReadsFrom s off length dev) ∧ ReadFrame dev t u ∧
      (rc = IO_SUCCESS → u.mem = readInto s off buffer length dev) := by
  have hseek := readFrame_seek dev t off
  cases dev with
  | memdrv =>
    have hcases := memdrvBlockRead_cases { t with
      file := Function.update t.file .memdrv { t.file .memdrv with filePos := off } } buffer length
    rcases hcases with ⟨hfail, hsize⟩ | hnone | ⟨u', hok, hsize, hframe, hmem⟩
    · obtain ⟨⟨rfl, rfl⟩, rfl⟩ := (run_unique hrun hfail).imp_left Prod.mk.inj
      simp only [Function.update_self] at hsize
      exact ⟨⟨fun h => absurd h (by decide), fun h => absurd hsize h⟩, hseek,
        fun h => absurd h (by decide)⟩
    · cases hrun.symm.trans hnone
    · obtain ⟨⟨rfl, -⟩, rfl⟩ := (run_unique hrun hok).imp_left Prod.mk.inj
      simp only [Function.update_self] at hsize
      refine ⟨⟨fun _ => hsize, fun _ => rfl⟩, hseek.trans hframe, fun _ => ?_⟩
      simp only [Function.update_self] at hmem
      rw [hmem, readInto, hopened.mem, hopened.base rfl]
  | emmcdrv =>
    obtain ⟨rc', u', hrun', hrc, hframe, hout, hin⟩ := run_emmcdrvBlockRead { t with
      file := Function.update t.file .emmcdrv { t.file .emmcdrv with filePos := off } } buffer length
    obtain ⟨⟨rfl, -⟩, rfl⟩ := (run_unique hrun hrun').imp_left Prod.mk.inj
    simp only [Function.update_self] at hin
    refine ⟨hrc.trans ?_, hseek.trans hframe, fun hok => ?_⟩
    · rw [ReadsFrom, hopened.store.outcomes, hopened.pos rfl]
    · funext a
      by_cases ha : buffer ≤ a ∧ a < buffer + 512 * sectorNum length
      · obtain ⟨i, rfl⟩ := Nat.exists_eq_add_of_le ha.1
        have hi : i < 512 * sectorNum length := by omega
        rw [hin hok i hi, readInto, Mem.copy_add _ _ _ _ _ _ hi, hopened.store.part, hopened.sel rfl]
      · have ha' : a < buffer ∨ buffer + 512 * sectorNum length ≤ a := by omega
        rw [hout a ha', readInto, Mem.copy_out _ _ _ _ _ _ ha', hopened.mem]

/-! ## One image of `load_bl33x` -/

/-- Both slots are free, and as many entities are in use as before. -/
structure Released (s s' : IoState) : Prop where
  slots : Clear s'
  entityCount : s'.entityCount = s.entityCount

theorem Released.trans {s'' : IoState} (h : Released s s') (h' : Released s' s'') :
    Released s s'' :=
  ⟨h'.slots, h'.entityCount.trans h.entityCount⟩

/-- A call that returns leaves both slots free if and only if it closes what it opens, gives its
entities back then, and always closes on success. -/
structure Accounts (s s' : IoState) (c ok : Prop) : Prop where
  closes : Clear s' → c
  released : c → Released s s'
  success : ok → Released s s'

theorem Accounts.of_released {c ok : Prop} (hc : c) (h : Released s s') : Accounts s s' c ok :=
  ⟨fun _ => hc, fun _ => h, fun _ => h⟩

theorem Accounts.of_leak {c ok : Prop} (hc : ¬ c) (hok : ¬ ok) (h : (s'.file dev).inUse = true) :
    Accounts s s' c ok := by
  refine ⟨fun hclear => ?_, fun h => absurd h hc, fun h => absurd h hok⟩
  rw [hclear dev] at h
  cases h

/-- The state in which a backend is opened for a partition. -/
def withPartition (s : IoState) (dev : Dev) (p : ℕ) : IoState :=
  { s with specPartition := Function.update s.specPartition dev (p % 2 ^ 32) }

theorem run_setSpecPartition (h : s.rcar.handle = some dev) (p : ℕ) :
    (setSpecPartition p).run s = (some dev, withPartition s dev p) := by
  unfold setSpecPartition
  rw [run_bind_get, h]
  rfl

theorem setSpecPartition_stuck (h : s.rcar.handle = none) (p : ℕ) :
    ((setSpecPartition p).run s).1 = none := by
  unfold setSpecPartition
  rw [run_bind_get, h]
  rfl

section Bl33x

variable {authModVerifyImg : ℤ → Mem → ℕ → ℕ → ℤ} {img : ℤ}

/-- The image is in an area that may be loaded, its read succeeds, and it is authentic. -/
structure LoadsImage (authModVerifyImg : ℤ → Mem → ℕ → ℕ → ℤ) (img : ℤ) (s : IoState) (dev : Dev)
    (offset : ℤ) (dst len : ℕ) : Prop where
  area : checkLoadArea (.ofNat dst) (.ofNat len) = IO_SUCCESS
  read : ReadsFrom s offset len dev
  authentic : authModVerifyImg img (readInto s offset dst len dev) dst len = 0

/-- The round of `load_bl33x` after the open. -/
def loadOpened (authModVerifyImg : ℤ → Mem → ℕ → ℕ → ℤ) (img : ℤ) (dev : Dev) (offset : ℤ)
    (dst len : ℕ) : Prog IoState Bool := do
  if (← ioSeek dev offset) ≠ IO_SUCCESS then
    return false
  if checkLoadArea (.ofNat dst) (.ofNat len) ≠ IO_SUCCESS then
    return false
  if (← ioRead dev dst len).1 ≠ IO_SUCCESS then
    return false
  if authModVerifyImg img (← Prog.get).mem dst len ≠ 0 then
    Prog.modify fun s => { s with mem := s.mem.copy dst (fun _ => 0) 0 len }
    return false
  let _ ← ioClose dev
  return true

/-- After the open, either the image is loaded and the backend closed, or the round fails and
leaves the backend open. -/
theorem loadOpened_cases {offset : ℤ} {dst len : ℕ} {ok : Bool} (hopened : OpenedOk dev s t)
    (hrun : (loadOpened authModVerifyImg img dev offset dst len).run t = (some ok, s')) :
    LoadsImage authModVerifyImg img s dev offset dst len ∧ ok = true ∧
        (s'.file dev).inUse = false ∧ s'.entityCount = t.entityCount - 1 ∧
        (∀ d ≠ dev, s'.file d = t.file d) ∨
      ¬ LoadsImage authModVerifyImg img s dev offset dst len ∧ ok = false ∧
        (s'.file dev).inUse = true := by
  have hseek := readFrame_seek dev t offset
  unfold loadOpened at hrun
  rw [run_bind_of_some (run_ioSeek dev t offset), if_neg (not_not.mpr rfl)] at hrun
  by_cases harea : checkLoadArea (.ofNat dst) (.ofNat len) = IO_SUCCESS
  · rw [if_neg (not_not.mpr harea)] at hrun
    obtain ⟨⟨rc, cnt⟩, u, hread, hrest⟩ := run_bind_eq_some hrun
    obtain ⟨hrc, hframe, hmem⟩ := ioRead_opened hopened hread
    by_cases hok : rc = IO_SUCCESS
    · simp only [if_neg (not_not.mpr hok)] at hrest
      rw [run_bind_get, hmem hok] at hrest
      by_cases hauth : authModVerifyImg img (readInto s offset dst len dev) dst len = 0
      · rw [if_neg (not_not.mpr hauth), run_bind_of_some (run_ioClose dev u)] at hrest
        obtain ⟨rfl, rfl⟩ := run_unique hrest (run_pure _ _)
        refine .inl ⟨⟨harea, hrc.mp hok, hauth⟩, rfl, ?_, ?_, fun d hd => ?_⟩
        · simp only [Function.update_self]
          rfl
        · simp only [hframe.entityCount]
        · simp only [Function.update_of_ne hd]
          exact hframe.other d hd
      · rw [if_pos hauth] at hrest
        obtain ⟨rfl, rfl⟩ := run_unique hrest (run_pure _ _)
        refine .inr ⟨fun h => hauth h.authentic, rfl, ?_⟩
        exact hframe.inUse.trans hopened.inUse
    · simp only [if_pos hok] at hrest
      obtain ⟨rfl, rfl⟩ := run_unique hrest (run_pure _ _)
      exact .inr ⟨fun h => hok (hrc.mpr h.read), rfl, hframe.inUse.trans hopened.inUse⟩
  · rw [if_pos harea] at hrun
    obtain ⟨rfl, rfl⟩ := run_unique hrun (run_pure _ _)
    exact .inr ⟨fun h => harea h.area, rfl, hseek.inUse.trans hopened.inUse⟩

/-- The backend opens for the image, and the image is loaded. -/
structure OpensAndLoads (authModVerifyImg : ℤ → Mem → ℕ → ℕ → ℤ) (img : ℤ) (s : IoState) (dev : Dev)
    (f : FileEntry) : Prop where
  media : MediaOpens s dev
  loads : LoadsImage authModVerifyImg img s dev (toSigned f.offset)
    (rcarReadCertificate s.mem f.cert).2 (rcarReadCertificate s.mem f.cert).1

/-- The round for `img` does not fail once it has taken the slot. -/
def RoundCloses (authModVerifyImg : ℤ → Mem → ℕ → ℕ → ℤ) (img : ℤ) (s : IoState) : Prop :=
  ∀ f dev, fileToOffset s img = some f → s.rcar.handle = some dev →
    Openable dev (withPartition s dev f.partition) →
    OpensAndLoads authModVerifyImg img (withPartition s dev f.partition) dev f

/-- The round that opens a backend. -/
theorem loadImg_eq {f : FileEntry} (hf : fileToOffset s img = some f)
    (hdev : s.rcar.handle = some dev) : (loadImg authModVerifyImg img).run s = (do
      if (← ioOpen dev) ≠ IO_SUCCESS then
        return false
      loadOpened authModVerifyImg img dev (toSigned f.offset) (rcarReadCertificate s.mem f.cert).2
        (rcarReadCertificate s.mem f.cert).1 : Prog IoState Bool).run
          (withPartition s dev f.partition) := by
  unfold loadImg
  rw [run_bind_get, hf]
  simp only
  rw [run_bind_get, run_bind_of_some (run_setSpecPartition hdev _)]
  rfl

/-- A round leaves the slots free if and only if it does not fail once it has taken one. -/
theorem loadImg_released {ok : Bool} (hclear : Clear s)
    (hrun : (loadImg authModVerifyImg img).run s = (some ok, s')) :
    Accounts s s' (RoundCloses authModVerifyImg img s) (ok = true) := by
  rcases hf : fileToOffset s img with _ | f
  · have hstop : (loadImg authModVerifyImg img).run s = (some false, s) := by
      unfold loadImg
      rw [run_bind_get, hf]
      rfl
    obtain ⟨rfl, rfl⟩ := run_unique hrun hstop
    refine .of_released (fun f dev hf' => ?_) ⟨hclear, rfl⟩
    rw [hf] at hf'
    cases hf'
  rcases hdev : s.rcar.handle with _ | dev
  · have hnone : ((loadImg authModVerifyImg img).run s).1 = none := by
      unfold loadImg
      rw [run_bind_get, hf]
      simp only
      rw [run_bind_get]
      exact run_bind_fst_of_none (setSpecPartition_stuck hdev _) _
    rw [hrun] at hnone
    cases hnone
  rw [loadImg_eq hf hdev] at hrun
  have hcloses : RoundCloses authModVerifyImg img s ↔
      (Openable dev (withPartition s dev f.partition) →
        OpensAndLoads authModVerifyImg img (withPartition s dev f.partition) dev f) := by
    constructor
    · exact fun h => h f dev hf hdev
    · intro h f' dev' hf' hdev'
      obtain rfl : f = f' := Option.some.inj (hf.symm.trans hf')
      obtain rfl : dev = dev' := Option.some.inj (hdev.symm.trans hdev')
      exact h
  rw [hcloses]
  by_cases hopen : Openable dev (withPartition s dev f.partition)
  · obtain ⟨rc, t, hio, hrc, hopened, hok, -⟩ := run_ioOpen hopen
    rw [run_bind_of_some hio] at hrun
    by_cases hsucc : rc = IO_SUCCESS
    · rw [if_neg (not_not.mpr hsucc)] at hrun
      obtain ⟨hopened', hcount⟩ := hok hsucc
      rcases loadOpened_cases hopened' hrun with
        ⟨hloads, rfl, hfree, hcount', hother⟩ | ⟨hloads, rfl, huse⟩
      · have hreleased : Released s s' := by
          refine ⟨fun d => ?_, ?_⟩
          · by_cases hd : d = dev
            · rw [hd, hfree]
            · rw [hother d hd, hopened'.other d hd]
              exact hclear d
          · rw [hcount', hcount, Nat.add_sub_cancel]
            rfl
        exact .of_released (fun _ => ⟨hrc.mp hsucc, hloads⟩) hreleased
      · exact .of_leak (fun h => hloads (h hopen).loads) Bool.false_ne_true huse
    · rw [if_pos hsucc] at hrun
      obtain ⟨rfl, rfl⟩ := run_unique hrun (run_pure _ _)
      exact .of_leak (fun h => hsucc (hrc.mpr (h hopen).media)) Bool.false_ne_true hopened.inUse
  · obtain ⟨rc, hio, hrc⟩ := run_ioOpen_refused hopen
    rw [run_bind_of_some hio, if_pos hrc] at hrun
    obtain ⟨rfl, rfl⟩ := run_unique hrun (run_pure _ _)
    exact .of_released (fun h => absurd h hopen) ⟨hclear, rfl⟩

/-- No round fails once it has taken the slot, each in the state that the ones before it leave. -/
def RoundsClose (authModVerifyImg : ℤ → Mem → ℕ → ℕ → ℤ) : List ℤ → IoState → Prop
  | [], _ => True
  | img :: l, s => RoundCloses authModVerifyImg img s ∧
      ∀ t, (loadImg authModVerifyImg img).run s = (some true, t) → RoundsClose authModVerifyImg l t

theorem loadImgs_released {ok : Bool} {l : List ℤ} (hclear : Clear s)
    (hrun : (loadImgs authModVerifyImg l).run s = (some ok, s')) :
    Accounts s s' (RoundsClose authModVerifyImg l s) (ok = true) := by
  induction l generalizing s with
  | nil =>
    obtain ⟨rfl, rfl⟩ := run_unique hrun (run_pure _ _)
    exact .of_released trivial ⟨hclear, rfl⟩
  | cons img l ih =>
    obtain ⟨first, t, himg, hrest⟩ := run_bind_eq_some hrun
    have hround := loadImg_released hclear himg
    cases first with
    | false =>
      obtain ⟨rfl, rfl⟩ := run_unique hrest (run_pure _ _)
      refine ⟨fun h => ⟨hround.closes h, fun t' ht' => ?_⟩, fun h => hround.released h.1,
        fun h => Bool.noConfusion h⟩
      exact Bool.noConfusion (run_unique himg ht').1
    | true =>
      have hfirst := hround.success rfl
      have hothers := ih hfirst.slots hrest
      refine ⟨fun h => ⟨hround.closes hfirst.slots, fun t' ht' => ?_⟩,
        fun h => hfirst.trans (hothers.released (h.2 t himg)), fun h => hfirst.trans (hothers.success h)⟩
      obtain rfl := (run_unique himg ht').2
      exact hothers.closes h

/-- `load_bl33x` has run before, or none of its rounds fails once it has taken the slot. -/
def LoadCloses (authModVerifyImg : ℤ → Mem → ℕ → ℕ → ℤ) (s : IoState) : Prop :=
  s.rcar.loaded = IO_NOT_SUPPORTED →
    RoundsClose authModVerifyImg ((bl33Images.take s.rcar.imageNumber).drop 1) s

theorem loadBl33x_released {rc : ℤ} (hclear : Clear s)
    (hrun : (loadBl33x authModVerifyImg).run s = (some rc, s')) :
    Accounts s s' (LoadCloses authModVerifyImg s) (rc = IO_SUCCESS) := by
  unfold loadBl33x at hrun
  rw [run_bind_get] at hrun
  by_cases hloaded : s.rcar.loaded = IO_NOT_SUPPORTED
  · rw [if_neg (not_not.mpr hloaded)] at hrun
    obtain ⟨ok, t, himgs, hrest⟩ := run_bind_eq_some hrun
    have hrounds := loadImgs_released hclear himgs
    cases ok with
    | false =>
      obtain ⟨rfl, rfl⟩ := run_unique hrest rfl
      refine ⟨fun h _ => hrounds.closes h, fun h => ?_, fun h => absurd h (by decide)⟩
      have hreleased := hrounds.released (h hloaded)
      exact ⟨hreleased.slots, hreleased.entityCount⟩
    | true =>
      have hreleased := hrounds.success rfl
      refine .of_released (fun _ => hrounds.closes hreleased.slots) ?_
      by_cases hmany : bl33Images.length < s.rcar.imageNumber
      · simp only [Bool.not_true, Bool.false_eq_true, if_false, if_pos hmany] at hrest
        obtain ⟨_, _, hstuck, -⟩ := run_bind_eq_some hrest
        cases hstuck
      · simp only [Bool.not_true, Bool.false_eq_true, if_false, if_neg hmany] at hrest
        obtain ⟨-, rfl⟩ := run_unique hrest rfl
        exact ⟨hreleased.slots, hreleased.entityCount⟩
  · rw [if_pos hloaded] at hrun
    obtain ⟨rfl, rfl⟩ := run_unique hrun (run_pure _ _)
    exact .of_released (fun h => absurd h hloaded) ⟨hclear, rfl⟩

/-! ## Reading a file -/

/-- The slots and the entities are as they were. -/
structure SameSlots (s s' : IoState) : Prop where
  entityCount : s'.entityCount = s.entityCount
  inUse : ∀ d, (s'.file d).inUse = (s.file d).inUse

instance : IsPreorder IoState SameSlots where
  refl _ := ⟨rfl, fun _ => rfl⟩
  trans _ _ _ h h' := ⟨h'.entityCount.trans h.entityCount, fun d => (h'.inUse d).trans (h.inUse d)⟩

theorem ReadFrame.sameSlots (h : ReadFrame dev t s') : SameSlots t s' := by
  refine ⟨h.entityCount, fun d => ?_⟩
  by_cases hd : d = dev
  · rw [hd]
    exact h.inUse
  · rw [h.other d hd]

theorem modifyRcar_sameSlots (f : RcarStatics → RcarStatics) : Keeps SameSlots (modifyRcar f) :=
  fun _ => ⟨rfl, fun _ => rfl⟩

theorem ioSeek_sameSlots (dev : Dev) (offset : ℤ) : Keeps SameSlots (ioSeek dev offset) :=
  fun t => (readFrame_seek dev t offset).sameSlots

theorem ioRead_sameSlots (dev : Dev) (buffer length : ℕ) : Keeps SameSlots (ioRead dev buffer length) := by
  cases dev with
  | memdrv =>
    intro t
    rcases memdrvBlockRead_cases t buffer length with ⟨hrun, -⟩ | hrun | ⟨u, hrun, -, hframe, -⟩
    · rw [show ((ioRead .memdrv buffer length).run t).2 = t from congrArg Prod.snd hrun]
      exact refl_of SameSlots t
    · rw [show ((ioRead .memdrv buffer length).run t).2 = t from congrArg Prod.snd hrun]
      exact refl_of SameSlots t
    · rw [show ((ioRead .memdrv buffer length).run t).2 = u from congrArg Prod.snd hrun]
      exact hframe.sameSlots
  | emmcdrv =>
    intro t
    obtain ⟨rc, u, hrun, -, hframe, -⟩ := run_emmcdrvBlockRead t buffer length
    rw [show ((ioRead .emmcdrv buffer length).run t).2 = u from congrArg Prod.snd hrun]
    exact hframe.sameSlots

theorem readPayload_sameSlots (dev : Dev) (buffer length : ℕ) :
    Keeps SameSlots (readPayload dev buffer length) := by
  unfold readPayload
  refine Keeps.bind Keeps.get fun s => Keeps.bind (ioSeek_sameSlots _ _) fun rc => ?_
  refine Keeps.ite (Keeps.pure _) (Keeps.ite (Keeps.pure _) (ioRead_sameSlots _ _ _))

/-- `rcar_file_read` from the open to the close, with the count of the reads. -/
def readFile (dev : Dev) (buffer length : ℕ) : Prog IoState (ℤ × Option ℕ) := do
  if (← ioOpen dev) ≠ IO_SUCCESS then
    return (IO_FAIL, none)
  let (rc, cnt) ← readPayload dev buffer length
  if rc ≠ IO_SUCCESS then
    let _ ← ioClose dev
    return (IO_FAIL, cnt)
  modifyRcar fun r => { r with
    currentFile := { r.currentFile with
      position := (r.currentFile.position + cnt.getD 0) % 2 ^ 32 } }
  let _ ← ioClose dev
  modifyRcar fun r => { r with loadBl33xCounter := (r.loadBl33xCounter + 1) % 2 ^ 32 }
  return (IO_SUCCESS, cnt)

/-- The end of `rcar_file_read`, after a successful read. -/
def afterRead (authModVerifyImg : ℤ → Mem → ℕ → ℕ → ℤ) (r : ℤ × Option ℕ) :
    Prog IoState (ℤ × Option ℕ) := do
  if r.1 ≠ IO_SUCCESS then
    return r
  if (← Prog.get).rcar.loadBl33xCounter = RCAR_COUNT_LOAD_BL33X then
    return (← loadBl33x authModVerifyImg, r.2)
  else
    return (IO_SUCCESS, r.2)

theorem rcarFileRead_eq (hload : s.rcar.currentFile.noLoad = 0) (hdev : s.rcar.handle = some dev)
    (buffer length : ℕ) : (rcarFileRead authModVerifyImg buffer length).run s =
      (readFile dev buffer length >>= afterRead authModVerifyImg).run
        (withPartition s dev s.rcar.currentFile.partition) := by
  unfold rcarFileRead readFile
  rw [run_bind_get, if_neg (not_not.mpr hload), run_bind_of_some (run_setSpecPartition hdev _),
    Prog.bind_assoc, run_bind, run_bind]
  rcases (ioOpen dev).run (withPartition s dev s.rcar.currentFile.partition) with ⟨_ | rc, t⟩
  · rfl
  by_cases hrc : rc ≠ IO_SUCCESS
  · simp only [if_pos hrc]
    rfl
  simp only [if_neg hrc]
  rw [Prog.bind_assoc, run_bind, run_bind]
  rcases (readPayload dev buffer length).run t with ⟨_ | ⟨rc', cnt⟩, u⟩
  · rfl
  by_cases hrc' : rc' ≠ IO_SUCCESS
  · simp only [if_pos hrc']
    rfl
  · simp only [if_neg hrc']
    rfl

theorem released_of_close {u : IoState} {r : RcarStatics} (hclear : Clear s)
    (hopened : Opened dev s t) (hcount : t.entityCount = s.entityCount + 1) (hsame : SameSlots t u) :
    Released s { u with
      file := Function.update u.file dev FileState.zero
      entityCount := u.entityCount - 1
      rcar := r } := by
  refine ⟨fun d => ?_, ?_⟩
  · by_cases hd : d = dev
    · subst hd
      simp only [Function.update_self]
      rfl
    · simp only [Function.update_of_ne hd]
      rw [hsame.inUse d, hopened.other d hd]
      exact hclear d
  · simp only [hsame.entityCount, hcount, Nat.add_sub_cancel]

/-- Between the open and the close nothing is skipped. -/
theorem readFile_released {buffer length : ℕ} {r : ℤ × Option ℕ} (hclear : Clear s)
    (hrun : (readFile dev buffer length).run s = (some r, t)) :
    Accounts s t (Openable dev s → MediaOpens s dev) (r.1 = IO_SUCCESS) := by
  unfold readFile at hrun
  by_cases hopen : Openable dev s
  · obtain ⟨rc, u, hio, hrc, hopened, hok, -⟩ := run_ioOpen hopen
    rw [run_bind_of_some hio] at hrun
    by_cases hsucc : rc = IO_SUCCESS
    · rw [if_neg (not_not.mpr hsucc)] at hrun
      obtain ⟨⟨rc', cnt⟩, v, hpayload, hrest⟩ := run_bind_eq_some hrun
      have hsame : SameSlots u v := by
        have h := readPayload_sameSlots dev buffer length u
        rwa [show ((readPayload dev buffer length).run u).2 = v from congrArg Prod.snd hpayload] at h
      have hclose : ∀ r, Released s { v with
          file := Function.update v.file dev FileState.zero
          entityCount := v.entityCount - 1
          rcar := r } := fun r => released_of_close hclear hopened (hok hsucc).2 hsame
      have hreleased : Released s t := by
        by_cases hrc' : rc' ≠ IO_SUCCESS
        · simp only [if_pos hrc'] at hrest
          obtain ⟨-, rfl⟩ := run_unique hrest rfl
          exact hclose v.rcar
        · simp only [if_neg hrc'] at hrest
          obtain ⟨-, rfl⟩ := run_unique hrest rfl
          exact hclose _
      exact .of_released (fun _ => hrc.mp hsucc) hreleased
    · rw [if_pos hsucc] at hrun
      obtain ⟨rfl, rfl⟩ := run_unique hrun (run_pure _ _)
      exact .of_leak (fun h => hsucc (hrc.mpr (h hopen))) (by decide) hopened.inUse
  · obtain ⟨rc, hio, hrc⟩ := run_ioOpen_refused hopen
    rw [run_bind_of_some hio, if_pos hrc] at hrun
    obtain ⟨rfl, rfl⟩ := run_unique hrun (run_pure _ _)
    exact .of_released (fun h => absurd h hopen) ⟨hclear, rfl⟩

/-- The open of `rcar_file_read` gets through once it has taken the slot, and so does every one
of `load_bl33x` where that is called. -/
structure ReadCloses (authModVerifyImg : ℤ → Mem → ℕ → ℕ → ℤ) (buffer length : ℕ) (s : IoState)
    (dev : Dev) : Prop where
  media : Openable dev s → MediaOpens s dev
  loads : ∀ cnt t, (readFile dev buffer length).run s = (some (IO_SUCCESS, cnt), t) →
    t.rcar.loadBl33xCounter = RCAR_COUNT_LOAD_BL33X → LoadCloses authModVerifyImg t

/-- The condition for a call of `rcar_file_read`, which returns at once for a certificate. -/
def FileReadCloses (authModVerifyImg : ℤ → Mem → ℕ → ℕ → ℤ) (buffer length : ℕ) (s : IoState) : Prop :=
  s.rcar.currentFile.noLoad = 0 → ∀ dev, s.rcar.handle = some dev →
    ReadCloses authModVerifyImg buffer length
      (withPartition s dev s.rcar.currentFile.partition) dev

theorem rcarFileRead_released {buffer length : ℕ} {r : ℤ × Option ℕ} (hclear : Clear s)
    (hrun : (rcarFileRead authModVerifyImg buffer length).run s = (some r, s')) :
    Accounts s s' (FileReadCloses authModVerifyImg buffer length s) (r.1 = IO_SUCCESS) := by
  by_cases hload : s.rcar.currentFile.noLoad = 0
  swap
  · unfold rcarFileRead at hrun
    rw [run_bind_get, if_pos hload] at hrun
    obtain ⟨-, rfl⟩ := run_unique hrun (run_pure _ _)
    exact .of_released (fun h => absurd h hload) ⟨hclear, rfl⟩
  rcases hdev : s.rcar.handle with _ | dev
  · have hnone : ((rcarFileRead authModVerifyImg buffer length).run s).1 = none := by
      unfold rcarFileRead
      rw [run_bind_get, if_neg (not_not.mpr hload)]
      exact run_bind_fst_of_none (setSpecPartition_stuck hdev _) _
    rw [hrun] at hnone
    cases hnone
  have hcloses : FileReadCloses authModVerifyImg buffer length s ↔
      ReadCloses authModVerifyImg buffer length
        (withPartition s dev s.rcar.currentFile.partition) dev := by
    constructor
    · exact fun h => h hload dev hdev
    · rintro h - dev' hdev'
      obtain rfl := Option.some.inj (hdev.symm.trans hdev')
      exact h
  rw [hcloses]
  rw [rcarFileRead_eq hload hdev] at hrun
  obtain ⟨⟨rc, cnt⟩, t, hread, hrest⟩ := run_bind_eq_some hrun
  have hclear' : Clear (withPartition s dev s.rcar.currentFile.partition) := hclear
  have hfile := readFile_released hclear' hread
  have hwith : ∀ u, Released (withPartition s dev s.rcar.currentFile.partition) u → Released s u :=
    fun u h => ⟨h.slots, h.entityCount⟩
  unfold afterRead at hrest
  by_cases hrc : rc = IO_SUCCESS
  swap
  · rw [if_pos hrc] at hrest
    obtain ⟨rfl, rfl⟩ := run_unique hrest (run_pure _ _)
    refine ⟨fun h => ⟨hfile.closes h, fun cnt' t' ht' => ?_⟩, fun h => hwith _ (hfile.released h.media),
      fun h => absurd h hrc⟩
    exact absurd (congrArg Prod.fst (run_unique hread ht').1) hrc
  subst hrc
  have ht := hwith t (hfile.success rfl)
  have hmedia := hfile.closes ht.slots
  rw [if_neg (not_not.mpr rfl), run_bind_get] at hrest
  by_cases hcounter : t.rcar.loadBl33xCounter = RCAR_COUNT_LOAD_BL33X
  · rw [if_pos hcounter] at hrest
    obtain ⟨rc, u, hbl33x, hend⟩ := run_bind_eq_some hrest
    obtain ⟨rfl, rfl⟩ := run_unique hend (run_pure _ _)
    have hload := loadBl33x_released ht.slots hbl33x
    refine ⟨fun h => ⟨hmedia, fun cnt' t' ht' _ => ?_⟩,
      fun h => ht.trans (hload.released (h.loads cnt t hread hcounter)),
      fun h => ht.trans (hload.success h)⟩
    obtain ⟨-, rfl⟩ := run_unique hread ht'
    exact hload.closes h
  · rw [if_neg hcounter] at hrest
    obtain ⟨rfl, rfl⟩ := run_unique hrest (run_pure _ _)
    refine .of_released ⟨hmedia, fun cnt' t' ht' hcounter' => ?_⟩ ht
    obtain ⟨-, rfl⟩ := run_unique hread ht'
    exact absurd hcounter' hcounter

end Bl33x

/-! ## The initialisation -/

theorem headerWord_sameSlots (k : ℕ) : Keeps SameSlots (headerWord k) := by
  unfold headerWord
  exact Keeps.bind Keeps.get fun s => Keeps.ite (Keeps.pure _) Keeps.stuck

theorem copyEntries_sameSlots (build : BuildOptions) (n i : ℕ) :
    Keeps SameSlots (copyEntries build n i) := by
  induction n generalizing i with
  | zero => exact Keeps.pure ()
  | succ n ih =>
    rw [copyEntries]
    refine Keeps.ite (Keeps.bind (headerWord_sameSlots _) fun offset =>
      Keeps.bind (modifyRcar_sameSlots _) fun _ => Keeps.ite ?_ ?_) Keeps.stuck
    · exact Keeps.bind Keeps.get fun s => Keeps.bind (Keeps.pure _) fun prttn =>
        Keeps.bind (modifyRcar_sameSlots _) fun _ => ih (i + 1)
    · exact Keeps.bind (headerWord_sameSlots _) fun prttn =>
        Keeps.bind (modifyRcar_sameSlots _) fun _ => ih (i + 1)

theorem readBootHeader_sameSlots (build : BuildOptions) (dev : Dev) :
    Keeps SameSlots (readBootHeader build dev) := by
  unfold readBootHeader
  refine Keeps.bind (ioSeek_sameSlots _ _) fun rc => Keeps.ite (Keeps.pure _) ?_
  refine Keeps.bind Keeps.get fun s => Keeps.bind (ioRead_sameSlots _ _ _) fun r => ?_
  refine Keeps.ite (Keeps.pure _) (Keeps.bind (headerWord_sameSlots _) fun number => ?_)
  refine Keeps.bind (modifyRcar_sameSlots _) fun _ => Keeps.bind (copyEntries_sameSlots _ _ _) fun _ => ?_
  refine Keeps.ite (Keeps.pure _) (Keeps.bind (ioSeek_sameSlots _ _) fun rc' => ?_)
  refine Keeps.ite (Keeps.pure _) (Keeps.bind (ioRead_sameSlots _ _ _) fun r' => ?_)
  exact Keeps.ite (Keeps.pure _) (Keeps.bind (modifyRcar_sameSlots _) fun _ => Keeps.pure _)

/-- The open of the initialisation, where there is one, gets through once it has taken the slot. -/
def InitCloses (dev : Dev) (s : IoState) : Prop :=
  s.rcar.certLoad = false → Openable dev s → MediaOpens s dev

theorem clear_prepared (h : Clear s) : Clear (prepared dev s) := by
  intro d
  cases dev with
  | memdrv =>
    cases d with
    | memdrv => simp [prepared, FileState.zero]
    | emmcdrv => simpa [prepared] using h .emmcdrv
  | emmcdrv => exact h d

theorem rcarDevInit_released {rc : ℤ} (hclear : Clear s)
    (hrun : (rcarDevInit build dev).run s = (some rc, s')) :
    Accounts s s' (InitCloses dev s) (rc = IO_SUCCESS) := by
  by_cases htrial : Trial dev s
  swap
  · obtain ⟨rfl, rfl⟩ := run_unique hrun ((run_rcarDevInit_trial build dev s).2 htrial)
    exact .of_released (fun _ hopen => absurd (fun hdev => hdev ▸ hopen) htrial) ⟨hclear, rfl⟩
  rw [(run_rcarDevInit_trial build dev s).1 htrial, openAndRead, run_bind_get] at hrun
  have hprepared : Released s (prepared dev s) := ⟨clear_prepared hclear, rfl⟩
  by_cases hcert : s.rcar.certLoad = true
  · rw [if_pos (show (prepared dev s).rcar.certLoad = true from hcert)] at hrun
    obtain ⟨rfl, rfl⟩ := run_unique hrun (run_pure _ _)
    refine .of_released (fun hfresh => ?_) hprepared
    rw [hcert] at hfresh
    cases hfresh
  rw [if_neg (show ¬ (prepared dev s).rcar.certLoad = true from hcert)] at hrun
  by_cases hopen : Openable dev s
  · obtain ⟨rc', t, hio, hrc, hopened, hok, -⟩ := run_ioOpen (openable_prepared hopen)
    rw [run_bind_of_some hio] at hrun
    by_cases hsucc : rc' = IO_SUCCESS
    · rw [if_neg (not_not.mpr hsucc)] at hrun
      obtain ⟨rc'', u, hread, hrest⟩ := run_bind_eq_some hrun
      have hsame : SameSlots t u := by
        have h := readBootHeader_sameSlots build dev t
        rwa [show ((readBootHeader build dev).run t).2 = u from congrArg Prod.snd hread] at h
      obtain ⟨-, rfl⟩ := run_unique hrest rfl
      have hreleased : Released s { u with
          file := Function.update u.file dev FileState.zero
          entityCount := u.entityCount - 1 } :=
        hprepared.trans (released_of_close hprepared.slots hopened (hok hsucc).2 hsame)
      exact .of_released (fun _ _ => mediaOpens_prepared.mp (hrc.mp hsucc)) hreleased
    · rw [if_pos hsucc] at hrun
      obtain ⟨rfl, rfl⟩ := run_unique hrun (run_pure _ _)
      have hfresh : s.rcar.certLoad = false := by simpa using hcert
      exact .of_leak (fun h => hsucc (hrc.mpr (mediaOpens_prepared.mpr (h hfresh hopen)))) (by decide)
        hopened.inUse
  · obtain ⟨rc', hio, hrc⟩ := run_ioOpen_refused fun h => hopen (openable_of_prepared htrial h)
    rw [run_bind_of_some hio, if_pos hrc] at hrun
    obtain ⟨rfl, rfl⟩ := run_unique hrun (run_pure _ _)
    exact .of_released (fun _ h => absurd h hopen) hprepared

/-! ## All sequences of calls -/

/-- The calls of the loader, with their arguments. -/
inductive IoCall where
  | rcarDevInit (name : Dev)
  | rcarFileOpen (name : ℤ)
  | rcarFileRead (buffer length : ℕ)
  | loadBl33x
  | rcarFileClose
  | rcarDevClose

section Calls

variable (build : BuildOptions) (authModVerifyImg : ℤ → Mem → ℕ → ℕ → ℤ)

def IoCall.prog : IoCall → Prog IoState ℤ
  | .rcarDevInit name => Bl2.rcarDevInit build name
  | .rcarFileOpen name => Bl2.rcarFileOpen name
  | .rcarFileRead buffer length => do return (← Bl2.rcarFileRead authModVerifyImg buffer length).1
  | .loadBl33x => Bl2.loadBl33x authModVerifyImg
  | .rcarFileClose => Bl2.rcarFileClose
  | .rcarDevClose => Bl2.rcarDevClose

/-- A call that returns, with its result. -/
def IoCall.Step (s : IoState) (r : IoCall × ℤ) (s' : IoState) : Prop :=
  (r.1.prog build authModVerifyImg).run s = (some r.2, s')

/-- No open of the call fails once it has taken the slot, and nothing of `load_bl33x` between an
open and its close. -/
def IoCall.Closes : IoCall → IoState → Prop
  | .rcarDevInit name, s => InitCloses name s
  | .rcarFileRead buffer length, s => FileReadCloses authModVerifyImg buffer length s
  | .loadBl33x, s => LoadCloses authModVerifyImg s
  | _, _ => True

end Calls

variable {authModVerifyImg : ℤ → Mem → ℕ → ℕ → ℤ}

theorem rcarFileOpen_sameSlots (name : ℤ) : Keeps SameSlots (rcarFileOpen name) := by
  unfold rcarFileOpen
  refine Keeps.bind Keeps.get fun s => Keeps.ite (Keeps.pure _) ?_
  rcases fileToOffset s name with _ | f
  · exact Keeps.pure _
  · refine Keeps.ite ?_ ?_
    · exact Keeps.bind (modifyRcar_sameSlots _) fun _ => Keeps.pure _
    · exact Keeps.bind (modifyRcar_sameSlots _) fun _ => Keeps.pure _

theorem rcarFileClose_sameSlots : Keeps SameSlots rcarFileClose := by
  refine Keeps.bind Keeps.get fun s => Keeps.ite ?_ (Keeps.pure _)
  exact Keeps.bind (modifyRcar_sameSlots _) fun _ => Keeps.pure _

theorem SameSlots.released (h : SameSlots s s') (hclear : Clear s) : Released s s' :=
  ⟨fun d => (h.inUse d).trans (hclear d), h.entityCount⟩

/-- The step lemma. -/
theorem IoCall.accounts {r : IoCall × ℤ} (hclear : Clear s)
    (h : IoCall.Step build authModVerifyImg s r s') :
    Accounts s s' (r.1.Closes authModVerifyImg s) (r.2 = IO_SUCCESS) := by
  obtain ⟨call, rc⟩ := r
  have hsame : ∀ {x : Prog IoState ℤ}, Keeps SameSlots x → x.run s = (some rc, s') →
      Accounts s s' True (rc = IO_SUCCESS) := by
    intro x hx hrun
    have hslots := hx s
    rw [hrun] at hslots
    exact .of_released trivial (hslots.released hclear)
  cases call with
  | rcarDevInit name => exact rcarDevInit_released hclear h
  | rcarFileOpen name => exact hsame (rcarFileOpen_sameSlots name) h
  | rcarFileRead buffer length =>
    obtain ⟨r, t, hread, hend⟩ := run_bind_eq_some h
    obtain ⟨rfl, rfl⟩ := run_unique hend (run_pure _ _)
    exact rcarFileRead_released hclear hread
  | loadBl33x => exact loadBl33x_released hclear h
  | rcarFileClose => exact hsame rcarFileClose_sameSlots h
  | rcarDevClose =>
    exact hsame (Keeps.bind (modifyRcar_sameSlots _) fun _ => Keeps.pure _) h

/-- Both slots are free, and no open is refused for want of one. -/
structure SlotsFree (s : IoState) : Prop where
  clear : Clear s
  notRefused : ∀ dev t, (ioOpen dev).run s ≠ (some IO_RESOURCES_EXHAUSTED, t)

theorem emmcdrvSelect_result {p : ℕ} {rc : ℤ} (h : (emmcdrvSelect p).run s = (some rc, t)) :
    rc ≠ IO_RESOURCES_EXHAUSTED := by
  obtain ⟨_, _, -, h⟩ := run_bind_eq_some h
  obtain ⟨_, _, -, h⟩ := run_bind_eq_some h
  obtain ⟨ok, _, -, h⟩ := run_bind_eq_some h
  cases ok with
  | false => rw [(run_unique h (run_pure _ _)).1]; decide
  | true => rw [(run_unique h (run_pure _ _)).1]; decide

/-- A backend with a free slot opens or fails, but is not refused. -/
theorem blockOpen_result {rc : ℤ} (hfree : (s.file dev).inUse = false)
    (h : (blockOpen dev).run s = (some rc, t)) : rc ≠ IO_RESOURCES_EXHAUSTED := by
  cases dev with
  | memdrv =>
    rw [(run_unique h (run_memdrvBlockOpen hfree)).1]
    decide
  | emmcdrv =>
    rw [blockOpen, emmcdrvBlockOpen, run_bind_get] at h
    simp only [hfree, Bool.false_eq_true, if_false] at h
    rw [setFile, run_bind_modify, run_ite] at h
    split at h
    · rw [run_bind_modify, run_ite] at h
      split at h
      · exact emmcdrvSelect_result h
      · rw [(run_unique h (run_pure _ _)).1]
        decide
    · exact emmcdrvSelect_result h

theorem slotsFree_of_clear (hclear : Clear s) : SlotsFree s := by
  refine ⟨hclear, fun dev t hrun => ?_⟩
  rw [ioOpen, run_bind_get, run_ite] at hrun
  split at hrun
  · rw [run_bind_modify] at hrun
    obtain ⟨rc, u, hopen, hend⟩ := run_bind_eq_some hrun
    have hrc := blockOpen_result (s := { s with entityCount := s.entityCount + 1 }) (hclear dev) hopen
    rw [run_ite] at hend
    split at hend
    · exact hrc (run_unique hend rfl).1.symm
    · exact hrc (run_unique hend rfl).1.symm
  · exact absurd (run_unique hrun (run_pure _ _)).1 (by decide)

/-- Over every sequence of calls from free slots: whenever control is back with an error or with no
file open, the slots are free again, if and only if every call closes what it opens. -/
theorem slots_released_iff {l : List (IoState × (IoCall × ℤ) × IoState)} (hs : Clear s)
    (h : Runs (IoCall.Step build authModVerifyImg) s l t) :
    (∀ x ∈ l, x.2.1.2 ≠ IO_SUCCESS ∨ x.2.2.rcar.currentFile.offset = 0 → SlotsFree x.2.2) ↔
      ∀ x ∈ l, x.2.1.1.Closes authModVerifyImg x.1 := by
  induction h with
  | nil => simp
  | @cons s t u r l h hl ih =>
    have hstep := IoCall.accounts hs h
    rw [List.forall_mem_cons, List.forall_mem_cons]
    constructor
    · rintro ⟨hfirst, hrest⟩
      have hcloses : r.1.Closes authModVerifyImg s := by
        by_cases hrc : r.2 = IO_SUCCESS
        · exact hstep.closes (hstep.success hrc).slots
        · exact hstep.closes (hfirst (.inl hrc)).clear
      exact ⟨hcloses, (ih (hstep.released hcloses).slots).mp hrest⟩
    · rintro ⟨hcloses, hrest⟩
      have hclear := (hstep.released hcloses).slots
      exact ⟨fun _ => slotsFree_of_clear hclear, (ih hclear).mpr hrest⟩

theorem slots_released_init :
    SlotsFree ((rcarDevInit emmcBuild .emmcdrv).run (newIo (countHeader 1))).2 := by
  have hfirst : ((rcarDevInit emmcBuild .emmcdrv).run (newIo (countHeader 1))).1 =
      some IO_SUCCESS := by decide +kernel
  have hidle : ((rcarDevInit emmcBuild .emmcdrv).run
      (newIo (countHeader 1))).2.rcar.currentFile.offset = 0 := by decide +kernel
  obtain ⟨t, ht⟩ : ∃ t, ((rcarDevInit emmcBuild .emmcdrv).run (newIo (countHeader 1))).2 = t :=
    ⟨_, rfl⟩
  rw [ht] at hidle ⊢
  have hstep : IoCall.Step emmcBuild (fun _ _ _ _ => 0) (newIo (countHeader 1))
      (.rcarDevInit .emmcdrv, IO_SUCCESS) t := Prod.ext hfirst ht
  refine (slots_released_iff (fun _ => rfl) (.cons hstep (.nil t))).mpr (fun x hx => ?_) _
    (.head _) (.inr hidle)
  obtain rfl := List.mem_singleton.mp hx
  exact fun _ _ => ⟨.inr (.inl rfl), .inr rfl⟩

/-- A device on which every access to the eMMC fails. -/
def deadIo : IoState :=
  { newIo (countHeader 1) with
    card := { (newIo (countHeader 1)).card with outcomes := fun _ => .failure 0 } }

/-- The initialisation fails in the open and leaves the slot taken; so does a second BL33 whose
load area is rejected. -/
theorem slots_leak :
    ((rcarDevInit emmcBuild .emmcdrv).run deadIo).1 = some IO_FAIL ∧
      ((ioOpen .emmcdrv).run ((rcarDevInit emmcBuild .emmcdrv).run deadIo).2).1 =
        some IO_RESOURCES_EXHAUSTED ∧
      ((rcarDevInit emmcBuild .emmcdrv).run (newIo (countHeader 2))).1 = some IO_SUCCESS ∧
      ((loadBl33x fun _ _ _ _ => 0).run
        ((rcarDevInit emmcBuild .emmcdrv).run (newIo (countHeader 2))).2).1 = some IO_FAIL ∧
      ((ioOpen .emmcdrv).run ((loadBl33x fun _ _ _ _ => 0).run
        ((rcarDevInit emmcBuild .emmcdrv).run (newIo (countHeader 2))).2).2).1 =
          some IO_RESOURCES_EXHAUSTED := by
  decide +kernel

end RCar.Bl2
