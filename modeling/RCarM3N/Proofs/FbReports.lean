import RCarM3N.Proofs.FbControl

/-! What the board tells the host about its locks. A line that claims a lock to be open is only sent
after a load that has succeeded, and such a load returns the stored block; `getvar` alone answers
without one. -/

namespace RCar.Fastboot

open Prog

variable (dev : Device)

/-! ## Loads that succeed -/

/-- A damaged block does not pass the check, so that a load that succeeds returns the stored one. -/
theorem load_ok_cases {b b1 : Board} {c : ControlBlock}
    (h : (fastbootLoadControlBlock dev).run b = (some (.FB_OK, c), b1)) :
    Transferred (b.io b.pos) ∧ c = (stored dev b).cleared := by
  have haccess : access.run b = (some (b.io b.pos), { b with pos := b.pos + 1 }) := rfl
  unfold fastbootLoadControlBlock at h
  rw [run_bind_of_some haccess, run_bind_get] at h
  generalize b.io b.pos = a at h
  cases hfound : a.found with
  | false =>
    rw [if_pos (by rw [hfound]; rfl)] at h
    cases congrArg Prod.fst h
  | true =>
    rw [if_neg (by rw [hfound]; decide)] at h
    cases hswitched : a.switched with
    | false =>
      rw [if_pos (by rw [hswitched]; rfl)] at h
      cases congrArg Prod.fst h
    | true =>
      rw [if_neg (by rw [hswitched]; decide)] at h
      cases hdescribed : a.described with
      | false =>
        rw [if_pos (by rw [hdescribed]; rfl)] at h
        cases congrArg Prod.fst h
      | true =>
        rw [if_neg (by rw [hdescribed]; decide)] at h
        cases hmoved : a.moved with
        | false =>
          rw [if_pos (by rw [hmoved]; rfl)] at h
          cases congrArg Prod.fst h
        | true =>
          rw [if_neg (by rw [hmoved]; decide)] at h
          cases hgarbled : a.garbled with
          | none =>
            simp only [hgarbled] at h
            split at h
            · have hc := (Prod.mk.inj (Option.some.inj (congrArg Prod.fst h))).2.symm
              exact ⟨⟨hfound, hswitched, hdescribed, hmoved, hgarbled⟩, hc⟩
            · cases congrArg Prod.fst h
          | some g =>
            simp only [hgarbled, if_neg g.property] at h
            cases congrArg Prod.fst h

theorem load_ok {b b1 : Board} {c : ControlBlock}
    (h : (fastbootLoadControlBlock dev).run b = (some (.FB_OK, c), b1)) : c = (stored dev b).cleared :=
  (load_ok_cases dev h).2

/-- The lock status, where there is one, is that of the stored block. -/
theorem status_ok {b b1 : Board} {flags : Bool × Bool}
    (h : (fastbootGetLockStatus dev).run b = (some (some flags), b1)) : flags = flagsOf (stored dev b) := by
  unfold fastbootGetLockStatus at h
  obtain ⟨⟨ret, c⟩, t, hload, h⟩ := run_bind_eq_some h
  dsimp only at h
  by_cases hret : ret = .FB_OK
  · subst hret
    obtain rfl := load_ok dev hload
    simp only [ne_eq, not_true_eq_false, if_false] at h
    exact (Option.some.inj (Option.some.inj (congrArg Prod.fst h))).symm
  · rw [if_pos hret] at h
    cases congrArg Prod.fst h

/-! ## Lines about the locks -/

/-- The lines that claim a lock to be open. -/
def claims : List CStr := [ascii "INFOunlocked:yes", ascii "INFO MMC unlocked", ascii "INFO IPL unlocked"]

/-- The line claims open what the block has locked. -/
def Lie (ctrlb : ControlBlock) (line : CStr) : Prop :=
  mmcLocked ctrlb = true ∧ (line = ascii "INFOunlocked:yes" ∨ line = ascii "INFO MMC unlocked") ∨
    iplLocked ctrlb = true ∧ line = ascii "INFO IPL unlocked"

/-- None of the claims begins so. -/
def unlike (p : CStr) : Bool := claims.all fun t => !p.isPrefixOf t

theorem not_lie_of_not_mem {ctrlb : ControlBlock} {line : CStr} (h : line ∉ claims) : ¬ Lie ctrlb line := by
  rintro (⟨-, rfl | rfl⟩ | ⟨-, rfl⟩) <;> exact h (by simp [claims])

theorem not_lie {ctrlb : ControlBlock} {p : CStr} (h : unlike p = true) (x : CStr) : ¬ Lie ctrlb (p ++ x) := by
  apply not_lie_of_not_mem
  intro hmem
  have hbegins : p.isPrefixOf (p ++ x) = true := List.isPrefixOf_iff_prefix.mpr (List.prefix_append p x)
  have hnot := List.all_eq_true.mp h _ hmem
  rw [hbegins] at hnot
  cases hnot

/-- Every new line is true of the block. -/
def Honest (ctrlb : ControlBlock) (b b' : Board) : Prop := ∀ line ∈ b'.sent, line ∈ b.sent ∨ ¬ Lie ctrlb line

instance (ctrlb : ControlBlock) : IsPreorder Board (Honest ctrlb) where
  refl _ _ h := Or.inl h
  trans _ _ _ h1 h2 _ h := (h2 _ h).elim (h1 _) Or.inr

theorem honest_of_same {ctrlb : ControlBlock} {b b' : Board} (h : b'.sent = b.sent) : Honest ctrlb b b' :=
  fun _ hl => Or.inl (h ▸ hl)

variable (ctrlb : ControlBlock)

theorem honest_frame : Frame dev (Honest ctrlb) where
  access _ := honest_of_same rfl
  misc x := by
    intro b
    apply honest_of_same
    unfold onMisc Prog.run
    dsimp only
    cases dev.lookup b.user (ascii "misc") <;> rfl
  write _ _ _ _ _ := honest_of_same rfl
  image _ _ := honest_of_same rfl

theorem lines_honest (lines : Board → List CStr) (h : ∀ b, ∀ line ∈ lines b, ¬ Lie ctrlb line) :
    Keeps (Honest ctrlb) (Prog.modify fun b => { b with sent := b.sent ++ lines b }) := by
  intro b line hl
  rcases List.mem_append.mp hl with hl | hl
  · exact Or.inl hl
  · exact Or.inr (h b line hl)

theorem sendResponse_honest {line : CStr} (h : ¬ Lie ctrlb line) : Keeps (Honest ctrlb) (sendResponse line) :=
  lines_honest ctrlb (fun _ => [line]) fun _ l hl => by rwa [List.mem_singleton.mp hl]

theorem flash_keeps {R : Board → Board → Prop} [IsPreorder Board R] (h : Frame dev R)
    (hsector : ∀ p buffer i, Keeps R (hfWriteSector p buffer i))
    (hpart : ∀ slot buffer n, Keeps R (writeBootPart slot buffer n)) (cmdParameter : CStr) :
    Keeps R (flash dev cmdParameter) := by
  have hto : ∀ t, Keeps R (flashTo dev t) := by
    intro t
    cases t with
    | whole image => exact h.image image
    | hyperFlash p srec => exact h.flashHyper p srec (hsector p)
    | partition info => exact h.flashTo (t := .partition info) trivial
    | bootloader => exact h.bootloader hpart
    | missing => exact Keeps.pure _
  unfold flash
  cases (strsep cmdParameter 58).2 with
  | none => exact Keeps.pure _
  | some name =>
    refine (getLockStatus_keeps dev h.access).bind fun status => Keeps.ite (Keeps.pure _) ?_
    refine (h.formatRefused name).bind fun _ => Keeps.ite (Keeps.pure _) ?_
    exact h.access.bind fun a => Keeps.ite (Keeps.pure _) (Keeps.ite (Keeps.pure _) (Keeps.get.bind fun b => hto _))

theorem save_honest (c : ControlBlock) : Keeps (Honest ctrlb) (fastbootSaveControlBlock dev c) := by
  refine (honest_frame dev ctrlb).access.bind fun a => Keeps.ite (Keeps.pure _) (Keeps.ite (Keeps.pure _)
    (Keeps.ite (Keeps.pure _) ?_))
  have hmark : Keeps (Honest ctrlb) (do
      Prog.modify fun b => { b with saved := c.sealed }
      return true) := fun _ => honest_of_same rfl
  have hstore : ∀ boot2 : Board → Mem,
      Keeps (Honest ctrlb) (Prog.modify fun b => { b with boot2 := boot2 b }) :=
    fun _ _ => honest_of_same rfl
  exact Keeps.ite (Keeps.bind (hstore fun b => _) fun _ => Keeps.ite (Keeps.pure _) hmark)
    (Keeps.ite (Keeps.pure _) hmark)

theorem setRollbackIndex_honest (location : ℕ) (idx : UInt64) :
    Keeps (Honest ctrlb) (fastbootSetRollbackIndex dev location idx) := by
  apply (load_keeps dev (honest_frame dev ctrlb).access).bind
  rintro ⟨ret, c⟩
  refine Keeps.ite (Keeps.pure _) ?_
  split
  · exact save_honest dev ctrlb _
  · exact Keeps.pure _

theorem flashing_honest (cmdString : CStr) : Keeps (Honest ctrlb) (fastbootCbFlashing dev cmdString) := by
  have hframe := honest_frame dev ctrlb
  have hsave : ∀ c w, Keeps (Honest ctrlb) (saveAndReset dev c w) := by
    intro c w
    refine (save_honest dev ctrlb c).bind fun ok => Keeps.ite (Keeps.pure _) (hframe.setWipeData.bind fun _ => ?_)
    cases w with
    | false => exact fun _ => honest_of_same rfl
    | true => exact fun _ => honest_of_same rfl
  have hunlock : ∀ c, Keeps (Honest ctrlb) (unlockTo dev c) := by
    intro c
    refine Keeps.bind (fun _ => honest_of_same rfl) fun _ => Keeps.ite (Keeps.pure _) ?_
    refine Keeps.bind ?_ fun _ => Keeps.ite (Keeps.pure _) (hsave c true)
    exact Keeps.get.bind fun b => Keeps.ite (Keeps.pure _) (fun _ => honest_of_same rfl)
  apply (load_keeps dev hframe.access).bind
  rintro ⟨ret, c⟩
  refine Keeps.ite (Keeps.pure _) ?_
  refine Keeps.ite (hsave _ _) (Keeps.ite (hunlock _) (Keeps.ite (hsave _ _) (Keeps.ite (hunlock _) ?_)))
  refine Keeps.ite (Keeps.bind (fun _ => honest_of_same rfl) fun _ => ?_) (Keeps.pure _)
  exact (sendResponse_honest ctrlb (not_lie (by decide) _)).bind fun _ => Keeps.pure _

/-- The end of `setenv`, with the environment that it changes. -/
def setenvEnd (key : CStr) : Option Env → Prog Board CStr
  | none => pure (fastbootResponse (ascii "FAIL") (ascii "Setting environment variable '" ++ key ++ ascii "' error"))
  | some env => do
    Prog.modify fun b => { b with env := env }
    if !(← envSave dev) then
      return fastbootResponse (ascii "FAIL") (ascii "Save environment variable '" ++ key ++ ascii "' error")
    return fastbootOkay

/-- What `setenv` keeps is what its lines, its changes of the environment and its save keep. -/
theorem oemSetenv_keeps {R : Board → Board → Prop} [IsPreorder Board R]
    (hset : ∀ f : Board → Env, Keeps R (Prog.modify fun b => { b with env := f b }))
    (hsaved : ∀ f : Board → Env, Keeps R (Prog.modify fun b => { b with savedEnv := f b })) (haccess : Keeps R access)
    (hsend : ∀ key p, p = ascii "INFOsetting env " ∨ p = ascii "INFOerase env " → Keeps R (sendResponse (p ++ key)))
    (varval : CStr) : Keeps R (oemSetenv dev varval) := by
  have hsave : Keeps R (envSave dev) := haccess.bind fun _ => (hsaved _).bind fun _ => Keeps.pure _
  refine Keeps.ite ?_ ?_
  · exact Keeps.bind (hset _) fun _ => hsave.bind fun _ => Keeps.ite (Keeps.pure _)
      (Keeps.bind (hset _) fun _ => Keeps.pure _)
  · rcases strsep varval 32 with ⟨key, value⟩
    refine Keeps.get.bind fun b => ?_
    have hrest : Keeps R (setenvEnd dev key (envSet dev key (setenvValue dev b.env value) b.env)) := by
      cases envSet dev key (setenvValue dev b.env value) b.env with
      | none => exact Keeps.pure _
      | some env => exact Keeps.bind (hset _) fun _ => hsave.bind fun _ => Keeps.ite (Keeps.pure _) (Keeps.pure _)
    exact Keeps.ite ((hsend key _ (Or.inl rfl)).bind fun _ => hrest) ((hsend key _ (Or.inr rfl)).bind fun _ => hrest)

theorem oemSetenv_honest (varval : CStr) : Keeps (Honest ctrlb) (oemSetenv dev varval) := by
  refine oemSetenv_keeps dev (fun _ _ => honest_of_same rfl) (fun _ _ => honest_of_same rfl)
    (fun _ => honest_of_same rfl) (fun key p hp => sendResponse_honest ctrlb ?_) varval
  rcases hp with rfl | rfl
  · exact not_lie (by decide) key
  · exact not_lie (by decide) key

/-! ## The lock status -/

/-- A block with the flags of the stored one. -/
def FlagsOf (b : Board) : Prop := flagsOf (stored dev b) = flagsOf ctrlb

theorem lockWord_honest {ctrlb : ControlBlock} {locked : Bool} {p : CStr} (hlocked : p ++ ascii "locked" ∉ claims)
    (hopen : locked = false → ¬ Lie ctrlb (p ++ ascii "unlocked")) : ¬ Lie ctrlb (p ++ lockWord locked) := by
  cases locked with
  | true => exact not_lie_of_not_mem hlocked
  | false => exact hopen rfl

theorem oemLockStatus_honest {b : Board} (hflags : FlagsOf dev ctrlb b) :
    Honest ctrlb b ((oemLockStatus dev).run b).2 := by
  have hload := getLockStatus_keeps dev (honest_frame dev ctrlb).access b
  unfold oemLockStatus
  rw [run_bind]
  rcases hr : (fastbootGetLockStatus dev).run b with ⟨_ | status, b1⟩ <;> rw [hr] at hload
  · exact hload
  · rcases status with _ | flags
    · exact hload
    · have hsame := (status_ok dev hr).trans hflags
      rcases flags with ⟨mmc, ipl⟩
      obtain ⟨rfl, rfl⟩ := Prod.mk.inj hsame
      refine trans_of (Honest ctrlb) hload ?_
      refine Keeps.bind (sendResponse_honest ctrlb ?_) (fun _ => Keeps.bind (sendResponse_honest ctrlb ?_)
        fun _ => Keeps.pure _) b1
      · refine lockWord_honest (by decide) fun hopen => ?_
        rintro (⟨-, h | h⟩ | ⟨h, -⟩)
        · exact absurd h (by decide)
        · exact absurd h (by decide)
        · rw [hopen] at h
          cases h
      · refine lockWord_honest (by decide) fun hopen => ?_
        rintro (⟨h, -⟩ | ⟨-, h⟩)
        · rw [hopen] at h
          cases h
        · exact absurd h (by decide)

theorem oem_honest {b : Board} (hflags : FlagsOf dev ctrlb b) (cmdString : CStr) :
    Honest ctrlb b ((fastbootCbOem dev cmdString).run b).2 := by
  have hframe := honest_frame dev ctrlb
  have hconst : ∀ line, line ∉ claims → Keeps (Honest ctrlb) (sendResponse line) := fun line h =>
    sendResponse_honest ctrlb (not_lie_of_not_mem h)
  unfold fastbootCbOem
  rcases oemArguments dev cmdString with ⟨cmd, cmdarg⟩
  dsimp only
  by_cases hhelp : cmd = ascii "help"
  · rw [if_pos hhelp]
    exact (hconst _ (by decide)).bind (fun _ => (hconst _ (by decide)).bind fun _ => (hconst _ (by decide)).bind fun _ =>
      (hconst _ (by decide)).bind fun _ => (hconst _ (by decide)).bind fun _ => (hconst _ (by decide)).bind fun _ =>
        Keeps.pure _) b
  rw [if_neg hhelp]
  by_cases hstatus : cmd = ascii "lock_status"
  · rw [if_pos hstatus]
    exact oemLockStatus_honest dev ctrlb hflags
  rw [if_neg hstatus]
  refine (getLockStatus_keeps dev hframe.access).bind (fun status => ?_) b
  cases status.getD (false, false) with
  | mk mmcLocked iplLocked =>
    refine Keeps.ite (Keeps.ite (Keeps.pure _) ?_) (Keeps.ite ?_ (Keeps.ite ?_ (Keeps.pure _)))
    · exact hframe.access.bind fun _ => Keeps.ite (Keeps.pure _) (Keeps.ite (Keeps.pure _) (hframe.image _))
    · cases cmdarg with
      | none => exact Keeps.pure _
      | some varval => exact oemSetenv_honest dev ctrlb varval
    · refine hframe.access.bind fun a => Keeps.ite (Keeps.pure _) ?_
      have herase : ∀ f : Board → Mem, Keeps (Honest ctrlb) (Prog.modify fun b => { b with hyper := f b }) :=
        fun _ _ => honest_of_same rfl
      exact Keeps.bind (herase fun b => _) fun _ => Keeps.ite (Keeps.pure _) (Keeps.pure _)

/-! ## Variables -/

/-- What the entries of the table other than `unlocked` leave for the load. -/
structure Steady (b b' : Board) : Prop where
  pos : b'.pos = b.pos
  io : b'.io = b.io
  boot2 : b'.boot2 = b.boot2
  honest : Honest ctrlb b b'

instance : IsPreorder Board (Steady ctrlb) where
  refl b := ⟨rfl, rfl, rfl, refl_of (Honest ctrlb) b⟩
  trans _ _ _ h1 h2 := ⟨h2.pos.trans h1.pos, h2.io.trans h1.io, h2.boot2.trans h1.boot2,
    trans_of (Honest ctrlb) h1.honest h2.honest⟩

variable (vars : Variables)

theorem callback_steady {entry : CStr} (hentry : entry ≠ ascii "unlocked") (hline : unlike (ascii "INFO" ++ entry) = true)
    (val : CStr) : Keeps (Steady ctrlb) (callback dev vars entry val) := by
  unfold callback
  rw [if_neg hentry]
  have hmisc : Keeps (Steady ctrlb) (onMisc dev (vars.avb entry val)) := by
    intro b
    refine ⟨?_, ((rest_frame dev).misc _ b).io, ((rest_frame dev).misc _ b).boot2, (honest_frame dev ctrlb).misc _ b⟩
    unfold onMisc Prog.run
    dsimp only
    cases dev.lookup b.user (ascii "misc") <;> rfl
  refine hmisc.bind fun _ => Keeps.get.bind fun s => Keeps.bind (fun b => ⟨rfl, rfl, rfl, ?_⟩) fun _ => Keeps.pure _
  refine lines_honest ctrlb (fun b => (vars.lines entry val b).map _) (fun b line hl => ?_) b
  obtain ⟨x, -, rfl⟩ := List.mem_map.mp hl
  exact not_lie hline x

theorem listVariable_steady {entry : CStr} (hentry : entry ≠ ascii "unlocked")
    (hline : unlike (ascii "INFO" ++ entry) = true) : Keeps (Steady ctrlb) (listVariable dev vars entry) := by
  refine (callback_steady dev ctrlb vars hentry hline _).bind fun val => ?_
  cases val with
  | none => exact Keeps.pure _
  | some val =>
    refine fun b => ⟨rfl, rfl, rfl, sendResponse_honest ctrlb ?_ b⟩
    rw [List.append_assoc]
    exact not_lie hline _

/-- Where the block may be locked, the load that `unlocked` makes goes through. -/
def ReadWhenLocked (b : Board) : Prop := mmcLocked ctrlb = true → Readable dev b ∧ FlagsOf dev ctrlb b

theorem cbUnlocked_no {b b' : Board} {val : CStr} (hread : ReadWhenLocked dev ctrlb b) (hlocked : mmcLocked ctrlb = true)
    (h : (cbUnlocked dev).run b = (some val, b')) : val = ascii "no" := by
  obtain ⟨hr, hflags⟩ := hread hlocked
  unfold cbUnlocked at h
  rw [run_bind_of_some (getLockStatus_readable dev hr), hflags] at h
  simp only [flagsOf, hlocked, if_true] at h
  exact (Option.some.inj (congrArg Prod.fst h)).symm

theorem listUnlocked_honest {b : Board} (hread : ReadWhenLocked dev ctrlb b) :
    Honest ctrlb b ((listVariable dev vars (ascii "unlocked")).run b).2 := by
  have hload : Keeps (Honest ctrlb) (cbUnlocked dev) := by
    refine (getLockStatus_keeps dev (honest_frame dev ctrlb).access).bind fun status => ?_
    rcases status with _ | ⟨mmc, ipl⟩ <;> exact Keeps.pure _
  have hb := hload b
  unfold listVariable callback
  rw [if_pos rfl, run_bind, run_bind]
  rcases hr : (cbUnlocked dev).run b with ⟨_ | val, b'⟩ <;> rw [hr] at hb
  · exact hb
  · refine trans_of (Honest ctrlb) hb (sendResponse_honest ctrlb ?_ b')
    rintro (⟨hlocked, h | h⟩ | ⟨-, h⟩)
    · obtain rfl := cbUnlocked_no dev ctrlb hread hlocked hr
      exact absurd h (by decide)
    -- the other claims go on with a blank
    all_goals
      have hfive : ascii "INFOu" = _ := congrArg (List.take 5) h
      exact absurd hfive (by decide)

theorem varTable_unlike : ∀ entry ∈ varTable, entry ≠ ascii "unlocked" → unlike (ascii "INFO" ++ entry) = true := by
  decide

theorem ReadWhenLocked.steady {b b' : Board} (h : ReadWhenLocked dev ctrlb b) (hs : Steady ctrlb b b') :
    ReadWhenLocked dev ctrlb b' := by
  intro hlocked
  obtain ⟨⟨htransferred, hintact⟩, hflags⟩ := h hlocked
  have hstored : stored dev b' = stored dev b := by rw [stored, stored, hs.boot2]
  refine ⟨⟨?_, ?_⟩, ?_⟩
  · rw [hs.io, hs.pos]
    exact htransferred
  · rw [hstored]
    exact hintact
  · rw [FlagsOf, hstored]
    exact hflags

/-- The variable that `getvar` is asked for. -/
def getvarArgument (cmdParameter : CStr) : CStr := (strsep cmdParameter 58).2.getD dev.nullText

/-- Listing some entries after others. -/
theorem listing_append (xs ys : List CStr) :
    Prog.run ((xs ++ ys).foldlM (fun _ entry => listVariable dev vars entry) ()) =
      Prog.run (do
        xs.foldlM (fun _ entry => listVariable dev vars entry) ()
        ys.foldlM (fun _ entry => listVariable dev vars entry) ()) := by
  induction xs with
  | nil => rfl
  | cons x xs ih =>
    funext b
    rw [List.cons_append, List.foldlM_cons, List.foldlM_cons, run_bind, run_bind, run_bind]
    rcases (listVariable dev vars x).run b with ⟨_ | u, b'⟩
    · rfl
    · dsimp only
      rw [ih, run_bind]

/-- The lines of `all`: only the entry `unlocked` loads the block. -/
theorem listAll_honest {b : Board} (hread : ReadWhenLocked dev ctrlb b) :
    Honest ctrlb b ((varTable.foldlM (fun _ entry => listVariable dev vars entry) ()).run b).2 := by
  have hsteady : ∀ l : List CStr, (∀ entry ∈ l, entry ∈ varTable ∧ entry ≠ ascii "unlocked") →
      Keeps (Steady ctrlb) (l.foldlM (fun _ entry => listVariable dev vars entry) ()) := by
    intro l
    induction l with
    | nil => exact fun _ => Keeps.pure _
    | cons entry l ih =>
      intro hl
      obtain ⟨hmem, hne⟩ := hl entry List.mem_cons_self
      rw [List.foldlM_cons]
      exact (listVariable_steady dev ctrlb vars hne (varTable_unlike entry hmem hne)).bind fun _ =>
        ih fun e he => hl e (List.mem_cons_of_mem _ he)
  have hsplit : varTable = varTable.take 9 ++ ascii "unlocked" :: varTable.drop 10 := by decide
  rw [hsplit, listing_append, run_bind]
  have hbefore := hsteady (varTable.take 9) (by decide) b
  rcases hr : ((varTable.take 9).foldlM (fun _ entry => listVariable dev vars entry) ()).run b with ⟨_ | u, b1⟩ <;>
    rw [hr] at hbefore
  · exact hbefore.honest
  · refine trans_of (Honest ctrlb) hbefore.honest ?_
    dsimp only
    rw [List.foldlM_cons, run_bind]
    have hunlocked := listUnlocked_honest dev ctrlb vars (hread.steady dev ctrlb hbefore)
    rcases hr1 : (listVariable dev vars (ascii "unlocked")).run b1 with ⟨_ | u, b2⟩ <;> rw [hr1] at hunlocked
    · exact hunlocked
    · exact trans_of (Honest ctrlb) hunlocked (hsteady (varTable.drop 10) (by decide) b2).honest

theorem getvar_honest {b : Board} {cmdParameter : CStr}
    (hread : getvarArgument dev cmdParameter = ascii "all" → ReadWhenLocked dev ctrlb b) :
    Honest ctrlb b ((getvar dev vars cmdParameter).run b).2 := by
  change Honest ctrlb b ((fastbootCbGetvar dev vars (getvarArgument dev cmdParameter)).run b).2
  unfold fastbootCbGetvar
  by_cases hall : getvarArgument dev cmdParameter = ascii "all"
  · rw [if_pos hall, run_bind]
    have hlines := listAll_honest dev ctrlb vars (hread hall)
    rcases hr : (varTable.foldlM (fun _ entry => listVariable dev vars entry) ()).run b with ⟨_ | u, b1⟩ <;>
      rw [hr] at hlines <;> exact hlines
  · rw [if_neg hall]
    refine Keeps.bind (R := Honest ctrlb) ?_ (fun found => Keeps.get.bind fun b => ?_) b
    · cases hfind : varTable.find? (entryMatches (getvarArgument dev cmdParameter)) with
      | none => exact Keeps.pure _
      | some entry =>
        dsimp only
        by_cases hentry : entry = ascii "unlocked"
        · unfold callback cbUnlocked
          rw [if_pos hentry]
          refine Keeps.bind ((getLockStatus_keeps dev (honest_frame dev ctrlb).access).bind fun status => ?_) fun _ =>
            Keeps.pure _
          rcases status with _ | ⟨mmc, ipl⟩ <;> exact Keeps.pure _
        · have hline := varTable_unlike entry (List.mem_of_find?_eq_some hfind) hentry
          exact (callback_steady dev ctrlb vars hentry hline _).mono fun _ _ h => h.honest
    · cases found with
      | some val => exact Keeps.pure _
      | none =>
        dsimp only
        split <;> exact Keeps.pure _

/-- The answer to `getvar:unlocked` where the load goes through. -/
theorem getvar_unlocked {b : Board} {cmdParameter : CStr} (hread : ReadWhenLocked dev ctrlb b)
    (hlocked : mmcLocked ctrlb = true) (hvar : getvarArgument dev cmdParameter = ascii "unlocked") {response : CStr}
    (h : ((getvar dev vars cmdParameter).run b).1 = some response) : response = ascii "OKAYno" := by
  change ((fastbootCbGetvar dev vars (getvarArgument dev cmdParameter)).run b).1 = some response at h
  have hfind : varTable.find? (entryMatches (ascii "unlocked")) = some (ascii "unlocked") := by decide
  unfold fastbootCbGetvar at h
  rw [hvar, if_neg (by decide)] at h
  simp only [hfind] at h
  unfold callback at h
  rw [if_pos rfl, run_bind, run_bind] at h
  rcases hr : (cbUnlocked dev).run b with ⟨_ | val, b'⟩ <;> rw [hr] at h
  · cases h
  · obtain rfl := cbUnlocked_no dev ctrlb hread hlocked hr
    exact (Option.some.inj h).symm

/-- No command sends a line that claims open what is locked, if `getvar:all` can read the block. -/
theorem dispatch_honest {b : Board} (hflags : FlagsOf dev ctrlb b) {c : Command} {cmdString : CStr}
    (hread : c = .GETVAR → getvarArgument dev cmdString = ascii "all" → ReadWhenLocked dev ctrlb b) :
    Honest ctrlb b ((dispatch dev vars cmdString c).run b).2 := by
  have hframe := honest_frame dev ctrlb
  have hreset : Keeps (Honest ctrlb) setReset := fun _ => honest_of_same rfl
  cases c with
  | GETVAR => exact getvar_honest dev ctrlb vars (hread rfl)
  | DOWNLOAD => exact honest_of_same rfl
  | FLASHING => exact flashing_honest dev ctrlb cmdString b
  | FLASH =>
    have hhyper : ∀ f : Board → Mem, Keeps (Honest ctrlb) (Prog.modify fun b => { b with hyper := f b }) :=
      fun _ _ => honest_of_same rfl
    refine flash_keeps dev hframe (fun _ _ _ => hfWriteSector_keeps hframe.access hhyper) (fun slot buffer n s => ?_)
      cmdString b
    apply honest_of_same
    by_cases hs : slot = 0 <;> simp [writeBootPart, Prog.modify, Prog.run, hs]
  | ERASE => exact hframe.erase cmdString b
  | BOOT => exact honest_of_same rfl
  | CONTINUE => exact honest_of_same rfl
  | REBOOT =>
    have hflag := hframe.setBootloaderMessage
    exact Keeps.ite ((hflag _).bind fun _ => Keeps.ite (Keeps.pure _) hreset)
      (Keeps.ite ((hflag _).bind fun _ => Keeps.ite (Keeps.pure _) hreset) hreset) b
  | REBOOT_BOOTLOADER =>
    exact (hframe.setBootloaderMessage _).bind (fun _ => Keeps.ite (Keeps.pure _) (Keeps.pure _)) b
  | SET_ACTIVE =>
    change Honest ctrlb b ((cbSetActiveBootSlot dev cmdString).run b).2
    unfold cbSetActiveBootSlot
    cases (strsep cmdString 58).2 with
    | none => exact honest_of_same rfl
    | some val =>
      exact Keeps.ite ((hframe.misc _).bind fun _ => Keeps.ite (Keeps.pure _) (Keeps.pure _)) (Keeps.pure _) b
  | OEM => exact oem_honest dev ctrlb hflags cmdString

end RCar.Fastboot
