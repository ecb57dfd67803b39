import RCarM3N.Proofs.FbLocks

/-! What each command can do to the control block: most of them nothing, `flashing` and an update of a
rollback index save an edited block, and a save leaves either the block before or the new one. -/

namespace RCar.Fastboot

open Prog

variable (dev : Device)

/-! ## Loads and saves -/

/-- A load uses up one access and changes nothing else. -/
theorem load_run (b : Board) :
    ∃ r, (fastbootLoadControlBlock dev).run b = (some r, { b with pos := b.pos + 1 }) := by
  have haccess : access.run b = (some (b.io b.pos), { b with pos := b.pos + 1 }) := rfl
  have hget : ∀ s : Board, Prog.get.run s = (some s, s) := fun _ => rfl
  unfold fastbootLoadControlBlock
  rw [run_bind_of_some haccess, run_bind_of_some (hget _)]
  generalize b.io b.pos = a
  cases hfound : a.found with
  | false => exact ⟨_, rfl⟩
  | true =>
    cases hswitched : a.switched with
    | false => exact ⟨_, rfl⟩
    | true =>
      cases hdescribed : a.described with
      | false => exact ⟨_, rfl⟩
      | true =>
        cases hmoved : a.moved with
        | false => exact ⟨_, rfl⟩
        | true =>
          simp only [Bool.not_true, Bool.false_eq_true, if_false]
          rw [run_ite]
          split <;> split <;> exact ⟨_, rfl⟩

/-- A save by this access stores its block, whether it then reports success or not. -/
structure Reaches (a : Outcome) : Prop where
  found : a.found = true
  switched : a.switched = true
  described : a.described = true
  moved : a.moved = true ∨ 0 < a.reached

/-- A block has been stored by the access at a position; the mark follows it if the save has
reported success. -/
structure Saves (b b' : Board) (c : ControlBlock) (p : ℕ) : Prop where
  reaches : Reaches (b.io p)
  stored : stored dev b' = c.sealed
  saved : b'.saved = c.sealed ∨ b'.saved = b.saved ∧ (b.io p).moved = false
  env : b'.env = b.env
  savedEnv : b'.savedEnv = b.savedEnv
  io : b'.io = b.io
  complete : b'.complete = b.complete ∨ b'.complete = .reset

/-- The stored bytes of a block are read back as the block. -/
theorem stored_copy (b : Board) (heap : Mem) (c : ControlBlock) :
    ControlBlock.ofMem (b.boot2.copy (cbOffset dev) (blockBuffer heap c) 0 CONFIG_FASTBOOT_CB_SIZE) (cbOffset dev) = c := by
  apply ControlBlock.ofMem_of_bytes
  intro i hi
  have hsize : i < CONFIG_FASTBOOT_CB_SIZE := lt_of_lt_of_le hi (by decide)
  rw [Mem.copy_add _ _ _ _ _ _ hsize, Nat.zero_add, blockBuffer,
    Mem.copy_in _ _ _ _ _ _ (Nat.zero_le _) (by omega), Nat.zero_add, Nat.sub_zero]
  rfl

/-- Boot partition 2 after a block has been stored. -/
def storedAt (b : Board) (c : ControlBlock) : Mem :=
  b.boot2.copy (cbOffset dev) (blockBuffer (b.io b.pos).heap c.sealed) 0 CONFIG_FASTBOOT_CB_SIZE

/-- The outcomes of a save. -/
theorem save_run (c : ControlBlock) (b : Board) : (fastbootSaveControlBlock dev c).run b =
    let a := b.io b.pos
    if a.found = true ∧ a.switched = true ∧ a.described = true then
      if a.moved = true then (some true, { b with pos := b.pos + 1, boot2 := storedAt dev b c, saved := c.sealed })
      else if 0 < a.reached then (some false, { b with pos := b.pos + 1, boot2 := storedAt dev b c })
      else (some false, { b with pos := b.pos + 1 })
    else (some false, { b with pos := b.pos + 1 }) := by
  have haccess : access.run b = (some (b.io b.pos), { b with pos := b.pos + 1 }) := rfl
  unfold fastbootSaveControlBlock storedAt
  rw [run_bind_of_some haccess]
  generalize b.io b.pos = a
  -- a step by `rfl` alone would have the kernel compare the two programs
  simp -implicitDefEqProofs only [run_ite, run_bind_modify, run_pure]
  obtain ⟨found, switched, described, moved, reached⟩ := a
  cases found <;> cases switched <;> cases described <;> cases moved <;> simp

theorem saves_of_stored {b : Board} {c saved : ControlBlock} {mem : Mem} (hreaches : Reaches (b.io b.pos))
    (hmem : ControlBlock.ofMem mem (cbOffset dev) = c.sealed)
    (hsaved : saved = c.sealed ∨ saved = b.saved ∧ (b.io b.pos).moved = false) :
    Saves dev b { b with pos := b.pos + 1, boot2 := mem, saved := saved } c b.pos :=
  ⟨hreaches, hmem, hsaved, rfl, rfl, rfl, Or.inl rfl⟩

/-- A save ends with nothing stored and a failure, or with the new block. -/
theorem save_cases (c : ControlBlock) (b : Board) :
    let r := (fastbootSaveControlBlock dev c).run b
    (r.1 = some false ∧ LockKept dev b r.2) ∨ Saves dev b r.2 c b.pos := by
  have hidle : LockKept dev b { b with pos := b.pos + 1 } := (lockKept_frame dev).access b
  have hstored : ControlBlock.ofMem (storedAt dev b c) (cbOffset dev) = c.sealed := stored_copy dev b _ c.sealed
  dsimp only
  rw [save_run]
  dsimp only
  split_ifs with hready hmoved hreached
  · right
    exact saves_of_stored dev ⟨hready.1, hready.2.1, hready.2.2, Or.inl hmoved⟩ hstored (Or.inl rfl)
  · right
    exact saves_of_stored dev ⟨hready.1, hready.2.1, hready.2.2, Or.inr hreached⟩ hstored
      (Or.inr ⟨rfl, Bool.eq_false_iff.mpr hmoved⟩)
  · exact Or.inl ⟨rfl, hidle⟩
  · exact Or.inl ⟨rfl, hidle⟩

theorem Saves.lockKept {b b1 b2 : Board} {c : ControlBlock} {p : ℕ} (h : Saves dev b b1 c p)
    (hk : LockKept dev b1 b2) : Saves dev b b2 c p := by
  refine ⟨h.reaches, hk.stored_eq.trans h.stored, ?_, hk.env.trans h.env, hk.savedEnv.trans h.savedEnv, hk.io.trans h.io, ?_⟩
  · rw [hk.saved]
    exact h.saved
  · rcases hk.complete with hc | hc
    · rw [hc]
      exact h.complete
    · exact Or.inr hc

theorem LockKept.saves {b b1 b2 : Board} {c : ControlBlock} {p : ℕ} (hk : LockKept dev b b1)
    (h : Saves dev b1 b2 c p) : Saves dev b b2 c p := by
  refine ⟨hk.io ▸ h.reaches, h.stored, ?_, h.env.trans hk.env, h.savedEnv.trans hk.savedEnv, h.io.trans hk.io, ?_⟩
  · rw [← hk.saved, ← hk.io]
    exact h.saved
  · rcases h.complete with hc | hc
    · rw [hc]
      exact hk.complete
    · exact Or.inr hc

/-- What follows a save leaves the control block alone. -/
theorem saveAndReset_cases (c : ControlBlock) (wipeRam : Bool) (b : Board) :
    let b' := ((saveAndReset dev c wipeRam).run b).2
    LockKept dev b b' ∨ Saves dev b b' c b.pos := by
  intro b'
  have hrest : ∀ ok : Bool, Keeps (LockKept dev) (do
      if !ok then return fastbootFail (ascii "save control block failed")
      let _ ← fastbootSetWipeData dev
      if wipeRam then fastbootWipeRam
      Prog.modify fun b => { b with complete := .reset }
      return fastbootOkay) := by
    intro ok
    refine Keeps.ite (Keeps.pure _) ((lockKept_frame dev).setWipeData.bind fun _ => ?_)
    have hreset : Keeps (LockKept dev) (do
        Prog.modify fun b => { b with complete := .reset }
        return fastbootOkay) :=
      fun _ => ⟨fun _ _ => rfl, rfl, rfl, rfl, rfl, Or.inr rfl⟩
    cases wipeRam with
    | false => exact hreset
    | true => exact Keeps.bind (fun _ => ⟨fun _ _ => rfl, rfl, rfl, rfl, rfl, Or.inl rfl⟩) fun _ => hreset
  have hb' : b' = ((fastbootSaveControlBlock dev c >>= fun ok => do
      if !ok then return fastbootFail (ascii "save control block failed")
      let _ ← fastbootSetWipeData dev
      if wipeRam then fastbootWipeRam
      Prog.modify fun b => { b with complete := .reset }
      return fastbootOkay).run b).2 := rfl
  rw [hb', run_bind]
  have hsave := save_cases dev c b
  dsimp only at hsave
  rcases hr : (fastbootSaveControlBlock dev c).run b with ⟨_ | ok, b1⟩ <;> rw [hr] at hsave
  · rcases hsave with ⟨h, -⟩ | h
    · cases h
    · exact Or.inr h
  · rcases hsave with ⟨-, h⟩ | h
    · exact Or.inl (trans_of (LockKept dev) h (hrest ok b1))
    · exact Or.inr (h.lockKept dev (hrest ok b1))

/-! ## Flashing commands -/

/-- The block that the command would save in place of a block. -/
def lockEdit (cmd : CStr) (c : ControlBlock) : Option ControlBlock :=
  if cmd = ascii "lock" then some { c with mmcLock := FASTBOOT_MAGIC_LOCKED }
  else if cmd = ascii "unlock" then some { c with mmcLock := FASTBOOT_MAGIC_UNLOCKED }
  else if cmd = ascii "lock_critical" then some { c with iplLock := FASTBOOT_MAGIC_LOCKED }
  else if cmd = ascii "unlock_critical" then some { c with iplLock := FASTBOOT_MAGIC_UNLOCKED }
  else none

def Unlocks (cmd : CStr) : Prop := cmd = ascii "unlock" ∨ cmd = ascii "unlock_critical"

instance (cmd : CStr) : Decidable (Unlocks cmd) := inferInstanceAs (Decidable (_ ∨ _))

/-- An unlock is allowed, and confirmed by the environment or by the pin. -/
def Authorised (b : Board) (cmd : CStr) : Prop :=
  Unlocks cmd → (b.io (b.pos + 1)).ability = true ∧
    (b.env (ascii "confirm_user_unlock") = some (ascii "1") ∨ (b.io (b.pos + 2)).pressed = true)

/-- The access at which the command saves its block. -/
def savePos (b : Board) (cmd : CStr) : ℕ :=
  if Unlocks cmd then
    if b.env (ascii "confirm_user_unlock") = some (ascii "1") then b.pos + 2 else b.pos + 3
  else b.pos + 1

theorem unlockTo_cases (c : ControlBlock) (b : Board) :
    let b' := ((unlockTo dev c).run b).2
    LockKept dev b b' ∨ ((b.io b.pos).ability = true ∧
      (b.env (ascii "confirm_user_unlock") = some (ascii "1") ∨ (b.io (b.pos + 1)).pressed = true) ∧
      Saves dev b b' c (if b.env (ascii "confirm_user_unlock") = some (ascii "1") then b.pos + 1 else b.pos + 2)) := by
  intro b'
  let b1 : Board := { b with pos := b.pos + 1 }
  let b2 : Board := { b with pos := b.pos + 2 }
  have hb1 : LockKept dev b b1 := ⟨fun _ _ => rfl, rfl, rfl, rfl, rfl, Or.inl rfl⟩
  have hb2 : LockKept dev b b2 := ⟨fun _ _ => rfl, rfl, rfl, rfl, rfl, Or.inl rfl⟩
  have hability : fastbootGetUnlockAbility.run b = (some (b.io b.pos).ability, b1) := rfl
  have hb' : b' = ((unlockTo dev c).run b).2 := rfl
  unfold unlockTo at hb'
  rw [run_bind_of_some hability] at hb'
  cases hallowed : (b.io b.pos).ability with
  | false =>
    rw [hallowed, if_pos (by rfl)] at hb'
    rw [hb']
    exact Or.inl hb1
  | true =>
    rw [hallowed, if_neg (by decide)] at hb'
    by_cases henv : b.env (ascii "confirm_user_unlock") = some (ascii "1")
    · have hconfirm : isUserConfirmed.run b1 = (some true, b1) := by
        unfold isUserConfirmed
        rw [run_bind_get, if_pos henv]
        rfl
      rw [run_bind_of_some hconfirm, if_neg (by decide)] at hb'
      rw [if_pos henv, hb']
      rcases saveAndReset_cases dev c true b1 with h | h
      · exact Or.inl (trans_of (LockKept dev) hb1 h)
      · exact Or.inr ⟨rfl, Or.inl henv, hb1.saves dev h⟩
    · have hconfirm : isUserConfirmed.run b1 = (some (b.io (b.pos + 1)).pressed, b2) := by
        unfold isUserConfirmed
        rw [run_bind_get, if_neg henv]
        rfl
      rw [run_bind_of_some hconfirm] at hb'
      rw [if_neg henv]
      cases hpressed : (b.io (b.pos + 1)).pressed with
      | false =>
        rw [hpressed, if_pos (by rfl)] at hb'
        rw [hb']
        exact Or.inl hb2
      | true =>
        rw [hpressed, if_neg (by decide)] at hb'
        rw [hb']
        rcases saveAndReset_cases dev c true b2 with h | h
        · exact Or.inl (trans_of (LockKept dev) hb2 h)
        · exact Or.inr ⟨rfl, Or.inr rfl, hb2.saves dev h⟩

theorem flashingCommand_cases (cmd : CStr) (c : ControlBlock) {b b1 : Board} (hb1 : b1 = { b with pos := b.pos + 1 }) :
    let b' := ((flashingCommand dev cmd c).run b1).2
    LockKept dev b b' ∨
      ∃ c', lockEdit cmd c = some c' ∧ Authorised b cmd ∧ Saves dev b b' c' (savePos b cmd) := by
  intro b'
  have hkept : LockKept dev b b1 := by
    rw [hb1]
    exact ⟨fun _ _ => rfl, rfl, rfl, rfl, rfl, Or.inl rfl⟩
  have hb' : b' = ((flashingCommand dev cmd c).run b1).2 := rfl
  unfold flashingCommand at hb'
  -- a lock is saved by the next access, with nothing asked
  have hlock : ∀ c' : ControlBlock, b' = ((saveAndReset dev c' false).run b1).2 → lockEdit cmd c = some c' →
      ¬ Unlocks cmd → LockKept dev b b' ∨
        ∃ c', lockEdit cmd c = some c' ∧ Authorised b cmd ∧ Saves dev b b' c' (savePos b cmd) := by
    intro c' hrun hedit hno
    rw [hrun]
    rcases saveAndReset_cases dev c' false b1 with h | h
    · exact Or.inl (trans_of (LockKept dev) hkept h)
    · refine Or.inr ⟨c', hedit, fun hun => absurd hun hno, ?_⟩
      have hpos : savePos b cmd = b1.pos := by
        rw [savePos, if_neg hno, hb1]
      rw [hpos]
      exact hkept.saves dev h
  have hunlock : ∀ c' : ControlBlock, b' = ((unlockTo dev c').run b1).2 → lockEdit cmd c = some c' →
      Unlocks cmd → LockKept dev b b' ∨
        ∃ c', lockEdit cmd c = some c' ∧ Authorised b cmd ∧ Saves dev b b' c' (savePos b cmd) := by
    intro c' hrun hedit hun
    rw [hrun]
    rcases unlockTo_cases dev c' b1 with h | ⟨hability, hconfirm, h⟩
    · exact Or.inl (trans_of (LockKept dev) hkept h)
    · refine Or.inr ⟨c', hedit, ?_, ?_⟩
      · rw [hb1] at hability hconfirm
        exact fun _ => ⟨hability, hconfirm⟩
      · rw [savePos, if_pos hun]
        have h' := hkept.saves dev h
        rw [hb1] at h'
        rw [hb1]
        exact h'
  by_cases h1 : cmd = ascii "lock"
  · rw [if_pos h1] at hb'
    exact hlock _ hb' (by rw [lockEdit, if_pos h1]) (by rw [h1]; decide)
  rw [if_neg h1] at hb'
  by_cases h2 : cmd = ascii "unlock"
  · rw [if_pos h2] at hb'
    exact hunlock _ hb' (by rw [lockEdit, if_neg h1, if_pos h2]) (Or.inl h2)
  rw [if_neg h2] at hb'
  by_cases h3 : cmd = ascii "lock_critical"
  · rw [if_pos h3] at hb'
    exact hlock _ hb' (by rw [lockEdit, if_neg h1, if_neg h2, if_pos h3]) (by rw [h3]; decide)
  rw [if_neg h3] at hb'
  by_cases h4 : cmd = ascii "unlock_critical"
  · rw [if_pos h4] at hb'
    exact hunlock _ hb' (by rw [lockEdit, if_neg h1, if_neg h2, if_neg h3, if_pos h4]) (Or.inr h4)
  rw [if_neg h4] at hb'
  left
  rw [hb']
  refine trans_of (LockKept dev) hkept ?_
  refine Keeps.ite (R := LockKept dev) ?_ (Keeps.pure _) b1
  refine Keeps.bind (fun _ => ⟨fun _ _ => rfl, rfl, rfl, rfl, rfl, Or.inl rfl⟩) fun _ => ?_
  exact Keeps.bind (fun _ => ⟨fun _ _ => rfl, rfl, rfl, rfl, rfl, Or.inl rfl⟩) fun _ => Keeps.pure _

/-- All that `flashing` can do to the control block: nothing, or a save of the block that it has loaded
and edited. -/
theorem flashing_cases (cmdString : CStr) (b : Board) :
    let b' := ((fastbootCbFlashing dev cmdString).run b).2
    let cmd := flashingArgument dev cmdString
    LockKept dev b b' ∨
      ∃ ret ctrlb b1 c', (fastbootLoadControlBlock dev).run b = (some (ret, ctrlb), b1) ∧ ret ≠ .FB_ERR_GENERIC ∧
        lockEdit cmd (blockAfterLoad ret ctrlb) = some c' ∧ Authorised b cmd ∧ Saves dev b b' c' (savePos b cmd) := by
  intro b' cmd
  obtain ⟨⟨ret, ctrlb⟩, hload⟩ := load_run dev b
  have hb' : b' = ((fastbootCbFlashing dev cmdString).run b).2 := rfl
  unfold fastbootCbFlashing at hb'
  rw [run_bind_of_some hload] at hb'
  dsimp only at hb'
  by_cases hgeneric : ret = .FB_ERR_GENERIC
  · rw [if_pos hgeneric] at hb'
    rw [hb']
    exact Or.inl ⟨fun _ _ => rfl, rfl, rfl, rfl, rfl, Or.inl rfl⟩
  · rw [if_neg hgeneric] at hb'
    rcases flashingCommand_cases dev cmd (blockAfterLoad ret ctrlb) (b := b) rfl with h | ⟨c', hedit, hauth, h⟩
    · left
      rw [hb']
      exact h
    · refine Or.inr ⟨ret, ctrlb, _, c', hload, hgeneric, hedit, hauth, ?_⟩
      rw [hb']
      exact h

/-- An update of a rollback index does nothing, or saves the loaded block with the counter set. -/
theorem setRollbackIndex_cases (location : ℕ) (idx : UInt64) (b : Board) :
    let b' := ((fastbootSetRollbackIndex dev location idx).run b).2
    LockKept dev b b' ∨
      ∃ ctrlb b1, ∃ k : Fin MAX_ROLLBACK_LOCATIONS, (fastbootLoadControlBlock dev).run b = (some (.FB_OK, ctrlb), b1) ∧ (k : ℕ) = location ∧
        Saves dev b b' { ctrlb with rollbackCnt := Function.update ctrlb.rollbackCnt k idx } (b.pos + 1) := by
  intro b'
  obtain ⟨⟨ret, ctrlb⟩, hload⟩ := load_run dev b
  have hkept : LockKept dev b { b with pos := b.pos + 1 } := ⟨fun _ _ => rfl, rfl, rfl, rfl, rfl, Or.inl rfl⟩
  have hb' : b' = ((fastbootSetRollbackIndex dev location idx).run b).2 := rfl
  unfold fastbootSetRollbackIndex at hb'
  rw [run_bind_of_some hload] at hb'
  dsimp only at hb'
  by_cases hret : ret = .FB_OK
  · subst hret
    by_cases hlocation : location < MAX_ROLLBACK_LOCATIONS
    · simp only [ne_eq, not_true_eq_false, if_false, dif_pos hlocation] at hb'
      let c : ControlBlock :=
        { ctrlb with rollbackCnt := Function.update ctrlb.rollbackCnt ⟨location, hlocation⟩ idx }
      have hsave := save_cases dev c { b with pos := b.pos + 1 }
      rw [hb']
      rcases hsave with ⟨-, h⟩ | h
      · exact Or.inl (trans_of (LockKept dev) hkept h)
      · exact Or.inr ⟨ctrlb, _, ⟨location, hlocation⟩, hload, rfl, hkept.saves dev h⟩
    · simp only [ne_eq, not_true_eq_false, if_false, dif_neg hlocation] at hb'
      rw [hb']
      exact Or.inl hkept
  · rw [if_pos hret] at hb'
    rw [hb']
    exact Or.inl hkept

/-! ## Commands that do not save -/

theorem lines_lockKept (lines : Board → List CStr) :
    Keeps (LockKept dev) (Prog.modify fun b => { b with sent := b.sent ++ lines b }) :=
  fun _ => ⟨fun _ _ => rfl, rfl, rfl, rfl, rfl, Or.inl rfl⟩

theorem sendResponse_lockKept (line : CStr) : Keeps (LockKept dev) (sendResponse line) :=
  lines_lockKept dev fun _ => [line]

theorem getLockStatus_lockKept : Keeps (LockKept dev) (fastbootGetLockStatus dev) :=
  getLockStatus_keeps dev (lockKept_frame dev).access

theorem callback_lockKept (vars : Variables) (entry val : CStr) : Keeps (LockKept dev) (callback dev vars entry val) := by
  unfold callback
  refine Keeps.ite ?_ ?_
  · refine Keeps.bind ?_ fun _ => Keeps.pure _
    refine (getLockStatus_lockKept dev).bind fun status => ?_
    rcases status with _ | ⟨mmc, ipl⟩
    · exact Keeps.pure _
    · exact Keeps.pure _
  · exact ((lockKept_frame dev).misc _).bind fun _ => Keeps.get.bind fun _ =>
      Keeps.bind (lines_lockKept dev fun b => (vars.lines entry val b).map _) fun _ => Keeps.pure _

theorem getvar_lockKept (vars : Variables) (cmdParameter : CStr) :
    Keeps (LockKept dev) (getvar dev vars cmdParameter) := by
  refine Keeps.ite ?_ ?_
  · refine Keeps.bind (Keeps.foldlM (fun _ entry => ?_) _ _) fun _ => Keeps.pure _
    refine (callback_lockKept dev vars entry _).bind fun val => ?_
    cases val with
    | none => exact Keeps.pure _
    | some val => exact sendResponse_lockKept dev _
  · refine Keeps.bind ?_ fun found => Keeps.get.bind fun b => ?_
    · cases varTable.find? _ with
      | none => exact Keeps.pure _
      | some entry => exact callback_lockKept dev vars entry _
    · cases found with
      | some val => exact Keeps.pure _
      | none =>
        cases b.env _ with
        | none => exact Keeps.pure _
        | some s => exact Keeps.pure _

theorem setActive_lockKept (cmd : CStr) : Keeps (LockKept dev) (cbSetActiveBootSlot dev cmd) := by
  unfold cbSetActiveBootSlot
  cases (strsep cmd 58).2 with
  | none => exact Keeps.pure _
  | some val =>
    exact Keeps.ite (((lockKept_frame dev).misc _).bind fun _ => Keeps.ite (Keeps.pure _) (Keeps.pure _)) (Keeps.pure _)

theorem setReset_lockKept : Keeps (LockKept dev) setReset :=
  fun _ => ⟨fun _ _ => rfl, rfl, rfl, rfl, rfl, Or.inr rfl⟩

theorem reboot_lockKept (cmd : CStr) : Keeps (LockKept dev) (reboot dev cmd) := by
  have hflag : ∀ message, Keeps (LockKept dev) (setBootloaderMessage dev message) :=
    (lockKept_frame dev).setBootloaderMessage
  refine Keeps.ite ((hflag _).bind fun _ => Keeps.ite (Keeps.pure _) (setReset_lockKept dev)) ?_
  exact Keeps.ite ((hflag _).bind fun _ => Keeps.ite (Keeps.pure _) (setReset_lockKept dev)) (setReset_lockKept dev)

theorem rebootBootloader_lockKept : Keeps (LockKept dev) (rebootBootloader dev) :=
  ((lockKept_frame dev).setBootloaderMessage _).bind fun _ => Keeps.ite (Keeps.pure _) (Keeps.pure _)

theorem oemErase_lockKept : Keeps (LockKept dev) oemErase := by
  refine (lockKept_frame dev).access.bind fun _ => Keeps.ite (Keeps.pure _) ?_
  exact Keeps.bind (fun _ => ⟨fun _ _ => rfl, rfl, rfl, rfl, rfl, Or.inl rfl⟩) fun _ =>
    Keeps.ite (Keeps.pure _) (Keeps.pure _)

theorem oemFormat_lockKept : Keeps (LockKept dev) (oemFormat dev) :=
  (lockKept_frame dev).access.bind fun _ => Keeps.ite (Keeps.pure _) (Keeps.ite (Keeps.pure _)
    ((lockKept_frame dev).image _))

theorem oemLockStatus_lockKept : Keeps (LockKept dev) (oemLockStatus dev) := by
  refine (getLockStatus_lockKept dev).bind fun status => ?_
  rcases status with _ | ⟨mmc, ipl⟩
  · exact Keeps.pure _
  · exact (sendResponse_lockKept dev _).bind fun _ => (sendResponse_lockKept dev _).bind fun _ => Keeps.pure _

theorem oemDumpHelp_lockKept : Keeps (LockKept dev) oemDumpHelp :=
  (sendResponse_lockKept dev _).bind fun _ => (sendResponse_lockKept dev _).bind fun _ =>
    (sendResponse_lockKept dev _).bind fun _ => (sendResponse_lockKept dev _).bind fun _ =>
      (sendResponse_lockKept dev _).bind fun _ => (sendResponse_lockKept dev _).bind fun _ => Keeps.pure _

/-- Of the commands of the manufacturer only `setenv` does something to what the locks depend on. -/
theorem oem_cases (cmdString : CStr) (b : Board) :
    LockKept dev b ((fastbootCbOem dev cmdString).run b).2 ∨
      ∃ varval, oemArguments dev cmdString = (ascii "setenv", some varval) ∧
        (fastbootCbOem dev cmdString).run b = (oemSetenv dev varval).run { b with pos := b.pos + 1 } := by
  rcases hargs : oemArguments dev cmdString with ⟨cmd, cmdarg⟩
  by_cases hcmd : cmd = ascii "setenv"
  · subst hcmd
    obtain ⟨⟨ret, c⟩, hload⟩ := load_run dev b
    obtain ⟨status, hstatus⟩ : ∃ status, (fastbootGetLockStatus dev).run b =
        (some status, { b with pos := b.pos + 1 }) := by
      unfold fastbootGetLockStatus
      rw [run_bind_of_some hload]
      dsimp only
      rw [run_ite]
      split <;> exact ⟨_, rfl⟩
    unfold fastbootCbOem
    rw [hargs]
    dsimp only
    rw [if_neg (by decide), if_neg (by decide), run_bind_of_some hstatus, if_neg (by decide), if_pos rfl]
    cases cmdarg with
    | none => exact Or.inl ⟨fun _ _ => rfl, rfl, rfl, rfl, rfl, Or.inl rfl⟩
    | some varval => exact Or.inr ⟨varval, rfl, rfl⟩
  · left
    unfold fastbootCbOem
    rw [hargs]
    refine Keeps.ite (oemDumpHelp_lockKept dev) (Keeps.ite (oemLockStatus_lockKept dev) ?_) b
    refine (getLockStatus_lockKept dev).bind fun status => ?_
    cases status.getD (false, false) with
    | mk mmcLocked iplLocked =>
      refine Keeps.ite (Keeps.ite (Keeps.pure _) (oemFormat_lockKept dev)) ?_
      rw [if_neg hcmd]
      exact Keeps.ite (oemErase_lockKept dev) (Keeps.pure _)

end RCar.Fastboot
