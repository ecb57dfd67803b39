import RCarM3N.Proofs.FbReports

/-! What one event can do to the control block. It leaves the block and the mark of the last save
alone, or it stores one edit of the block that it has loaded: `flashing` a lock, an update of a
rollback index its counter. -/

namespace RCar.Fastboot

open Prog

variable (dev : Device)

/-! ## Commands -/

/-- The control block, the mark of the last save and what the world will answer are the same. -/
structure Unwritten (b b' : Board) : Prop where
  stored : stored dev b' = stored dev b
  saved : b'.saved = b.saved
  io : b'.io = b.io

theorem Unwritten.trans {a b c : Board} (h1 : Unwritten dev a b) (h2 : Unwritten dev b c) : Unwritten dev a c :=
  ⟨h2.stored.trans h1.stored, h2.saved.trans h1.saved, h2.io.trans h1.io⟩

theorem LockKept.unwritten {b b' : Board} (h : LockKept dev b b') : Unwritten dev b b' :=
  ⟨h.stored_eq, h.saved, h.io⟩

theorem Settled.unwritten {b b' : Board} (h : Settled b b') : Unwritten dev b b' :=
  ⟨by unfold stored; rw [h.boot2], h.saved, h.io⟩

/-- Only the environments and the lines may differ. -/
structure EnvOnly (b b' : Board) : Prop where
  boot2 : b'.boot2 = b.boot2
  saved : b'.saved = b.saved
  io : b'.io = b.io
  complete : b'.complete = b.complete

instance : IsPreorder Board EnvOnly where
  refl _ := ⟨rfl, rfl, rfl, rfl⟩
  trans _ _ _ h1 h2 := ⟨h2.boot2.trans h1.boot2, h2.saved.trans h1.saved, h2.io.trans h1.io, h2.complete.trans h1.complete⟩

theorem EnvOnly.unwritten {b b' : Board} (h : EnvOnly b b') : Unwritten dev b b' :=
  ⟨by unfold stored; rw [h.boot2], h.saved, h.io⟩

theorem oemSetenv_envOnly (varval : CStr) : Keeps EnvOnly (oemSetenv dev varval) :=
  oemSetenv_keeps dev (fun _ _ => ⟨rfl, rfl, rfl, rfl⟩) (fun _ _ => ⟨rfl, rfl, rfl, rfl⟩)
    (fun _ => ⟨rfl, rfl, rfl, rfl⟩) (fun _ _ _ _ => ⟨rfl, rfl, rfl, rfl⟩) varval

/-- A name that passes the check, with the lock status as it is read, and goes to the bootloader finds
an image that leaves the control block alone. -/
def FlashSafe (b : Board) (cmdParameter : CStr) : Prop :=
  ∀ name status b0, (strsep cmdParameter 58).2 = some name → (fastbootGetLockStatus dev).run b = (some status, b0) →
    deviceLocked name status = false → flashTarget dev b name = .bootloader → BlockSafe dev b

variable (vars : Variables)

/-- Of the commands only `flashing` saves a block, and only `setenv` changes an environment before the
answer. -/
theorem dispatch_cases {b : Board} {c : Command} {cmdString : CStr}
    (hsafe : c = .FLASH → FlashSafe dev b cmdString) :
    let b' := ((dispatch dev vars cmdString c).run b).2
    LockKept dev b b' ∨
      (c = .FLASHING ∧ ∃ ret ctrlb b1 c', (fastbootLoadControlBlock dev).run b = (some (ret, ctrlb), b1) ∧
        ret ≠ .FB_ERR_GENERIC ∧ lockEdit (flashingArgument dev cmdString) (blockAfterLoad ret ctrlb) = some c' ∧
        Authorised b (flashingArgument dev cmdString) ∧
        Saves dev b b' c' (savePos b (flashingArgument dev cmdString))) ∨
      (c = .OEM ∧ ∃ varval, oemArguments dev cmdString = (ascii "setenv", some varval) ∧
        b' = ((oemSetenv dev varval).run { b with pos := b.pos + 1 }).2) := by
  intro b'
  cases c with
  | GETVAR => exact Or.inl (getvar_lockKept dev vars cmdString b)
  | DOWNLOAD => exact Or.inl ⟨fun _ _ => rfl, rfl, rfl, rfl, rfl, Or.inl rfl⟩
  | FLASHING =>
    rcases flashing_cases dev cmdString b with h | h
    · exact Or.inl h
    · exact Or.inr (Or.inl ⟨rfl, h⟩)
  | FLASH =>
    left
    rcases flash_cases dev cmdString b with h | ⟨name, status, b0, b1, hname, hload, hlock, hb1, hidle, hrun⟩
    · exact h.rest.lockKept dev
    · change LockKept dev b ((flash dev cmdString).run b).2
      rw [hrun]
      exact flashTo_lockKept dev hb1.rest hidle (hsafe rfl name status b0 hname hload hlock)
  | ERASE => exact Or.inl ((lockKept_frame dev).erase cmdString b)
  | BOOT => exact Or.inl (refl_of (LockKept dev) b)
  | CONTINUE => exact Or.inl (refl_of (LockKept dev) b)
  | REBOOT => exact Or.inl (reboot_lockKept dev cmdString b)
  | REBOOT_BOOTLOADER => exact Or.inl (rebootBootloader_lockKept dev b)
  | SET_ACTIVE => exact Or.inl (setActive_lockKept dev cmdString b)
  | OEM =>
    rcases oem_cases dev cmdString b with h | ⟨varval, hargs, hrun⟩
    · exact Or.inl h
    · exact Or.inr (Or.inr ⟨rfl, varval, hargs, congrArg Prod.snd hrun⟩)

/-! ## Edits -/

/-- A load by this access finds no control block, or the stored one. -/
def LoadClean (a : Outcome) : Prop :=
  a.found = true → a.switched = true → a.described = true ∧ (a.moved = true → a.garbled = none)

/-- Of an intact block a clean load returns the block, or it fails in a way at which `flashing` gives up. -/
theorem load_clean {b b1 : Board} {ret : LoadResult} {c : ControlBlock} (hclean : LoadClean (b.io b.pos))
    (hintact : (stored dev b).Intact) (h : (fastbootLoadControlBlock dev).run b = (some (ret, c), b1))
    (hret : ret ≠ .FB_ERR_GENERIC) : c = (stored dev b).cleared ∧ ret = .FB_OK := by
  by_cases htransferred : Transferred (b.io b.pos)
  · rw [load_readable dev ⟨htransferred, hintact⟩] at h
    cases h
    exact ⟨rfl, rfl⟩
  · have haccess : access.run b = (some (b.io b.pos), { b with pos := b.pos + 1 }) := rfl
    unfold fastbootLoadControlBlock at h
    rw [run_bind_of_some haccess, run_bind_get] at h
    have hgeneric : ∀ {junk : ControlBlock} {s : Board},
        (pure (LoadResult.FB_ERR_GENERIC, junk) : Prog Board (LoadResult × ControlBlock)).run s =
          (some (ret, c), b1) → c = (stored dev b).cleared ∧ ret = .FB_OK := by
      intro junk s h
      cases h
      exact absurd rfl hret
    cases hfound : (b.io b.pos).found with
    | false =>
      rw [if_pos (by rw [hfound]; rfl)] at h
      exact hgeneric h
    | true =>
      rw [if_neg (by rw [hfound]; decide)] at h
      cases hswitched : (b.io b.pos).switched with
      | false =>
        rw [if_pos (by rw [hswitched]; rfl)] at h
        exact hgeneric h
      | true =>
        obtain ⟨hdescribed, hgarbled⟩ := hclean hfound hswitched
        rw [if_neg (by rw [hswitched]; decide), if_neg (by rw [hdescribed]; decide)] at h
        cases hmoved : (b.io b.pos).moved with
        | false =>
          rw [if_pos (by rw [hmoved]; rfl)] at h
          exact hgeneric h
        | true => exact absurd ⟨hfound, hswitched, hdescribed, hmoved, hgarbled hmoved⟩ htransferred

/-- The words of `flashing` that save a block. -/
def lockWords : List CStr := [ascii "lock", ascii "unlock", ascii "lock_critical", ascii "unlock_critical"]

/-- An edit of the locks clears the one that its word names, and touches no counter. -/
structure LockEdit (cmd : CStr) (c c' : ControlBlock) : Prop where
  word : cmd ∈ lockWords
  mmc : mmcLocked c = true → cmd ≠ ascii "unlock" → mmcLocked c' = true
  ipl : iplLocked c = true → cmd ≠ ascii "unlock_critical" → iplLocked c' = true
  counters : c'.rollbackCnt = c.rollbackCnt

theorem lockEdit_some {cmd : CStr} {c c' : ControlBlock} (h : lockEdit cmd c = some c') : LockEdit cmd c c' := by
  unfold lockEdit at h
  split at h
  case isTrue hcmd =>
    cases h
    exact ⟨by simp [lockWords, hcmd], fun _ _ => rfl, fun hi _ => hi, rfl⟩
  split at h
  case isTrue hcmd =>
    cases h
    exact ⟨by simp [lockWords, hcmd], fun _ hne => absurd hcmd hne, fun hi _ => hi, rfl⟩
  split at h
  case isTrue hcmd =>
    cases h
    exact ⟨by simp [lockWords, hcmd], fun hm _ => hm, fun _ _ => rfl, rfl⟩
  split at h
  case isTrue hcmd =>
    cases h
    exact ⟨by simp [lockWords, hcmd], fun hm _ => hm, fun _ hne => absurd hcmd hne, rfl⟩
  case isFalse => cases h

/-! ## Events -/

/-- The state in which the answer to `boot` is completed. -/
def booting (b : Board) : Board := { fresh b with complete := .bootm }

theorem handle_boot {b : Board} {data : List UInt8} {cmdString : CStr} (h : request b data = some (.BOOT, cmdString)) :
    (handle dev vars b (.transfer data)).2 = fastbootBoot dev (booting b) := by
  simp only [handle, h]
  rfl

theorem not_bootm {b b' : Board} (hb : b.complete ≠ .bootm) (h : b'.complete = b.complete ∨ b'.complete = .reset) :
    b'.complete ≠ .bootm := by
  rcases h with h | h <;> rw [h]
  · exact hb
  · simp

/-- Every other command ends where its handler does, or settles. -/
theorem handle_settled {b : Board} {data : List UInt8} {c : Command} {cmdString : CStr}
    (h : request b data = some (c, cmdString)) (hc : c ≠ .BOOT) (hboot : b.complete ≠ .bootm)
    (hsafe : c = .FLASH → FlashSafe dev (fresh b) cmdString) :
    let b1 := ((dispatch dev vars cmdString c).run (fresh b)).2
    let b' := (handle dev vars b (.transfer data)).2
    b'.complete ≠ .bootm ∧ (b' = b1 ∨ Settled b1 b') := by
  intro b1 b'
  have hb1 : b1.complete ≠ .bootm := by
    rcases dispatch_cases dev vars hsafe with hk | ⟨-, _, _, _, _, -, -, -, -, hs⟩ | ⟨-, varval, -, hrun⟩
    · exact not_bootm hboot hk.complete
    · exact not_bootm hboot hs.complete
    · have henv := oemSetenv_envOnly dev varval { fresh b with pos := b.pos + 1 }
      exact not_bootm hboot (Or.inl ((congrArg Board.complete hrun).trans henv.complete))
  rcases handle_request dev vars h with hend | ⟨response, -, hend⟩
  · have hb' : b' = b1 := by
      change (handle dev vars b (.transfer data)).2 = b1
      rw [hend]
    exact ⟨hb' ▸ hb1, Or.inl hb'⟩
  · have hset := answered_settled dev (c := c) response hb1 fun hboot => absurd hboot hc
    change (handle dev vars b (.transfer data)).2.complete ≠ .bootm ∧
      ((handle dev vars b (.transfer data)).2 = b1 ∨ Settled b1 (handle dev vars b (.transfer data)).2)
    rw [hend]
    exact ⟨by rw [hset.complete]; simp, Or.inr hset⟩

/-- The edit that an event makes of the loaded block, and the access that stores it. -/
inductive Edit (b : Board) : Event → ControlBlock → ℕ → Prop
  | flashing {data : List UInt8} {cmdString : CStr} {ret : LoadResult} {ctrlb c : ControlBlock} {b1 : Board}
      (hreq : request b data = some (.FLASHING, cmdString))
      (hload : (fastbootLoadControlBlock dev).run (fresh b) = (some (ret, ctrlb), b1)) (hret : ret ≠ .FB_ERR_GENERIC)
      (hedit : lockEdit (flashingArgument dev cmdString) (blockAfterLoad ret ctrlb) = some c)
      (hauth : Authorised b (flashingArgument dev cmdString)) :
      Edit b (.transfer data) c (savePos b (flashingArgument dev cmdString))
  | rollback {location : ℕ} {idx : UInt64} {k : Fin MAX_ROLLBACK_LOCATIONS} {ctrlb : ControlBlock} {b1 : Board}
      (hload : (fastbootLoadControlBlock dev).run (fresh b) = (some (.FB_OK, ctrlb), b1)) (hk : (k : ℕ) = location) :
      Edit b (.setRollbackIndex location idx)
        { ctrlb with rollbackCnt := Function.update ctrlb.rollbackCnt k idx } (b.pos + 1)

/-- The block has been stored by the access. -/
structure Written (b b' : Board) (c : ControlBlock) (p : ℕ) : Prop where
  reaches : Reaches (b.io p)
  stored : stored dev b' = c.sealed
  saved : b'.saved = c.sealed ∨ b'.saved = b.saved ∧ (b.io p).moved = false
  io : b'.io = b.io

theorem Written.unwritten {a b c : Board} {ctrlb : ControlBlock} {p : ℕ} (h1 : Written dev a b ctrlb p)
    (h2 : Unwritten dev b c) : Written dev a c ctrlb p := by
  refine ⟨h1.reaches, h2.stored.trans h1.stored, ?_, h2.io.trans h1.io⟩
  rw [h2.saved]
  exact h1.saved

theorem Saves.written {b b' : Board} {c : ControlBlock} {p : ℕ} (h : Saves dev (fresh b) b' c p) : Written dev b b' c p :=
  ⟨h.reaches, h.stored, h.saved, h.io⟩

/-- The command of `boot` leaves the control block alone. -/
def BootSafe (b : Board) : Prop :=
  ∀ s, b.env (ascii "fastboot_bootcmd") = some s → Unwritten dev b (dev.runCommand s (booting b))

/-- What an event must not do to the control block besides the edits. -/
def EventSafe (b : Board) (e : Event) : Prop :=
  ∀ data c cmdString, e = .transfer data → request b data = some (c, cmdString) →
    (c = .FLASH → FlashSafe dev (fresh b) cmdString) ∧ (c = .BOOT → BootSafe dev b)

theorem fresh_unwritten (b : Board) : Unwritten dev b (fresh b) := ⟨rfl, rfl, rfl⟩

/-- One event: nothing is written of the control block, or an edit is stored. -/
theorem handle_block {b : Board} {e : Event} (hboot : b.complete ≠ .bootm) (hsafe : EventSafe dev b e) :
    let b' := (handle dev vars b e).2
    b'.complete ≠ .bootm ∧ (Unwritten dev b b' ∨ ∃ c p, Edit dev b e c p ∧ Written dev b b' c p) := by
  intro b'
  cases e with
  | setRollbackIndex location idx =>
    rcases setRollbackIndex_cases dev location idx (fresh b) with h | ⟨ctrlb, b1, k, hload, hk, h⟩
    · exact ⟨not_bootm hboot h.complete, Or.inl ((fresh_unwritten dev b).trans dev (h.unwritten dev))⟩
    · exact ⟨not_bootm hboot h.complete, Or.inr ⟨_, _, .rollback hload hk, h.written dev⟩⟩
  | transfer data =>
    cases hreq : request b data with
    | none =>
      have hb' : b' = (handle dev vars b (.transfer data)).2 := rfl
      simp only [handle, hreq] at hb'
      rw [hb']
      split
      · exact ⟨hboot, Or.inl ⟨rfl, rfl, rfl⟩⟩
      · exact ⟨hboot, Or.inl ⟨rfl, rfl, rfl⟩⟩
    | some r =>
      obtain ⟨c, cmdString⟩ := r
      obtain ⟨hflash, hbootcmd⟩ := hsafe data c cmdString rfl hreq
      by_cases hc : c = .BOOT
      · subst hc
        have hb' : b' = fastbootBoot dev (booting b) := handle_boot dev vars hreq
        rw [hb', fastbootBoot]
        change _ ∧ _
        cases hs : (booting b).env (ascii "fastboot_bootcmd") with
        | some s =>
          have h := hbootcmd rfl s hs
          exact ⟨by simp, Or.inl ⟨h.stored, h.saved, h.io⟩⟩
        | none =>
          have h := (restart_settled (booting b)).unwritten dev
          exact ⟨by simp [restart], Or.inl ⟨h.stored, h.saved, h.io⟩⟩
      · obtain ⟨hcomplete, hend⟩ := handle_settled dev vars hreq hc hboot hflash
        -- what follows the handler writes nothing
        have hrest : Unwritten dev ((dispatch dev vars cmdString c).run (fresh b)).2 b' := by
          rcases hend with h | h
          · have hb' : b' = _ := h
            rw [hb']
            exact ⟨rfl, rfl, rfl⟩
          · exact h.unwritten dev
        refine ⟨hcomplete, ?_⟩
        rcases dispatch_cases dev vars hflash with h | ⟨rfl, ret, ctrlb, b1, c', hload, hret, hedit, hauth, h⟩ |
            ⟨rfl, varval, -, hrun⟩
        · exact Or.inl ((fresh_unwritten dev b).trans dev ((h.unwritten dev).trans dev hrest))
        · exact Or.inr ⟨c', _, .flashing hreq hload hret hedit hauth, (h.written dev).unwritten dev hrest⟩
        · have h := oemSetenv_envOnly dev varval { fresh b with pos := b.pos + 1 }
          have hpos : Unwritten dev b { fresh b with pos := b.pos + 1 } := ⟨rfl, rfl, rfl⟩
          rw [hrun] at hrest
          exact Or.inl (hpos.trans dev ((h.unwritten dev).trans dev hrest))

end RCar.Fastboot
