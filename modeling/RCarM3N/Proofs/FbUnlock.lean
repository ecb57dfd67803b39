import RCarM3N.Proofs.FbFailClosed

/-! Unlocking without the owner. With both locks set and the confirm pin never pressed, the locks stay
set along runs in which the host does not write the variable `confirm_user_unlock`, no lock is edited
after a damaged load, and no image or boot command overwrites the control block. -/

namespace RCar.Fastboot

open Prog

variable (dev : Device)

/-- The environment does not confirm an unlock. -/
def Unconfirmed (env : Env) : Prop := env (ascii "confirm_user_unlock") ≠ some (ascii "1")

/-- Both locks are set, and nothing confirms an unlock. -/
structure LockedDown (b : Board) : Prop where
  mmc : mmcLocked (stored dev b) = true
  ipl : iplLocked (stored dev b) = true
  intact : (stored dev b).Intact
  env : Unconfirmed b.env
  savedEnv : Unconfirmed b.savedEnv
  pressed : ∀ n, (b.io n).pressed = false
  complete : b.complete ≠ .bootm

/-- The arguments of `setenv` set the variable to the value that confirms. -/
def Confirms (env : Env) (varval : CStr) : Prop :=
  varval ≠ ascii "default" ∧ (strsep varval 32).1 = ascii "confirm_user_unlock" ∧
    setenvValue dev env (strsep varval 32).2 = ascii "1" ∧ dev.envAccepts (ascii "confirm_user_unlock") (ascii "1") = true

/-- The command of `boot` leaves the control block alone, and confirms nothing. -/
def BootLocked (b : Board) : Prop :=
  ∀ s, b.env (ascii "fastboot_bootcmd") = some s →
    Unwritten dev b (dev.runCommand s (booting b)) ∧ Unconfirmed (dev.runCommand s (booting b)).env ∧
      Unconfirmed (dev.runCommand s (booting b)).savedEnv

/-- The condition on a step. -/
structure HandsOff (b : Board) (e : Event) : Prop where
  setenv : ∀ data cmdString varval, e = .transfer data → request b data = some (.OEM, cmdString) →
    oemArguments dev cmdString = (ascii "setenv", some varval) → ¬ Confirms dev b.env varval
  edits : ∀ data cmdString, e = .transfer data → request b data = some (.FLASHING, cmdString) →
    let cmd := flashingArgument dev cmdString
    cmd ∈ lockWords → Authorised b cmd → Reaches (b.io (savePos b cmd)) → LoadClean (b.io b.pos)
  images : ∀ data cmdString name, e = .transfer data → request b data = some (.FLASH, cmdString) →
    (strsep cmdString 58).2 = some name → ¬ Transferred (b.io b.pos) → flashTarget dev b name = .bootloader →
      BlockSafe dev b
  boots : ∀ data cmdString, e = .transfer data → request b data = some (.BOOT, cmdString) → BootLocked dev b

/-! ## Environment -/

theorem rcarPresetEnv_unconfirmed {env : Env} (h : Unconfirmed env) : Unconfirmed (rcarPresetEnv dev env) := by
  unfold rcarPresetEnv
  cases dev.platform with
  | none => exact h
  | some platform =>
    have hne : ascii "confirm_user_unlock" ≠ ascii "platform" := by decide
    simpa only [Unconfirmed, Function.update_of_ne hne] using h

theorem defaultEnv_unconfirmed : Unconfirmed dev.defaultEnv := by
  rw [Unconfirmed, dev.defaultEnv_confirm]
  simp

theorem envSetDefault_unconfirmed (env : Env) : Unconfirmed (envSetDefault dev env) := by
  have hreset : ascii "confirm_user_unlock" ∉ noResetVars := by decide
  unfold Unconfirmed envSetDefault
  rw [if_neg hreset]
  exact rcarPresetEnv_unconfirmed dev (defaultEnv_unconfirmed dev)

theorem envDelete_unconfirmed {name : CStr} {env env' : Env} (hu : Unconfirmed env)
    (h : envDelete dev name env = some env') : Unconfirmed env' := by
  unfold envDelete at h
  split at h
  case isFalse => cases h
  case isTrue =>
    cases h
    by_cases hname : ascii "confirm_user_unlock" = name
    · rw [Unconfirmed, hname, Function.update_self]
      simp
    · rw [Unconfirmed, Function.update_of_ne hname]
      exact hu

theorem envSet_unconfirmed {name value : CStr} {env env' : Env} (hu : Unconfirmed env)
    (hnot : ¬ (name = ascii "confirm_user_unlock" ∧ value = ascii "1" ∧ dev.envAccepts name value = true))
    (h : envSet dev name value env = some env') : Unconfirmed env' := by
  unfold envSet at h
  split at h
  · split at h
    · cases h
    · exact envDelete_unconfirmed dev hu h
  · split at h
    · cases h
    split at h
    · exact envDelete_unconfirmed dev hu h
    split at h
    case isFalse => cases h
    case isTrue haccepts =>
      cases h
      by_cases hname : name = ascii "confirm_user_unlock"
      · rw [Unconfirmed, ← hname, Function.update_self]
        exact fun hone => hnot ⟨hname, Option.some.inj hone, haccepts⟩
      · rw [Unconfirmed, Function.update_of_ne (Ne.symm hname)]
        exact hu

/-- Nothing confirms an unlock after, where nothing has before. -/
def StaysUnconfirmed (b b' : Board) : Prop :=
  Unconfirmed b.env ∧ Unconfirmed b.savedEnv → Unconfirmed b'.env ∧ Unconfirmed b'.savedEnv

instance : IsPreorder Board StaysUnconfirmed where
  refl _ h := h
  trans _ _ _ h1 h2 h := h2 (h1 h)

theorem envSave_unconfirmed : Keeps StaysUnconfirmed (envSave dev) := by
  refine Keeps.bind (fun _ h => h) fun a => Keeps.bind (fun b h => ⟨h.1, ?_⟩) fun _ => Keeps.pure _
  change Unconfirmed (if _ then b.env else if _ then b.savedEnv else dev.defaultEnv)
  split
  · exact h.1
  split
  · exact h.2
  · exact defaultEnv_unconfirmed dev

theorem setEnv_unconfirmed {f : Board → Env} (h : ∀ b, Unconfirmed b.env → Unconfirmed (f b)) :
    Keeps StaysUnconfirmed (Prog.modify fun b => { b with env := f b }) := fun b hb => ⟨h b hb.1, hb.2⟩

theorem oemSetenv_unconfirmed {varval : CStr} {b : Board} (hnot : ¬ Confirms dev b.env varval) :
    StaysUnconfirmed b ((oemSetenv dev varval).run b).2 := by
  unfold oemSetenv
  by_cases hdefault : varval = ascii "default"
  · rw [if_pos hdefault]
    refine Keeps.bind (setEnv_unconfirmed fun b _ => envSetDefault_unconfirmed dev b.env) (fun _ => ?_) b
    refine (envSave_unconfirmed dev).bind fun _ => Keeps.ite (Keeps.pure _) ?_
    exact Keeps.bind (setEnv_unconfirmed fun b hu => rcarPresetEnv_unconfirmed dev hu) fun _ => Keeps.pure _
  · rw [if_neg hdefault]
    have hnot' : ¬ ((strsep varval 32).1 = ascii "confirm_user_unlock" ∧
        setenvValue dev b.env (strsep varval 32).2 = ascii "1" ∧
        dev.envAccepts (strsep varval 32).1 (setenvValue dev b.env (strsep varval 32).2) = true) := by
      rintro ⟨hkey, hvalue, haccepts⟩
      rw [hkey, hvalue] at haccepts
      exact hnot ⟨hdefault, hkey, hvalue, haccepts⟩
    intro hb
    rcases hsep : strsep varval 32 with ⟨key, value⟩
    rw [hsep] at hnot'
    have hset : ∀ s : Board, Unconfirmed s.env ∧ Unconfirmed s.savedEnv →
        let r := (setenvEnd dev key (envSet dev key (setenvValue dev b.env value) b.env)).run s
        Unconfirmed r.2.env ∧ Unconfirmed r.2.savedEnv := by
      intro s hs
      cases henv : envSet dev key (setenvValue dev b.env value) b.env with
      | none => exact hs
      | some env =>
        have hu := envSet_unconfirmed dev hb.1 hnot' henv
        refine Keeps.bind (setEnv_unconfirmed fun _ _ => hu) (fun _ => ?_) s hs
        exact (envSave_unconfirmed dev).bind fun _ => Keeps.ite (Keeps.pure _) (Keeps.pure _)
    dsimp only
    rw [run_bind_get]
    split
    · exact hset _ hb
    · exact hset _ hb

/-! ## Steps -/

variable (vars : Variables)

/-- A flash or an erase whose load goes through is refused. -/
def RefusesFlash (b : Board) : Prop :=
  ∀ data c cmdString, request b data = some (c, cmdString) → c = .FLASH ∨ c = .ERASE → Transferred (b.io b.pos) →
    let b' := (handle dev vars b (.transfer data)).2
    b'.user = b.user ∧ b'.boot1 = b.boot1 ∧ b'.boot2 = b.boot2 ∧ b'.hyper = b.hyper

theorem LockedDown.locked {b : Board} (h : LockedDown dev b) (name : CStr) :
    deviceLocked name (some (flagsOf (stored dev b))) = true := by
  simp only [deviceLocked, flagsOf, h.mmc, h.ipl]
  cases decide (name = ascii "bootloader") <;> rfl

theorem LockedDown.flashSafe {b : Board} {cmdString : CStr} (h : LockedDown dev b)
    (himages : ∀ name, (strsep cmdString 58).2 = some name → ¬ Transferred (b.io b.pos) →
      flashTarget dev b name = .bootloader → BlockSafe dev b) : FlashSafe dev (fresh b) cmdString := by
  intro name status b0 hname hload hlock htarget
  rw [flashTarget_fresh] at htarget
  by_cases ht : Transferred (b.io b.pos)
  · have hread : Readable dev b := ⟨ht, h.intact⟩
    obtain rfl := status_eq dev hread.fresh hload
    have hlocked : deviceLocked name (some (flagsOf (stored dev (fresh b)))) = true := h.locked dev name
    rw [hlocked] at hlock
    cases hlock
  · exact (himages name hname ht htarget).fresh

theorem refusesFlash_of_lockedDown {b : Board} (h : LockedDown dev b) : RefusesFlash dev vars b := by
  intro data c cmdString hreq hc ht
  have hread : Readable dev b := ⟨ht, h.intact⟩
  have hsafe : c = .FLASH → FlashSafe dev (fresh b) cmdString := fun _ =>
    h.flashSafe dev fun _ _ hnot _ => absurd ht hnot
  refine idle_step dev vars h.complete hreq ?_ hsafe ?_
  · rintro rfl
    rcases hc with hc | hc <;> cases hc
  · cases hname : (strsep cmdString 58).2 with
    | none =>
      rcases hc with rfl | rfl
      · change Idle (fresh b) ((flash dev cmdString).run (fresh b)).2
        unfold flash
        rw [hname]
        exact Idle.refl _
      · change Idle (fresh b) ((erase dev cmdString).run (fresh b)).2
        unfold erase
        rw [hname]
        exact Idle.refl _
    | some name => exact forbidden_idle dev vars hread.fresh (Or.inl ⟨hc, name, hname, h.locked dev name⟩)

theorem HandsOff.safe {b : Board} {e : Event} (hs : LockedDown dev b) (h : HandsOff dev b e) : EventSafe dev b e := by
  rintro data c cmdString rfl hreq
  refine ⟨fun hc => hs.flashSafe dev fun name hname => h.images data cmdString name rfl (hc ▸ hreq) hname, fun hc => ?_⟩
  intro s hcmd
  exact (h.boots data cmdString rfl (hc ▸ hreq) s hcmd).1

/-- Without the pin and without the variable no unlock is authorised. -/
theorem LockedDown.not_unlocks {b : Board} {cmd : CStr} (h : LockedDown dev b) (hauth : Authorised b cmd) :
    ¬ Unlocks cmd := by
  intro hunlocks
  obtain ⟨-, henv | hpressed⟩ := hauth hunlocks
  · exact h.env henv
  · rw [h.pressed] at hpressed
    cases hpressed

theorem env_step {b : Board} {e : Event} (hs : LockedDown dev b) (h : HandsOff dev b e) :
    StaysUnconfirmed b (handle dev vars b e).2 := by
  intro hu
  cases e with
  | setRollbackIndex location idx =>
    rcases setRollbackIndex_cases dev location idx (fresh b) with hk | ⟨_, _, _, -, -, hw⟩
    · exact ⟨hk.env ▸ hu.1, hk.savedEnv ▸ hu.2⟩
    · exact ⟨hw.env ▸ hu.1, hw.savedEnv ▸ hu.2⟩
  | transfer data =>
    cases hreq : request b data with
    | none =>
      simp only [handle, hreq]
      split <;> exact hu
    | some r =>
      obtain ⟨c, cmdString⟩ := r
      obtain ⟨hflash, -⟩ := h.safe dev hs data c cmdString rfl hreq
      by_cases hc : c = .BOOT
      · subst hc
        rw [handle_boot dev vars hreq, fastbootBoot]
        cases hcmd : (booting b).env (ascii "fastboot_bootcmd") with
        | some s => exact (h.boots data cmdString rfl hreq s hcmd).2
        | none => exact ⟨hu.2, hu.2⟩
      · have hhandler : StaysUnconfirmed (fresh b) ((dispatch dev vars cmdString c).run (fresh b)).2 := by
          intro hu
          rcases dispatch_cases dev vars hflash with hk | ⟨-, _, _, _, _, -, -, -, -, hw⟩ | ⟨hoem, varval, hargs, hrun⟩
          · exact ⟨hk.env ▸ hu.1, hk.savedEnv ▸ hu.2⟩
          · exact ⟨hw.env ▸ hu.1, hw.savedEnv ▸ hu.2⟩
          · rw [hrun]
            exact oemSetenv_unconfirmed dev (h.setenv data cmdString varval rfl (hoem ▸ hreq) hargs) hu
        obtain ⟨henv, hsavedEnv⟩ := hhandler hu
        obtain ⟨-, hend | hend⟩ := handle_settled dev vars hreq hc hs.complete hflash
        · rw [hend]
          exact ⟨henv, hsavedEnv⟩
        · refine ⟨?_, by rw [hend.savedEnv]; exact hsavedEnv⟩
          rcases hend.env with heq | heq <;> rw [heq]
          · exact henv
          · exact hsavedEnv

theorem lockedDown_step {b : Board} {e : Event} (hs : LockedDown dev b) (h : HandsOff dev b e) :
    LockedDown dev (handle dev vars b e).2 := by
  obtain ⟨henv, hsavedEnv⟩ := env_step dev vars hs h ⟨hs.env, hs.savedEnv⟩
  obtain ⟨hcomplete, hrest | ⟨c, p, hedit, hwritten⟩⟩ := handle_block dev vars hs.complete (h.safe dev hs)
  · refine ⟨?_, ?_, ?_, henv, hsavedEnv, fun n => by rw [hrest.io]; exact hs.pressed n, hcomplete⟩ <;> rw [hrest.stored]
    · exact hs.mmc
    · exact hs.ipl
    · exact hs.intact
  · have hflags : mmcLocked c = true ∧ iplLocked c = true := by
      cases hedit with
      | @flashing data cmdString ret ctrlb c b1 hreq hload hret hedit hauth =>
        have hword := lockEdit_some hedit
        have hclean := h.edits data cmdString rfl hreq hword.word hauth hwritten.reaches
        obtain ⟨rfl, rfl⟩ := load_clean dev (b := fresh b) hclean hs.intact hload hret
        have hno := hs.not_unlocks dev hauth
        exact ⟨hword.mmc hs.mmc fun hcmd => hno (Or.inl hcmd), hword.ipl hs.ipl fun hcmd => hno (Or.inr hcmd)⟩
      | @rollback location idx k ctrlb b1 hload hk =>
        obtain rfl := load_ok dev hload
        exact ⟨hs.mmc, hs.ipl⟩
    refine ⟨?_, ?_, ?_, henv, hsavedEnv, fun n => by rw [hwritten.io]; exact hs.pressed n, hcomplete⟩ <;>
      rw [hwritten.stored]
    · exact hflags.1
    · exact hflags.2
    · exact c.intact_sealed

/-! ## Runs -/

def HandsOffStep (b : Board) (e : Event) (b' : Board) : Prop := HandsOff dev b e ∧ b' = (handle dev vars b e).2

/-- Along such runs both locks stay set, and no state permits a flash or an erase. -/
theorem run_staysLocked {b b' : Board} {l : List (Board × Event × Board)} (hs : LockedDown dev b)
    (h : Runs (HandsOffStep dev vars) b l b') :
    (LockedDown dev b' ∧ RefusesFlash dev vars b') ∧ ∀ x ∈ l, RefusesFlash dev vars x.1 := by
  have hrun := Runs.invariant (I := LockedDown dev) (P := fun b _ _ => RefusesFlash dev vars b) ?_ hs h
  · exact ⟨⟨hrun.1, refusesFlash_of_lockedDown dev vars hrun.1⟩, hrun.2⟩
  · rintro b e b' hs ⟨hhands, rfl⟩
    exact ⟨lockedDown_step dev vars hs hhands, refusesFlash_of_lockedDown dev vars hs⟩

/-! ## Steps on fixed boards -/

def bothLocked : ControlBlock := ⟨FASTBOOT_MAGIC_LOCKED, FASTBOOT_MAGIC_LOCKED, fun _ => 0, 0⟩

theorem boardOf_lockedDown : LockedDown plainDevice (boardOf bothLocked fun _ => smooth) := by
  have hsound := boardOf_sound bothLocked fun _ => smooth
  refine ⟨?_, ?_, ?_, by simp [Unconfirmed, boardOf], by simp [Unconfirmed, boardOf], fun _ => rfl, hsound.complete⟩ <;>
    rw [hsound.stored]
  · decide
  · decide
  · exact hsound.intact

/-- The host sets the variable and unlocks. -/
theorem setenv_unlocks : ¬ ∀ (dev : Device) (vars : Variables) (b b' : Board) (l : List (Board × Event × Board)),
    LockedDown dev b → Runs (fun b e b' => b' = (handle dev vars b e).2) b l b' →
      mmcLocked (stored dev b') = true ∧ iplLocked (stored dev b') = true := by
  intro h
  let b := boardOf bothLocked fun _ => smooth
  let b1 := (handle plainDevice plainVariables b (.transfer (ascii "oem setenv confirm_user_unlock 1"))).2
  let b2 := (handle plainDevice plainVariables b1 (.transfer (ascii "flashing unlock"))).2
  have hmmc := (h plainDevice plainVariables b b2 [(b, _, b1), (b1, _, b2)] boardOf_lockedDown
    (.cons rfl (.cons rfl (.nil _)))).1
  revert hmmc
  decide +kernel

/-- Without the variable `flashing unlock` is not confirmed. -/
theorem unlock_stays_locked : mmcLocked (stored plainDevice (handle plainDevice plainVariables
    (boardOf bothLocked fun _ => smooth) (.transfer (ascii "flashing unlock"))).2) = true := by
  let b := boardOf bothLocked fun _ => smooth
  have hreq : request b (ascii "flashing unlock") = some (.FLASHING, ascii "flashing unlock") := by decide +kernel
  refine (run_staysLocked plainDevice plainVariables boardOf_lockedDown (.cons ⟨?_, rfl⟩ (.nil _))).1.1.mmc
  refine ⟨?_, fun _ _ _ _ _ _ _ => fun _ _ => ⟨rfl, fun _ => rfl⟩, ?_, ?_⟩
  · rintro data cmdString varval ⟨⟩ hoem
    cases hreq.symm.trans hoem
  · rintro data cmdString name ⟨⟩ hflash
    cases hreq.symm.trans hflash
  · rintro data cmdString ⟨⟩ hboot
    cases hreq.symm.trans hboot

end RCar.Fastboot
