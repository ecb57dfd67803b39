import RCarM3N.Proofs.FbSteps

/-! A change of the locks and the request to wipe the data that goes with it: the control block and the
message in `misc` are two stores, written one after the other. -/

namespace RCar.Fastboot

open Prog

variable (dev : Device)

/-! ## The request to wipe the data -/

/-- The text in a field of a message. -/
def fieldText (m : Mem) (off size : ℕ) : CStr := cstrOf (m.read off size)

/-- The message at an address has the recovery wipe the data. -/
structure Requests (m : Mem) (off : ℕ) : Prop where
  command : fieldText m off 32 = ascii "boot-recovery"
  recovery : contains (fieldText m (off + BCB_RECOVERY_OFFSET) 768) (ascii "--wipe_data") = true

/-- The same message but for the two fields of the request. -/
def SameRest (m m' : Mem) (off : ℕ) : Prop :=
  ∀ i < BOOTLOADER_MESSAGE_BLOCKS * BLKSZ, 32 ≤ i → ¬ (BCB_RECOVERY_OFFSET ≤ i ∧ i < BCB_RECOVERY_OFFSET + 768) →
    m' (off + i) = m (off + i)

/-- The message with the request to wipe the data. -/
def wipeMessage (bcb : Mem) : Mem :=
  putText (putText bcb 0 32 (ascii "boot-recovery")) BCB_RECOVERY_OFFSET 768 (ascii "recovery\n--wipe_data\n--reboot_bl")

/-- A field that begins with a text and its terminator. -/
theorem fieldText_eq {m : Mem} {off size : ℕ} {text : CStr} (hnull : 0 ∉ text) (hsize : text.length < size)
    (hm : ∀ i ≤ text.length, m (off + i) = Mem.ofList text i) : fieldText m off size = text := by
  obtain ⟨rest, rfl⟩ := Nat.exists_eq_add_of_lt hsize
  have hchars : ∀ c ∈ text, decide (c ≠ 0) = true := fun c hc => decide_eq_true fun h => hnull (h ▸ hc)
  have htext : m.read off text.length = text := by
    apply List.ext_getElem (by simp)
    intro i hi hi'
    simp only [Mem.read, List.getElem_map, List.getElem_range]
    rw [hm i hi'.le]
    simp [Mem.ofList, hi']
  have hend : m (off + text.length) = 0 := by
    rw [hm _ (le_refl _)]
    simp [Mem.ofList]
  rw [fieldText, cstrOf, Nat.add_assoc, Mem.read_append, htext, List.takeWhile_append_of_pos hchars,
    Nat.add_comm rest 1, Mem.read_append]
  simp [Mem.read, hend]

theorem putText_in (m : Mem) {off size i : ℕ} (text : CStr) (hi : i < size) : putText m off size text (off + i) = Mem.ofList text i := by
  rw [putText, Mem.copy_add _ _ _ _ _ _ hi, Nat.zero_add]

theorem putText_out {m : Mem} {off size a : ℕ} {text : CStr} (h : a < off ∨ off + size ≤ a) : putText m off size text a = m a :=
  Mem.copy_out _ _ _ _ _ _ h

/-- The first block of the message carries the whole request. -/
theorem wipe_requests {user : Mem} {off n : ℕ} (hn : 0 < n) :
    Requests (user.copy off (wipeMessage fun i => user (off + i)) 0 (n * BLKSZ)) off := by
  have hblock : BLKSZ ≤ n * BLKSZ := Nat.le_mul_of_pos_left _ hn
  have hfirst : ∀ i < BLKSZ, user.copy off (wipeMessage fun i => user (off + i)) 0 (n * BLKSZ) (off + i) =
      wipeMessage (fun i => user (off + i)) i := fun i hi => by
    rw [Mem.copy_add _ _ _ _ _ _ (hi.trans_le hblock), Nat.zero_add]
  have hcommand : fieldText (user.copy off (wipeMessage fun i => user (off + i)) 0 (n * BLKSZ)) off 32 = ascii "boot-recovery" := by
    refine fieldText_eq (by decide) (by decide) fun i hi => ?_
    have hi' : i < 32 := lt_of_le_of_lt hi (by decide)
    rw [hfirst i (hi'.trans (by decide)), wipeMessage, putText_out (.inl (hi'.trans (by decide)))]
    have := @putText_in (fun i => user (off + i)) 0 32 i (ascii "boot-recovery") hi'
    rwa [Nat.zero_add] at this
  have hrecovery : fieldText (user.copy off (wipeMessage fun i => user (off + i)) 0 (n * BLKSZ)) (off + BCB_RECOVERY_OFFSET) 768 =
      ascii "recovery\n--wipe_data\n--reboot_bl" := by
    refine fieldText_eq (by decide) (by decide) fun i hi => ?_
    have hi' : i < 64 := lt_of_le_of_lt hi (by decide)
    rw [Nat.add_assoc, hfirst _ (by unfold BCB_RECOVERY_OFFSET BLKSZ; omega), wipeMessage]
    exact putText_in _ _ (hi'.trans (by decide))
  refine ⟨hcommand, ?_⟩
  rw [hrecovery]
  decide

theorem wipe_sameRest (user : Mem) (off n : ℕ) :
    SameRest user (user.copy off (wipeMessage fun i => user (off + i)) 0 (n * BLKSZ)) off := by
  intro i _ hcommand hrecovery
  by_cases hi : i < n * BLKSZ
  · rw [Mem.copy_add _ _ _ _ _ _ hi, Nat.zero_add, wipeMessage, putText_out (by omega), putText_out (.inr (by omega))]
  · exact Mem.copy_out _ _ _ _ _ _ (.inr (by omega))

/-! ## The accesses of the request -/

/-- How many of some blocks an access writes. -/
def writtenBlocks (a : Outcome) (count : ℕ) : ℕ := if a.moved then count else min a.reached count

/-- The read of the message at a position and the search for the partition of the write go through. -/
def WipeStarts (b : Board) (p : ℕ) : Prop :=
  ((b.io p).found = true ∧ (b.io p).described = true ∧ (b.io p).moved = true) ∧
    (b.io (p + 1)).found = true ∧ (b.io (p + 1)).described = true

instance (b : Board) (p : ℕ) : Decidable (WipeStarts b p) := inferInstanceAs (Decidable (_ ∧ _))

/-- The user area after the request, by the accesses from a position on. -/
def wiped (b : Board) (p : ℕ) : Mem :=
  match partGetInfo dev b (ascii "misc") with
  | some info =>
    if WipeStarts b p then
      b.user.copy (info.start * BLKSZ) (wipeMessage fun i => b.user (info.start * BLKSZ + i)) 0
        (writtenBlocks (b.io (p + 2)) BOOTLOADER_MESSAGE_BLOCKS * BLKSZ)
    else b.user
  | none => b.user

theorem getMessage_run (b : Board) : (getBootloaderMessage dev).run b =
    (some (match partGetInfo dev b (ascii "misc") with
      | some info =>
        if (b.io b.pos).found = true ∧ (b.io b.pos).described = true ∧ (b.io b.pos).moved = true then
          some fun i => b.user (info.start * BLKSZ + i)
        else none
      | none => none), { b with pos := b.pos + 1 }) := by
  have haccess : access.run b = (some (b.io b.pos), { b with pos := b.pos + 1 }) := rfl
  have hinfo : partGetInfo dev { b with pos := b.pos + 1 } (ascii "misc") = partGetInfo dev b (ascii "misc") := rfl
  unfold getBootloaderMessage
  rw [run_bind_of_some haccess, run_bind_get]
  generalize b.io b.pos = a
  rw [hinfo]
  cases a.found <;> cases a.described <;> cases a.moved <;> cases partGetInfo dev b (ascii "misc") <;> rfl

theorem setMessage_run (message : Mem) (b : Board) : ∃ ok p, (setBootloaderMessage dev message).run b =
    (some ok, { b with
      pos := p
      user := match partGetInfo dev b (ascii "misc") with
        | some info =>
          if (b.io b.pos).found = true ∧ (b.io b.pos).described = true then
            b.user.copy (info.start * BLKSZ) message 0 (writtenBlocks (b.io (b.pos + 1)) BOOTLOADER_MESSAGE_BLOCKS * BLKSZ)
          else b.user
        | none => b.user }) := by
  have haccess : access.run b = (some (b.io b.pos), { b with pos := b.pos + 1 }) := rfl
  have hinfo : partGetInfo dev { b with pos := b.pos + 1 } (ascii "misc") = partGetInfo dev b (ascii "misc") := rfl
  unfold setBootloaderMessage
  rw [run_bind_of_some haccess, run_bind_get]
  generalize b.io b.pos = a
  rw [hinfo]
  cases a.found <;> cases a.described <;> cases partGetInfo dev b (ascii "misc") <;> exact ⟨_, _, rfl⟩

/-- The request changes the message of `misc` alone, and returns whatever its accesses do. -/
theorem setWipeData_run (b : Board) :
    ∃ ok p, (fastbootSetWipeData dev).run b = (some ok, { b with pos := p, user := wiped dev b b.pos }) := by
  have hget := getMessage_run dev b
  unfold fastbootSetWipeData
  rw [run_bind_of_some hget]
  unfold wiped
  cases hinfo : partGetInfo dev b (ascii "misc") with
  | none => exact ⟨false, b.pos + 1, rfl⟩
  | some info =>
    by_cases hread : (b.io b.pos).found = true ∧ (b.io b.pos).described = true ∧ (b.io b.pos).moved = true
    · obtain ⟨ok, p, hset⟩ := setMessage_run dev (wipeMessage fun i => b.user (info.start * BLKSZ + i)) { b with pos := b.pos + 1 }
      have hinfo' : partGetInfo dev { b with pos := b.pos + 1 } (ascii "misc") = some info := hinfo
      rw [hinfo'] at hset
      refine ⟨ok, p, ?_⟩
      simp only [if_pos hread]
      refine hset.trans ?_
      simp only [WipeStarts, hread, true_and, and_self]
    · refine ⟨false, b.pos + 1, ?_⟩
      have hstart : ¬ WipeStarts b b.pos := fun h => hread h.1
      simp only [if_neg hread, if_neg hstart]
      rfl

/-- The accesses from a position on write the first block of the request. -/
def WipeReaches (b : Board) (p : ℕ) : Prop :=
  WipeStarts b p ∧ ((b.io (p + 2)).moved = true ∨ 0 < (b.io (p + 2)).reached)

/-- The message of `misc` requests the wipe, the rest of it being as before. -/
def WipeRequested (b : Board) (user : Mem) : Prop :=
  ∃ info, partGetInfo dev b (ascii "misc") = some info ∧ Requests user (info.start * BLKSZ) ∧
    SameRest b.user user (info.start * BLKSZ)

theorem wipeRequested_iff (b : Board) (p : ℕ) : WipeRequested dev b (wiped dev b p) ↔
    ∃ info, partGetInfo dev b (ascii "misc") = some info ∧ (Requests b.user (info.start * BLKSZ) ∨ WipeReaches b p) := by
  unfold WipeRequested wiped
  refine exists_congr fun info => and_congr_right fun hinfo => ?_
  rw [hinfo]
  dsimp only
  have hwritten : 0 < writtenBlocks (b.io (p + 2)) BOOTLOADER_MESSAGE_BLOCKS ↔
      (b.io (p + 2)).moved = true ∨ 0 < (b.io (p + 2)).reached := by
    unfold writtenBlocks BOOTLOADER_MESSAGE_BLOCKS
    split
    · simp_all
    · simp_all
  by_cases hstart : WipeStarts b p
  · rw [if_pos hstart]
    constructor
    · rintro ⟨hrequests, -⟩
      by_cases hpos : 0 < writtenBlocks (b.io (p + 2)) BOOTLOADER_MESSAGE_BLOCKS
      · exact .inr ⟨hstart, hwritten.mp hpos⟩
      · left
        rwa [Nat.eq_zero_of_not_pos hpos, Nat.zero_mul, Mem.copy_zero] at hrequests
    · intro h
      refine ⟨?_, wipe_sameRest _ _ _⟩
      by_cases hpos : 0 < writtenBlocks (b.io (p + 2)) BOOTLOADER_MESSAGE_BLOCKS
      · exact wipe_requests hpos
      · rw [Nat.eq_zero_of_not_pos hpos, Nat.zero_mul, Mem.copy_zero]
        exact h.resolve_right fun hr => hpos (hwritten.mpr hr.2)
  · rw [if_neg hstart]
    exact ⟨fun h => .inl h.1, fun h => ⟨h.resolve_right fun hr => hstart hr.1, fun _ _ _ _ => rfl⟩⟩

/-! ## A flashing command -/

/-- The lock words of a block. -/
def lockFlags (c : ControlBlock) : UInt32 × UInt32 := (c.iplLock, c.mmcLock)

theorem unlockTo_run (c : ControlBlock) (b : Board) (hability : (b.io b.pos).ability = true)
    (hconfirm : b.env (ascii "confirm_user_unlock") = some (ascii "1") ∨ (b.io (b.pos + 1)).pressed = true) :
    (unlockTo dev c).run b = (saveAndReset dev c true).run
      { b with pos := if b.env (ascii "confirm_user_unlock") = some (ascii "1") then b.pos + 1 else b.pos + 2 } := by
  have hallowed : fastbootGetUnlockAbility.run b = (some true, { b with pos := b.pos + 1 }) := by
    change (some (b.io b.pos).ability, _) = _
    rw [hability]
  have henv' : ({ b with pos := b.pos + 1 } : Board).env = b.env := rfl
  unfold unlockTo
  rw [run_bind_of_some hallowed]
  by_cases henv : b.env (ascii "confirm_user_unlock") = some (ascii "1")
  · have hconfirmed : isUserConfirmed.run { b with pos := b.pos + 1 } = (some true, { b with pos := b.pos + 1 }) := by
      unfold isUserConfirmed
      rw [run_bind_get, henv', if_pos henv]
      rfl
    rw [if_neg (by decide), run_bind_of_some hconfirmed, if_neg (by decide), if_pos henv]
  · have hconfirmed : isUserConfirmed.run { b with pos := b.pos + 1 } = (some true, { b with pos := b.pos + 2 }) := by
      unfold isUserConfirmed
      rw [run_bind_get, henv', if_neg henv]
      change (some (b.io (b.pos + 1)).pressed, _) = _
      rw [hconfirm.resolve_left henv]
    rw [if_neg (by decide), run_bind_of_some hconfirmed, if_neg (by decide), if_neg henv]

/-- A command that gets as far as the save makes it at its place. -/
theorem flashing_run {cmdString : CStr} {b b1 : Board} {ret : LoadResult} {ctrlb c : ControlBlock}
    (hload : (fastbootLoadControlBlock dev).run b = (some (ret, ctrlb), b1)) (hret : ret ≠ .FB_ERR_GENERIC)
    (hedit : lockEdit (flashingArgument dev cmdString) (blockAfterLoad ret ctrlb) = some c)
    (hauth : Authorised b (flashingArgument dev cmdString)) :
    ∃ wipeRam, (fastbootCbFlashing dev cmdString).run b =
      (saveAndReset dev c wipeRam).run { b with pos := savePos b (flashingArgument dev cmdString) } := by
  obtain ⟨r, hrun⟩ := load_run dev b
  obtain rfl : b1 = { b with pos := b.pos + 1 } := (run_unique hload hrun).2
  unfold fastbootCbFlashing
  rw [run_bind_of_some hload]
  dsimp only
  rw [if_neg hret]
  generalize flashingArgument dev cmdString = cmd at *
  unfold flashingCommand
  unfold lockEdit at hedit
  by_cases h1 : cmd = ascii "lock"
  · rw [if_pos h1] at hedit ⊢
    obtain rfl := Option.some.inj hedit
    refine ⟨false, ?_⟩
    rw [savePos, if_neg (by rw [h1]; decide)]
  rw [if_neg h1] at hedit ⊢
  by_cases h2 : cmd = ascii "unlock"
  · rw [if_pos h2] at hedit ⊢
    obtain rfl := Option.some.inj hedit
    obtain ⟨hability, hconfirm⟩ := hauth (.inl h2)
    refine ⟨true, ?_⟩
    rw [savePos, if_pos (.inl h2)]
    exact unlockTo_run dev _ _ hability hconfirm
  rw [if_neg h2] at hedit ⊢
  by_cases h3 : cmd = ascii "lock_critical"
  · rw [if_pos h3] at hedit ⊢
    obtain rfl := Option.some.inj hedit
    refine ⟨false, ?_⟩
    rw [savePos, if_neg (by rw [h3]; decide)]
  rw [if_neg h3] at hedit ⊢
  by_cases h4 : cmd = ascii "unlock_critical"
  · rw [if_pos h4] at hedit ⊢
    obtain rfl := Option.some.inj hedit
    obtain ⟨hability, hconfirm⟩ := hauth (.inr h4)
    refine ⟨true, ?_⟩
    rw [savePos, if_pos (.inr h4)]
    exact unlockTo_run dev _ _ hability hconfirm
  rw [if_neg h4] at hedit
  cases hedit

instance (a : Outcome) : Decidable (Reaches a) :=
  decidable_of_iff (a.found = true ∧ a.switched = true ∧ a.described = true ∧ (a.moved = true ∨ 0 < a.reached))
    ⟨fun h => ⟨h.1, h.2.1, h.2.2.1, h.2.2.2⟩, fun h => ⟨h.1, h.2, h.3, h.4⟩⟩

theorem stored_congr {b b' : Board} (h : b'.boot2 = b.boot2) : stored dev b' = stored dev b := by
  rw [stored, stored, h]

theorem partGetInfo_of_same {b b' : Board} (huser : b'.user = b.user) (henv : b'.env = b.env) (name : CStr) :
    partGetInfo dev b' name = partGetInfo dev b name := by
  unfold partGetInfo
  rw [huser, henv]

/-- A save reaches the storage, reporting success or not, or it leaves the board alone. -/
theorem save_reaches (c : ControlBlock) (b : Board) : ∃ b', (fastbootSaveControlBlock dev c).run b =
      (some (decide (Reaches (b.io b.pos) ∧ (b.io b.pos).moved = true)), b') ∧
    lockFlags (stored dev b') = (if Reaches (b.io b.pos) then lockFlags c else lockFlags (stored dev b)) ∧
    b'.user = b.user ∧ b'.io = b.io ∧ b'.pos = b.pos + 1 ∧ b'.env = b.env := by
  have hnew : ∀ b' : Board, b'.boot2 = storedAt dev b c → lockFlags (stored dev b') = lockFlags c := fun b' h => by
    rw [stored, h, storedAt, stored_copy]
    rfl
  have hold : ∀ b' : Board, b'.boot2 = b.boot2 → lockFlags (stored dev b') = lockFlags (stored dev b) := fun b' h => by
    rw [stored_congr dev h]
  rw [save_run]
  dsimp only
  by_cases hready : (b.io b.pos).found = true ∧ (b.io b.pos).switched = true ∧ (b.io b.pos).described = true
  · rw [if_pos hready]
    by_cases hmoved : (b.io b.pos).moved = true
    · have hreaches : Reaches (b.io b.pos) := ⟨hready.1, hready.2.1, hready.2.2, .inl hmoved⟩
      rw [if_pos hmoved, if_pos hreaches, decide_eq_true ⟨hreaches, hmoved⟩]
      refine ⟨_, rfl, ?_, rfl, rfl, rfl, rfl⟩
      apply hnew
      dsimp only
    · rw [if_neg hmoved, decide_eq_false fun h => hmoved h.2]
      by_cases hreached : 0 < (b.io b.pos).reached
      · have hreaches : Reaches (b.io b.pos) := ⟨hready.1, hready.2.1, hready.2.2, .inr hreached⟩
        rw [if_pos hreached, if_pos hreaches]
        refine ⟨_, rfl, ?_, rfl, rfl, rfl, rfl⟩
        apply hnew
        dsimp only
      · rw [if_neg hreached, if_neg fun h : Reaches (b.io b.pos) => h.moved.elim hmoved hreached]
        exact ⟨_, rfl, hold _ rfl, rfl, rfl, rfl, rfl⟩
  · have hno : ¬ Reaches (b.io b.pos) := fun h => hready ⟨h.found, h.switched, h.described⟩
    rw [if_neg hready, if_neg hno, decide_eq_false fun h => hno h.1]
    exact ⟨_, rfl, hold _ rfl, rfl, rfl, rfl, rfl⟩

/-- What the command does once it gets as far as the save: the answer and the two stores. -/
theorem saveAndReset_run (c : ControlBlock) (wipeRam : Bool) (b : Board) :
    ∃ b', (saveAndReset dev c wipeRam).run b =
      (some (if Reaches (b.io b.pos) ∧ (b.io b.pos).moved = true then fastbootOkay
        else fastbootFail (ascii "save control block failed")), b') ∧
      lockFlags (stored dev b') = (if Reaches (b.io b.pos) then lockFlags c else lockFlags (stored dev b)) ∧
      b'.user = if Reaches (b.io b.pos) ∧ (b.io b.pos).moved = true then wiped dev b (b.pos + 1) else b.user := by
  obtain ⟨b1, hsave, hflags, huser, hio, hpos, henv⟩ := save_reaches dev c b
  unfold saveAndReset
  rw [run_bind_of_some hsave, ← hflags]
  by_cases hok : Reaches (b.io b.pos) ∧ (b.io b.pos).moved = true
  · have hwiped : wiped dev b1 b1.pos = wiped dev b (b.pos + 1) := by
      have hstarts : WipeStarts b1 b1.pos ↔ WipeStarts b (b.pos + 1) := by
        unfold WipeStarts
        rw [hpos, hio]
      unfold wiped
      simp only [partGetInfo_of_same dev huser henv, hstarts]
      simp only [huser, hio, hpos]
    obtain ⟨ok, p, hwipe⟩ := setWipeData_run dev b1
    rw [decide_eq_true hok, if_neg (by decide), if_pos hok, if_pos hok, run_bind_of_some hwipe, hwiped]
    cases wipeRam with
    | false => exact ⟨_, rfl, stored_congr dev rfl ▸ rfl, rfl⟩
    | true => exact ⟨_, rfl, stored_congr dev rfl ▸ rfl, rfl⟩
  · rw [decide_eq_false hok, if_pos (by rfl), if_neg hok, if_neg hok]
    exact ⟨b1, rfl, rfl, huser⟩

/-! ## The two stores after a command -/

/-- The command returns; a change of the lock words comes with the request to wipe and the answer OKAY, and
another answer with no change. -/
def WipesOnChange (cmdString : CStr) (b : Board) : Prop :=
  ∃ response b', (fastbootCbFlashing dev cmdString).run b = (some response, b') ∧
    (lockFlags (stored dev b') ≠ lockFlags (stored dev b) → WipeRequested dev b b'.user ∧ response = fastbootOkay) ∧
    (response ≠ fastbootOkay → lockFlags (stored dev b') = lockFlags (stored dev b))

/-- A block that changes the lock words is written by a save that reports success, and the request to wipe
reaches its message or stands there already. -/
def LockChangeFits (cmdString : CStr) (b : Board) : Prop :=
  let cmd := flashingArgument dev cmdString
  ∀ ret ctrlb b1 c, (fastbootLoadControlBlock dev).run b = (some (ret, ctrlb), b1) → ret ≠ .FB_ERR_GENERIC →
    lockEdit cmd (blockAfterLoad ret ctrlb) = some c → Authorised b cmd → Reaches (b.io (savePos b cmd)) →
    lockFlags c ≠ lockFlags (stored dev b) →
      (b.io (savePos b cmd)).moved = true ∧
        ∃ info, partGetInfo dev b (ascii "misc") = some info ∧
          (Requests b.user (info.start * BLKSZ) ∨ WipeReaches b (savePos b cmd + 1))

theorem access_total : Total (fun _ => True) access := .of_run fun _ => ⟨_, _, rfl⟩

theorem saveAndReset_total (c : ControlBlock) (wipeRam : Bool) : Total (fun _ => True) (saveAndReset dev c wipeRam) :=
  .of_run fun b => by
    obtain ⟨b', hrun, -⟩ := saveAndReset_run dev c wipeRam b
    exact ⟨_, b', hrun⟩

theorem unlockTo_total (c : ControlBlock) : Total (fun _ => True) (unlockTo dev c) := by
  have hconfirmed : Total (fun _ => True) isUserConfirmed := by
    refine .bind (.of_run fun _ => ⟨_, _, rfl⟩) fun b => ?_
    split
    · exact .pure _
    · exact access_total.bind fun _ => .pure _
  refine .bind (access_total.bind fun _ => .pure _) fun allowed => ?_
  split
  · exact .pure _
  · refine hconfirmed.bind fun confirmed => ?_
    split
    · exact .pure _
    · exact saveAndReset_total dev c true

/-- The command returns on every board. -/
theorem flashing_total (cmdString : CStr) : Total (fun _ => True) (fastbootCbFlashing dev cmdString) := by
  have hload : Total (fun _ => True) (fastbootLoadControlBlock dev) := .of_run fun b => by
    obtain ⟨r, hrun⟩ := load_run dev b
    exact ⟨r, _, hrun⟩
  refine hload.bind fun ⟨ret, ctrlb⟩ => ?_
  dsimp only
  split
  · exact .pure _
  · unfold flashingCommand
    split_ifs
    · exact saveAndReset_total dev _ false
    · exact unlockTo_total dev _
    · exact saveAndReset_total dev _ false
    · exact unlockTo_total dev _
    · exact .bind (access_total.bind fun _ => .pure _) fun _ => .of_run fun _ => ⟨_, _, rfl⟩
    · exact .pure _

theorem fastbootFail_ne_okay (reason : CStr) : fastbootFail reason ≠ fastbootOkay := by
  intro h
  have hfirst := congrArg (List.take 1) h
  rw [fastbootFail, fastbootResponse, List.take_append_of_le_length (by decide)] at hfirst
  exact absurd hfirst (by decide)

theorem wipesOnChange_iff (cmdString : CStr) (b : Board) :
    WipesOnChange dev cmdString b ↔ LockChangeFits dev cmdString b := by
  obtain ⟨response, b', hrun⟩ := (flashing_total dev cmdString).returns (s := b) trivial
  have hprop : WipesOnChange dev cmdString b ↔
      (lockFlags (stored dev b') ≠ lockFlags (stored dev b) → WipeRequested dev b b'.user ∧ response = fastbootOkay) ∧
      (response ≠ fastbootOkay → lockFlags (stored dev b') = lockFlags (stored dev b)) := by
    constructor
    · rintro ⟨response', b'', hrun', h⟩
      obtain ⟨rfl, rfl⟩ := run_unique hrun hrun'
      exact h
    · exact fun h => ⟨response, b', hrun, h⟩
  rw [hprop]
  unfold LockChangeFits
  dsimp only
  generalize hcmd : flashingArgument dev cmdString = cmd
  by_cases hgo : ∃ ret ctrlb b1 c, (fastbootLoadControlBlock dev).run b = (some (ret, ctrlb), b1) ∧ ret ≠ .FB_ERR_GENERIC ∧
      lockEdit cmd (blockAfterLoad ret ctrlb) = some c ∧ Authorised b cmd
  · obtain ⟨ret, ctrlb, b1, c, hload, hret, hedit, hauth⟩ := hgo
    obtain ⟨wipeRam, hstart⟩ := flashing_run dev hload hret (hcmd.symm ▸ hedit) (hcmd.symm ▸ hauth)
    rw [hcmd] at hstart
    obtain ⟨b2, hsave, hflags, huser⟩ := saveAndReset_run dev c wipeRam { b with pos := savePos b cmd }
    obtain ⟨rfl, rfl⟩ := run_unique hrun (hstart.trans hsave)
    dsimp only at hflags huser
    have hstored : stored dev { b with pos := savePos b cmd } = stored dev b := stored_congr dev rfl
    rw [hstored] at hflags
    have hwiped : wiped dev { b with pos := savePos b cmd } (savePos b cmd + 1) = wiped dev b (savePos b cmd + 1) := rfl
    rw [hwiped] at huser
    -- the load has one result, so the condition is about one block
    have honly : (∀ ret ctrlb b1 c, (fastbootLoadControlBlock dev).run b = (some (ret, ctrlb), b1) → ret ≠ .FB_ERR_GENERIC →
        lockEdit cmd (blockAfterLoad ret ctrlb) = some c → Authorised b cmd → Reaches (b.io (savePos b cmd)) →
        lockFlags c ≠ lockFlags (stored dev b) →
          (b.io (savePos b cmd)).moved = true ∧
            ∃ info, partGetInfo dev b (ascii "misc") = some info ∧
              (Requests b.user (info.start * BLKSZ) ∨ WipeReaches b (savePos b cmd + 1))) ↔
        (Reaches (b.io (savePos b cmd)) → lockFlags c ≠ lockFlags (stored dev b) →
          (b.io (savePos b cmd)).moved = true ∧ WipeRequested dev b (wiped dev b (savePos b cmd + 1))) := by
      rw [wipeRequested_iff]
      constructor
      · exact fun h => h ret ctrlb b1 c hload hret hedit hauth
      · intro h ret' ctrlb' b1' c' hload' hret' hedit' hauth'
        obtain ⟨hr, -⟩ := run_unique hload' hload
        obtain ⟨rfl, rfl⟩ := Prod.mk.inj hr
        obtain rfl : c' = c := Option.some.inj (hedit'.symm.trans hedit)
        exact h
    rw [honly, hflags, huser]
    have hfail := fastbootFail_ne_okay (ascii "save control block failed")
    by_cases hreaches : Reaches (b.io (savePos b cmd))
    · by_cases hmoved : (b.io (savePos b cmd)).moved = true
      · simp [hreaches, hmoved]
      · simp [hreaches, hmoved, hfail]
    · simp [hreaches]
  · have hkept : LockKept dev b b' := by
      have hcases := flashing_cases dev cmdString b
      dsimp only at hcases
      rw [hrun, hcmd] at hcases
      refine hcases.resolve_right ?_
      rintro ⟨ret, ctrlb, b1, c, hload, hret, hedit, hauth, -⟩
      exact hgo ⟨ret, ctrlb, b1, c, hload, hret, hedit, hauth⟩
    have hflags : lockFlags (stored dev b') = lockFlags (stored dev b) := by rw [hkept.stored_eq]
    refine ⟨fun _ ret ctrlb b1 c hload hret hedit hauth => ?_, fun _ => ⟨fun hne => absurd hflags hne, fun _ => hflags⟩⟩
    exact absurd ⟨ret, ctrlb, b1, c, hload, hret, hedit, hauth⟩ hgo

/-! ## A failing access -/

/-- A device with a partition for the message. -/
def deviceWithMisc : Device :=
  { plainDevice with
    lookup := fun _ name => if name = ascii "misc" then some ⟨64, 8⟩ else none
    lookup_outside := fun _ _ _ => rfl }

def bothUnlocked : ControlBlock := ⟨FASTBOOT_MAGIC_UNLOCKED, FASTBOOT_MAGIC_UNLOCKED, fun _ => 0, 0⟩

/-- The lock is stored, the message cannot be read, and the answer is OKAY. -/
theorem lock_without_wipe : ¬ ∀ dev cmdString b, WipesOnChange dev cmdString b := by
  intro h
  obtain ⟨response, b', hrun, hwipes, -⟩ := h deviceWithMisc (ascii "flashing lock")
    (boardOf bothUnlocked fun n => if n = 2 then { smooth with found := false } else smooth)
  have hb' := congrArg Prod.snd hrun
  dsimp only at hb'
  obtain ⟨⟨info, hinfo, hrequests, -⟩, -⟩ := hwipes (by rw [← hb']; decide +kernel)
  obtain rfl := Option.some.inj hinfo
  have hcommand := hrequests.command
  rw [← hb'] at hcommand
  revert hcommand
  decide +kernel

end RCar.Fastboot
