import RCarM3N.Proofs.FbSteps

/-! The lock state where loads and saves may fail. Along runs of commands and rollback updates a
locked device stays closed, where the loads that the locks depend on go through, no lock is edited
after a damaged load, and no save fails once its block has reached the storage. -/

namespace RCar.Fastboot

open Prog

variable (dev : Device)

/-- The mark tells the stored block, and no boot is pending. -/
structure Sound (b : Board) : Prop where
  stored : stored dev b = b.saved
  intact : b.saved.Intact
  complete : b.complete ≠ .bootm

def Locked (c : ControlBlock) : Prop := mmcLocked c = true ∨ iplLocked c = true

/-- A flash, an erase or a format that the locks of the block forbid. -/
def Forbidden (ctrlb : ControlBlock) (c : Command) (cmdString : CStr) : Prop :=
  ((c = .FLASH ∨ c = .ERASE) ∧
      ∃ name, (strsep cmdString 58).2 = some name ∧ deviceLocked name (some (flagsOf ctrlb)) = true) ∨
    c = .OEM ∧ (oemArguments dev cmdString).1 = ascii "format" ∧ Locked ctrlb

/-- A question for the variable `unlocked`, or for all of them. -/
def AsksLock (c : Command) (cmdString : CStr) : Prop :=
  c = .GETVAR ∧ (getvarArgument dev cmdString = ascii "all" ∨ getvarArgument dev cmdString = ascii "unlocked")

/-! ## Steps -/

/-- The condition on a step, over the saved block and the accesses to come. -/
structure Reliable (b : Board) (e : Event) : Prop where
  loads : ∀ data c cmdString, e = .transfer data → request b data = some (c, cmdString) →
    Forbidden dev b.saved c cmdString ∨ AsksLock dev c cmdString ∧ mmcLocked b.saved = true →
      Transferred (b.io b.pos)
  edits : ∀ data cmdString, e = .transfer data → request b data = some (.FLASHING, cmdString) →
    let cmd := flashingArgument dev cmdString
    cmd ∈ lockWords → Authorised b cmd → Reaches (b.io (savePos b cmd)) →
      (Locked b.saved → LoadClean (b.io b.pos)) ∧ (b.io (savePos b cmd)).moved = true
  rollbacks : ∀ location idx, e = .setRollbackIndex location idx → location < MAX_ROLLBACK_LOCATIONS →
    Transferred (b.io b.pos) → Reaches (b.io (b.pos + 1)) → (b.io (b.pos + 1)).moved = true
  images : ∀ data cmdString name, e = .transfer data → request b data = some (.FLASH, cmdString) →
    (strsep cmdString 58).2 = some name → deviceLocked name (some (flagsOf b.saved)) = false →
      flashTarget dev b name = .bootloader → BlockSafe dev b
  boots : ∀ data cmdString, e = .transfer data → request b data = some (.BOOT, cmdString) →
    BootSafe dev b ∧ ∀ s, b.env (ascii "fastboot_bootcmd") = some s → (dev.runCommand s (booting b)).sent = []

/-- The event is the command of `flashing` with the word. -/
def Names (b : Board) (e : Event) (word : CStr) : Prop :=
  ∃ data cmdString, e = .transfer data ∧ request b data = some (.FLASHING, cmdString) ∧
    flashingArgument dev cmdString = word

variable (vars : Variables)

/-- What a locked device does with an event, and what its next load returns. -/
structure StaysClosed (b : Board) (e : Event) : Prop where
  forbidden : ∀ data c cmdString, e = .transfer data → request b data = some (c, cmdString) →
    Forbidden dev b.saved c cmdString →
      let b' := (handle dev vars b e).2
      b'.user = b.user ∧ b'.boot1 = b.boot1 ∧ b'.boot2 = b.boot2 ∧ b'.hyper = b.hyper
  lines : ∀ line ∈ (handle dev vars b e).2.sent, ¬ Lie b.saved line
  answer : ∀ data cmdString response, e = .transfer data → request b data = some (.GETVAR, cmdString) →
    getvarArgument dev cmdString = ascii "unlocked" → mmcLocked b.saved = true →
      (handle dev vars b e).1 = some response → response = ascii "OKAYno"
  mmc : mmcLocked b.saved = true → ¬ Names dev b e (ascii "unlock") →
    mmcLocked (stored dev (handle dev vars b e).2) = true
  ipl : iplLocked b.saved = true → ¬ Names dev b e (ascii "unlock_critical") →
    iplLocked (stored dev (handle dev vars b e).2) = true
  counters : Locked b.saved → ∀ k : Fin MAX_ROLLBACK_LOCATIONS, (∀ idx, e ≠ .setRollbackIndex k idx) →
    b.saved.rollbackCnt k ≤ (stored dev (handle dev vars b e).2).rollbackCnt k
  load : ∀ c b1, (fastbootLoadControlBlock dev).run (handle dev vars b e).2 = (some (.FB_OK, c), b1) →
    c = (handle dev vars b e).2.saved.cleared

theorem Sound.readable {b : Board} (h : Sound dev b) (ht : Transferred (b.io b.pos)) : Readable dev b :=
  ⟨ht, by rw [h.stored]; exact h.intact⟩

theorem Reliable.flashSafe {b : Board} {data : List UInt8} {cmdString : CStr} (hs : Sound dev b)
    (h : Reliable dev b (.transfer data)) (hreq : request b data = some (.FLASH, cmdString)) :
    FlashSafe dev (fresh b) cmdString := by
  intro name status b0 hname hload hlock htarget
  rw [flashTarget_fresh] at htarget
  cases hflags : deviceLocked name (some (flagsOf b.saved)) with
  | false => exact (h.images data cmdString name rfl hreq hname hflags htarget).fresh
  | true =>
    -- a name that the saved flags lock is read as locked
    have ht := h.loads data _ cmdString rfl hreq (Or.inl (Or.inl ⟨Or.inl rfl, name, hname, hflags⟩))
    obtain rfl := status_eq dev (hs.readable dev ht).fresh hload
    have hsame : stored dev (fresh b) = b.saved := hs.stored
    rw [hsame, hflags] at hlock
    cases hlock

theorem Reliable.safe {b : Board} {e : Event} (hs : Sound dev b) (h : Reliable dev b e) : EventSafe dev b e := by
  rintro data c cmdString rfl hreq
  exact ⟨fun hc => h.flashSafe dev hs (hc ▸ hreq), fun hc => (h.boots data cmdString rfl (hc ▸ hreq)).1⟩

/-- An edit that is made under the condition starts from the saved block, if it is locked, and reports
success. -/
theorem edit_reliable {b : Board} {e : Event} {c : ControlBlock} {p : ℕ} (hs : Sound dev b) (h : Reliable dev b e)
    (hedit : Edit dev b e c p) (hreaches : Reaches (b.io p)) :
    (b.io p).moved = true ∧ (Locked b.saved →
      (mmcLocked b.saved = true → ¬ Names dev b e (ascii "unlock") → mmcLocked c = true) ∧
      (iplLocked b.saved = true → ¬ Names dev b e (ascii "unlock_critical") → iplLocked c = true) ∧
      ∀ k : Fin MAX_ROLLBACK_LOCATIONS, (∀ idx, e ≠ .setRollbackIndex k idx) →
        b.saved.rollbackCnt k ≤ c.rollbackCnt k) := by
  have hsame : stored dev (fresh b) = b.saved := hs.stored
  cases hedit with
  | @flashing data cmdString ret ctrlb c b1 hreq hload hret hedit hauth =>
    have hword := lockEdit_some hedit
    obtain ⟨hclean, hmoved⟩ := h.edits data cmdString rfl hreq hword.word hauth hreaches
    refine ⟨hmoved, fun hlocked => ?_⟩
    obtain ⟨rfl, rfl⟩ := load_clean dev (b := fresh b) (hclean hlocked) (by rw [hsame]; exact hs.intact) hload hret
    rw [hsame] at hword
    refine ⟨fun hm hne => hword.mmc hm fun hcmd => hne ⟨data, cmdString, rfl, hreq, hcmd⟩,
      fun hi hne => hword.ipl hi fun hcmd => hne ⟨data, cmdString, rfl, hreq, hcmd⟩, fun k _ => ?_⟩
    rw [hword.counters]
    exact UInt64.le_refl _
  | @rollback location idx k ctrlb b1 hload hk =>
    obtain ⟨htransferred, rfl⟩ := load_ok_cases dev hload
    rw [hsame]
    refine ⟨h.rollbacks location idx rfl (hk ▸ k.isLt) htransferred hreaches, fun _ =>
      ⟨fun hm _ => hm, fun hi _ => hi, fun j hj => ?_⟩⟩
    -- the counter that the update names is not the one
    have hne : j ≠ k := fun hjk => hj idx (by rw [hjk, hk])
    simp only [Function.update_of_ne hne]
    exact UInt64.le_refl _

/-- The device stays sound. -/
theorem sound_step {b : Board} {e : Event} (hs : Sound dev b) (h : Reliable dev b e) :
    Sound dev (handle dev vars b e).2 := by
  obtain ⟨hcomplete, hrest | ⟨c, p, hedit, hwritten⟩⟩ := handle_block dev vars hs.complete (h.safe dev hs)
  · exact ⟨by rw [hrest.stored, hrest.saved]; exact hs.stored, by rw [hrest.saved]; exact hs.intact, hcomplete⟩
  · have hmoved := (edit_reliable dev hs h hedit hwritten.reaches).1
    have hsaved : (handle dev vars b e).2.saved = c.sealed := by
      rcases hwritten.saved with hsaved | ⟨-, hnot⟩
      · exact hsaved
      · rw [hmoved] at hnot
        cases hnot
    refine ⟨hwritten.stored.trans hsaved.symm, ?_, hcomplete⟩
    rw [hsaved]
    exact c.intact_sealed

/-! ## Forbidden commands -/

/-- A name that the flags lock is refused, if they can be read. -/
theorem refused_run {b : Board} {name : CStr} (act : Prog Board CStr) (hread : Readable dev b)
    (hlock : deviceLocked name (some (flagsOf (stored dev b))) = true) :
    (Prog.run (do
      if deviceLocked name (← fastbootGetLockStatus dev) then
        return fastbootFail (ascii "flash device locked")
      act) b).2 = { b with pos := b.pos + 1 } := by
  rw [run_bind_of_some (getLockStatus_readable dev hread), if_pos hlock]
  rfl

theorem forbidden_idle {b : Board} {c : Command} {cmdString : CStr} (hread : Readable dev b)
    (h : Forbidden dev (stored dev b) c cmdString) : Idle b ((dispatch dev vars cmdString c).run b).2 := by
  rcases h with ⟨hc, name, hname, hlock⟩ | ⟨rfl, hformat, hlocked⟩
  · rcases hc with rfl | rfl
    · change Idle b ((flash dev cmdString).run b).2
      unfold flash
      rw [hname]
      dsimp only
      rw [refused_run dev _ hread hlock]
      exact access_idle b
    · change Idle b ((erase dev cmdString).run b).2
      unfold erase
      rw [hname]
      dsimp only
      rw [refused_run dev _ hread hlock]
      exact access_idle b
  · exact oemFormat_idle dev hread hformat (Or.symm hlocked)

theorem Forbidden.not_boot {ctrlb : ControlBlock} {c : Command} {cmdString : CStr}
    (h : Forbidden dev ctrlb c cmdString) : c ≠ .BOOT := by
  rintro rfl
  rcases h with ⟨h | h, -⟩ | ⟨h, -⟩ <;> cases h

/-- A handler that does nothing leaves the storage as it is after the whole step. -/
theorem idle_step {b : Board} {data : List UInt8} {c : Command} {cmdString : CStr} (hboot : b.complete ≠ .bootm)
    (hreq : request b data = some (c, cmdString)) (hc : c ≠ .BOOT) (hsafe : c = .FLASH → FlashSafe dev (fresh b) cmdString)
    (hidle : Idle (fresh b) ((dispatch dev vars cmdString c).run (fresh b)).2) :
    let b' := (handle dev vars b (.transfer data)).2
    b'.user = b.user ∧ b'.boot1 = b.boot1 ∧ b'.boot2 = b.boot2 ∧ b'.hyper = b.hyper := by
  intro b'
  obtain ⟨-, hend | hend⟩ := handle_settled dev vars hreq hc hboot hsafe
  · have hb' : b' = _ := hend
    rw [hb']
    exact ⟨hidle.user, hidle.boot1, hidle.boot2, hidle.hyper⟩
  · exact ⟨hend.user.trans hidle.user, hend.boot1.trans hidle.boot1, hend.boot2.trans hidle.boot2,
      hend.hyper.trans hidle.hyper⟩

theorem forbidden_step {b : Board} {data : List UInt8} {c : Command} {cmdString : CStr} (hs : Sound dev b)
    (h : Reliable dev b (.transfer data)) (hreq : request b data = some (c, cmdString))
    (hforbidden : Forbidden dev b.saved c cmdString) :
    let b' := (handle dev vars b (.transfer data)).2
    b'.user = b.user ∧ b'.boot1 = b.boot1 ∧ b'.boot2 = b.boot2 ∧ b'.hyper = b.hyper := by
  have hread := hs.readable dev (h.loads data c cmdString rfl hreq (Or.inl hforbidden))
  refine idle_step dev vars hs.complete hreq (hforbidden.not_boot dev) (fun hc => h.flashSafe dev hs (hc ▸ hreq)) ?_
  refine forbidden_idle dev vars hread.fresh ?_
  have hsame : stored dev (fresh b) = b.saved := hs.stored
  rw [hsame]
  exact hforbidden

/-! ## What the host is told -/

theorem Sound.flagsOf {b : Board} (h : Sound dev b) : FlagsOf dev b.saved (fresh b) := congrArg Fastboot.flagsOf h.stored

theorem AsksLock.readWhenLocked {b : Board} {data : List UInt8} {c : Command} {cmdString : CStr} (hs : Sound dev b)
    (h : Reliable dev b (.transfer data)) (hreq : request b data = some (c, cmdString))
    (hasks : AsksLock dev c cmdString) : ReadWhenLocked dev b.saved (fresh b) := by
  intro hlocked
  have ht := h.loads data c cmdString rfl hreq (Or.inr ⟨hasks, hlocked⟩)
  exact ⟨(hs.readable dev ht).fresh, hs.flagsOf dev⟩

theorem lines_step {b : Board} {e : Event} (hs : Sound dev b) (h : Reliable dev b e) :
    ∀ line ∈ (handle dev vars b e).2.sent, ¬ Lie b.saved line := by
  -- a step starts with no line
  have hhonest : ∀ s : Board, Honest b.saved (fresh b) s → ∀ line ∈ s.sent, ¬ Lie b.saved line := by
    intro s hs line hline
    rcases hs line hline with hnone | hnot
    · cases hnone
    · exact hnot
  cases e with
  | setRollbackIndex location idx => exact hhonest _ (setRollbackIndex_honest dev b.saved location idx (fresh b))
  | transfer data =>
    cases hreq : request b data with
    | none =>
      simp only [handle, hreq]
      split <;> exact fun _ hline => absurd hline (by simp)
    | some r =>
      obtain ⟨c, cmdString⟩ := r
      by_cases hc : c = .BOOT
      · subst hc
        rw [handle_boot dev vars hreq, fastbootBoot]
        cases hcmd : (booting b).env (ascii "fastboot_bootcmd") with
        | some s =>
          have hsent : ({ dev.runCommand s (booting b) with complete := .nothing } : Board).sent = [] :=
            (h.boots data cmdString rfl hreq).2 s hcmd
          rw [hsent]
          exact fun _ hline => absurd hline (by simp)
        | none => exact fun _ hline => absurd hline (by simp [restart, booting, fresh])
      · have hsafe := fun hc : c = .FLASH => h.flashSafe dev hs (hc ▸ hreq)
        have hread : c = .GETVAR → getvarArgument dev cmdString = ascii "all" → ReadWhenLocked dev b.saved (fresh b) :=
          fun hgetvar hall => AsksLock.readWhenLocked dev hs h hreq ⟨hgetvar, Or.inl hall⟩
        have hb1 := hhonest _ (dispatch_honest dev b.saved vars (hs.flagsOf dev) hread)
        obtain ⟨-, hend | hend⟩ := handle_settled dev vars hreq hc hs.complete hsafe
        · rw [hend]
          exact hb1
        · rw [hend.sent]
          exact hb1

theorem answer_step {b : Board} {data : List UInt8} {cmdString response : CStr} (hs : Sound dev b)
    (h : Reliable dev b (.transfer data)) (hreq : request b data = some (.GETVAR, cmdString))
    (hvar : getvarArgument dev cmdString = ascii "unlocked") (hlocked : mmcLocked b.saved = true)
    (hanswer : (handle dev vars b (.transfer data)).1 = some response) : response = ascii "OKAYno" := by
  have hread := AsksLock.readWhenLocked dev hs h hreq ⟨rfl, Or.inr hvar⟩
  rcases handle_request dev vars hreq with hend | ⟨response', hrun, hend⟩ <;> rw [hend] at hanswer
  · cases hanswer
  · cases hanswer
    exact getvar_unlocked dev b.saved vars hread hlocked hvar hrun

/-! ## Runs -/

theorem closed_step {b : Board} {e : Event} (hs : Sound dev b) (h : Reliable dev b e) : StaysClosed dev vars b e := by
  have hsound := sound_step dev vars hs h
  have hflags : (mmcLocked b.saved = true → ¬ Names dev b e (ascii "unlock") →
        mmcLocked (stored dev (handle dev vars b e).2) = true) ∧
      (iplLocked b.saved = true → ¬ Names dev b e (ascii "unlock_critical") →
        iplLocked (stored dev (handle dev vars b e).2) = true) ∧
      (Locked b.saved → ∀ k : Fin MAX_ROLLBACK_LOCATIONS, (∀ idx, e ≠ .setRollbackIndex k idx) →
        b.saved.rollbackCnt k ≤ (stored dev (handle dev vars b e).2).rollbackCnt k) := by
    obtain ⟨-, hrest | ⟨c, p, hedit, hwritten⟩⟩ := handle_block dev vars hs.complete (h.safe dev hs)
    · rw [hrest.stored, hs.stored]
      exact ⟨fun hm _ => hm, fun hi _ => hi, fun _ _ _ => UInt64.le_refl _⟩
    · have hkept := (edit_reliable dev hs h hedit hwritten.reaches).2
      rw [hwritten.stored]
      exact ⟨fun hm hne => (hkept (Or.inl hm)).1 hm hne, fun hi hne => (hkept (Or.inr hi)).2.1 hi hne,
        fun hl => (hkept hl).2.2⟩
  refine ⟨fun data c cmdString he hreq hforbidden => ?_, lines_step dev vars hs h,
    fun data cmdString response he hreq hvar hlocked hanswer => ?_, hflags.1, hflags.2.1, hflags.2.2,
    fun c b1 hload => ?_⟩
  · subst he
    exact forbidden_step dev vars hs h hreq hforbidden
  · subst he
    exact answer_step dev vars hs h hreq hvar hlocked hanswer
  · rw [← hsound.stored]
    exact load_ok dev hload

def ReliableStep (b : Board) (e : Event) (b' : Board) : Prop := Reliable dev b e ∧ b' = (handle dev vars b e).2

/-- Along reliable runs the lock state fails closed, and every load that succeeds returns the block of
the last save that has. -/
theorem run_failsClosed {b b' : Board} {l : List (Board × Event × Board)} (hs : Sound dev b)
    (h : Runs (ReliableStep dev vars) b l b') :
    Sound dev b' ∧ ∀ x ∈ l, StaysClosed dev vars x.1 x.2.1 := by
  refine Runs.invariant (I := Sound dev) (P := fun b e _ => StaysClosed dev vars b e) ?_ hs h
  rintro b e b' hs ⟨hreliable, rfl⟩
  exact ⟨sound_step dev vars hs hreliable, closed_step dev vars hs hreliable⟩

/-! ## Steps on fixed boards -/

theorem boardOf_sound (ctrlb : ControlBlock) (io : ℕ → Outcome) : Sound plainDevice (boardOf ctrlb io) := by
  refine ⟨ControlBlock.ofMem_of_bytes fun i hi => ?_, ctrlb.intact_sealed, by simp [boardOf]⟩
  have hboot2 : (boardOf ctrlb io).boot2 =
    Mem.copy (fun _ => 0) (cbOffset plainDevice) (Mem.ofList ctrlb.sealed.bytes) 0 ControlBlock.SIZE := by
    simp only [boardOf]
  rw [hboot2, Mem.copy_add _ _ _ _ _ _ hi, Nat.zero_add]
  rfl

/-- The device of the first access is not found. -/
def firstFails (n : ℕ) : Outcome := if n = 0 then { smooth with found := false } else smooth

/-- With `mmc_lock` set, `flash:bl2.bin` after a load that fails writes the loader. -/
theorem load_failure_flashes : ¬ ∀ (dev : Device) (vars : Variables) (b b' : Board)
    (l : List (Board × Event × Board)), Sound dev b →
    Runs (fun b e b' => b' = (handle dev vars b e).2) b l b' → ∀ x ∈ l, StaysClosed dev vars x.1 x.2.1 := by
  intro h
  let b := boardOf mmcOnly firstFails
  let data := ascii "flash:bl2.bin"
  have hclosed := h plainDevice plainVariables b _ [(b, .transfer data, _)] (boardOf_sound _ _)
    (.cons rfl (.nil _)) _ (List.mem_singleton_self _)
  have hreq : request b data = some (.FLASH, data) := by decide +kernel
  have hname : (strsep data 58).2 = some (ascii "bl2.bin") := by decide +kernel
  have hlock : deviceLocked (ascii "bl2.bin") (some (flagsOf b.saved)) = true := by decide +kernel
  have hhyper := (hclosed.forbidden data _ _ rfl hreq (Or.inl ⟨Or.inl rfl, _, hname, hlock⟩)).2.2.2
  have hbyte := congrFun hhyper 0x140000
  revert hbyte
  decide +kernel

/-- With `mmc_lock` set and accesses that go through, `flashing lock_critical` keeps it. -/
theorem lock_critical_stays_closed :
    StaysClosed plainDevice plainVariables (boardOf mmcOnly fun _ => smooth)
      (.transfer (ascii "flashing lock_critical")) := by
  let b := boardOf mmcOnly fun _ => smooth
  have hend : writeBlocks b.imageSize * BLKSZ ≤ cbOffset plainDevice := by decide +kernel
  refine (run_failsClosed plainDevice plainVariables (boardOf_sound _ _)
    (.cons ⟨?_, rfl⟩ (.nil _))).2 _ (List.mem_singleton_self _)
  refine ⟨fun _ _ _ _ _ _ => ⟨rfl, rfl, rfl, rfl, rfl⟩, fun _ _ _ _ _ _ _ => ⟨fun _ _ _ => ⟨rfl, fun _ => rfl⟩, rfl⟩,
    fun _ _ _ _ _ _ => rfl, fun _ _ _ _ _ _ _ _ slot _ _ i _ hreach => ?_, fun _ _ _ _ => ⟨fun _ hs => (by cases hs), fun _ hs => (by cases hs)⟩⟩
  have hlt : cbOffset plainDevice + i < writeBlocks b.imageSize * BLKSZ := hreach
  omega

end RCar.Fastboot
