import RCarM3N.Lib.Runs
import RCarM3N.Proofs.FbStorage

/-! The locks against flashing. Along runs of `flash`, `erase` and `oem format` with a readable
control block, what the locks protect is as it was, where no step passes the check of one name
towards storage that the other lock protects. -/

namespace RCar.Fastboot

open Prog

variable (dev : Device)

/-! ## Readable blocks -/

/-- The control block in the storage. -/
def stored (b : Board) : ControlBlock := ControlBlock.ofMem b.boot2 (cbOffset dev)

/-- The next access reads what is stored. -/
structure Transferred (a : Outcome) : Prop where
  found : a.found = true
  switched : a.switched = true
  described : a.described = true
  moved : a.moved = true
  garbled : a.garbled = none

structure Readable (b : Board) : Prop where
  transferred : Transferred (b.io b.pos)
  intact : (stored dev b).Intact

def mmcLocked (c : ControlBlock) : Bool := c.mmcLock = FASTBOOT_MAGIC_LOCKED

def iplLocked (c : ControlBlock) : Bool := c.iplLock = FASTBOOT_MAGIC_LOCKED

/-- What the lock status says of a block. -/
def flagsOf (c : ControlBlock) : Bool × Bool := (mmcLocked c, iplLocked c)

theorem load_readable {b : Board} (h : Readable dev b) :
    (fastbootLoadControlBlock dev).run b =
      (some (.FB_OK, (stored dev b).cleared), { b with pos := b.pos + 1 }) := by
  obtain ⟨⟨hfound, hswitched, hdescribed, hmoved, hgarbled⟩, hintact⟩ := h
  have hok : (ControlBlock.ofMem b.boot2 (cbOffset dev)).Intact := hintact
  unfold fastbootLoadControlBlock
  have haccess : access.run b = (some (b.io b.pos), { b with pos := b.pos + 1 }) := rfl
  have hget : ∀ s : Board, Prog.get.run s = (some s, s) := fun _ => rfl
  rw [run_bind_of_some haccess, run_bind_of_some (hget _)]
  simp only [hfound, hswitched, hdescribed, hmoved, hgarbled, hok, Bool.not_true, Bool.false_eq_true,
    if_false, if_true]
  rfl

theorem getLockStatus_readable {b : Board} (h : Readable dev b) :
    (fastbootGetLockStatus dev).run b =
      (some (some (flagsOf (stored dev b))), { b with pos := b.pos + 1 }) := by
  unfold fastbootGetLockStatus
  rw [run_bind_of_some (load_readable dev h)]
  rfl

theorem LockKept.stored_eq {b b' : Board} (h : LockKept dev b b') : stored dev b' = stored dev b :=
  ControlBlock.ofMem_congr h.block

/-! ## After the answer -/

/-- What the completion of an answer may change: the environment, to the stored one, and the
session. -/
structure Settled (b b' : Board) : Prop where
  user : b'.user = b.user
  boot1 : b'.boot1 = b.boot1
  boot2 : b'.boot2 = b.boot2
  hyper : b'.hyper = b.hyper
  saved : b'.saved = b.saved
  savedEnv : b'.savedEnv = b.savedEnv
  io : b'.io = b.io
  sent : b'.sent = b.sent
  env : b'.env = b.env ∨ b'.env = b.savedEnv
  complete : b'.complete = .nothing

theorem restart_settled (b : Board) : Settled b (restart b) :=
  ⟨rfl, rfl, rfl, rfl, rfl, rfl, rfl, rfl, Or.inr rfl, rfl⟩

theorem completed_settled {b : Board} (h : b.complete = .bootm → b.env (ascii "fastboot_bootcmd") = none) :
    Settled b (completed dev b) := by
  unfold completed
  cases hc : b.complete with
  | nothing => exact ⟨rfl, rfl, rfl, rfl, rfl, rfl, rfl, rfl, Or.inl rfl, hc⟩
  | bootm =>
    simp only [fastbootBoot, h hc]
    exact restart_settled b
  | exit => exact ⟨rfl, rfl, rfl, rfl, rfl, rfl, rfl, rfl, Or.inl rfl, rfl⟩
  | reset => exact restart_settled b

theorem queueAnswer_settled (c : Command) (response : CStr) (b : Board) :
    let q := queueAnswer c response b
    (q.user = b.user ∧ q.boot1 = b.boot1 ∧ q.boot2 = b.boot2 ∧ q.hyper = b.hyper ∧ q.saved = b.saved ∧
      q.savedEnv = b.savedEnv ∧ q.io = b.io ∧ q.sent = b.sent ∧ q.env = b.env) ∧
      (q.complete = b.complete ∨ q.complete = completionOf c b.complete) := by
  intro q
  unfold q queueAnswer
  split <;> split
  all_goals exact ⟨⟨rfl, rfl, rfl, rfl, rfl, rfl, rfl, rfl, rfl⟩, by simp⟩

theorem answered_settled {b : Board} {c : Command} (response : CStr) (hb : b.complete ≠ .bootm)
    (hc : c = .BOOT → b.env (ascii "fastboot_bootcmd") = none) :
    Settled b (completed dev (queueAnswer c response b)) := by
  obtain ⟨⟨huser, hboot1, hboot2, hhyper, hsaved, hsavedEnv, hio, hsent, henv⟩, hcomplete⟩ :=
    queueAnswer_settled c response b
  have h := completed_settled dev (b := queueAnswer c response b) (by
    intro hboot
    rw [henv]
    apply hc
    rcases hcomplete with h | h
    · exact absurd (h.symm.trans hboot) hb
    · rw [hboot] at h
      cases c
      case BOOT => rfl
      all_goals first | exact absurd h.symm hb | cases h)
  refine ⟨h.user.trans huser, h.boot1.trans hboot1, h.boot2.trans hboot2, h.hyper.trans hhyper,
    h.saved.trans hsaved, h.savedEnv.trans hsavedEnv, h.io.trans hio, h.sent.trans hsent, ?_, h.complete⟩
  rw [← henv, ← hsavedEnv]
  exact h.env

variable (vars : Variables)

/-- The state in which a handler starts: the lines of the last command are gone. -/
def fresh (b : Board) : Board := { b with sent := [] }

/-- A command ends where its handler ends, or with the completion of its answer. -/
theorem handle_request {b : Board} {data : List UInt8} {c : Command} {cmdString : CStr}
    (h : request b data = some (c, cmdString)) :
    let r := (dispatch dev vars cmdString c).run (fresh b)
    (handle dev vars b (.transfer data) = (none, r.2)) ∨
      ∃ response, r.1 = some response ∧
        handle dev vars b (.transfer data) = (some response, completed dev (queueAnswer c response r.2)) := by
  have hfresh : { b with sent := [] } = fresh b := rfl
  simp only [handle, h, hfresh]
  rcases (dispatch dev vars cmdString c).run (fresh b) with ⟨_ | response, b'⟩
  · exact Or.inl rfl
  · exact Or.inr ⟨response, rfl, rfl⟩

/-! ## Runs of flashing -/

/-- A transfer that flashes, erases or formats, or that belongs to a download. -/
def IsFlashing (b : Board) : Event → Prop
  | .setRollbackIndex _ _ => False
  | .transfer data => ∀ c cmdString, request b data = some (c, cmdString) →
      c = .FLASH ∨ c = .ERASE ∨ c = .DOWNLOAD ∨ c = .OEM ∧ (oemArguments dev cmdString).1 = ascii "format"

/-- The check lets the name through, by the flags of the stored block. -/
def Passes (b : Board) (name : CStr) : Prop := deviceLocked name (some (flagsOf (stored dev b))) = false

/-- A name that is let through goes nowhere that a lock protects. -/
structure FlashesWithin (b : Board) (name : CStr) : Prop where
  ipl : iplLocked (stored dev b) = true → (flashTarget dev b name).InUser
  mmc : mmcLocked (stored dev b) = true → (flashTarget dev b name).OffUser
  block : mmcLocked (stored dev b) = true → flashTarget dev b name = .bootloader → BlockSafe dev b

def ErasesWithin (b : Board) (name : CStr) : Prop :=
  mmcLocked (stored dev b) = true → partGetInfo dev b name = none

def Within (b : Board) (e : Event) : Prop :=
  ∀ data c cmdString name, e = .transfer data → request b data = some (c, cmdString) →
    (strsep cmdString 58).2 = some name → Passes dev b name →
      (c = .FLASH → FlashesWithin dev b name) ∧ (c = .ERASE → ErasesWithin dev b name)

/-- What the locks of the first state protect is the same in the second. -/
structure Held (b b' : Board) : Prop where
  ipl : iplLocked (stored dev b) = true → b'.boot1 = b.boot1 ∧ b'.boot2 = b.boot2 ∧ b'.hyper = b.hyper
  mmc : mmcLocked (stored dev b) = true → UserKept dev b b'
  block : stored dev b' = stored dev b

theorem Held.trans {a b c : Board} (h1 : Held dev a b) (h2 : Held dev b c) : Held dev a c := by
  refine ⟨fun h => ?_, fun h => ?_, h2.block.trans h1.block⟩
  · obtain ⟨hboot1, hboot2, hhyper⟩ := h1.ipl h
    obtain ⟨hboot1', hboot2', hhyper'⟩ := h2.ipl (by rw [h1.block]; exact h)
    exact ⟨hboot1'.trans hboot1, hboot2'.trans hboot2, hhyper'.trans hhyper⟩
  · exact trans_of (UserKept dev) (h1.mmc h) (h2.mmc (by rw [h1.block]; exact h))

theorem Calm.held {b b' : Board} (h : Calm dev b b') : Held dev b b' :=
  ⟨fun _ => ⟨h.rest.boot1, h.rest.boot2, h.rest.hyper⟩, fun _ => h.user, (h.rest.lockKept dev).stored_eq⟩

theorem Settled.held {b b' : Board} (h : Settled b b') : Held dev b b' :=
  ⟨fun _ => ⟨h.boot1, h.boot2, h.hyper⟩, fun _ _ _ => by rw [h.user], by unfold stored; rw [h.boot2]⟩

/-- What a handler leaves: the locks hold, and no boot is pending. -/
def Leaves (b b' : Board) : Prop := Held dev b b' ∧ (b'.complete = b.complete ∨ b'.complete = .reset)

theorem Calm.leaves {b b' : Board} (h : Calm dev b b') : Leaves dev b b' := ⟨h.held, Or.inl h.rest.complete⟩

/-- A read of the lock status that goes through tells the flags of the stored block. -/
theorem status_eq {b b0 : Board} (hread : Readable dev b) {status : Option (Bool × Bool)}
    (h : (fastbootGetLockStatus dev).run b = (some status, b0)) : status = some (flagsOf (stored dev b)) := by
  rw [getLockStatus_readable dev hread] at h
  cases h
  rfl

theorem flash_leaves {b : Board} (hread : Readable dev b) {cmdParameter : CStr}
    (hwithin : ∀ name, (strsep cmdParameter 58).2 = some name → Passes dev b name → FlashesWithin dev b name)
    (hlocked : iplLocked (stored dev b) = true ∨ mmcLocked (stored dev b) = true) :
    Leaves dev b ((flash dev cmdParameter).run b).2 := by
  rcases flash_cases dev cmdParameter b with h | ⟨name, status, b0, b', hname, hload, hlock, hb', hidle, hrun⟩
  · exact h.leaves
  · obtain rfl := status_eq dev hread hload
    obtain ⟨hipl, hmmc, hblock⟩ := hwithin name hname hlock
    rw [hrun]
    cases hi : iplLocked (stored dev b) with
    | true =>
      -- the target lies in the user area, and then `mmc_lock` is clear or nothing is flashed
      have hrest := (rest_frame dev).flashTo (hipl hi) b'
      refine ⟨⟨fun _ => ?_, fun hm => ?_, ?_⟩, Or.inl (hrest.complete.trans hb'.rest.complete)⟩
      · exact ⟨hrest.boot1.trans hb'.rest.boot1, hrest.boot2.trans hb'.rest.boot2,
          hrest.hyper.trans hb'.rest.hyper⟩
      · exact trans_of (UserKept dev) hb'.user (flashTo_userKept dev (hmmc hm) b')
      · exact ((hb'.rest.trans hrest).lockKept dev).stored_eq
    | false =>
      have hm : mmcLocked (stored dev b) = true := hlocked.resolve_left (by rw [hi]; exact Bool.false_ne_true)
      have hkept := flashTo_lockKept dev hb'.rest hidle fun ht => hblock hm ht
      refine ⟨⟨fun h => ?_, fun _ => ?_, hkept.stored_eq⟩, hkept.complete⟩
      · rw [hi] at h
        cases h
      · exact trans_of (UserKept dev) hb'.user (flashTo_userKept dev (hmmc hm) b')

theorem erase_leaves {b : Board} (hread : Readable dev b) {cmdParameter : CStr}
    (hwithin : ∀ name, (strsep cmdParameter 58).2 = some name → Passes dev b name → ErasesWithin dev b name) :
    Leaves dev b ((erase dev cmdParameter).run b).2 := by
  rcases erase_cases dev cmdParameter b with h | ⟨name, status, b0, hname, hload, hlock, hpart⟩
  · exact h.leaves
  · obtain rfl := status_eq dev hread hload
    have hrest := (rest_frame dev).erase cmdParameter b
    refine ⟨⟨fun _ => ⟨hrest.boot1, hrest.boot2, hrest.hyper⟩, fun hm => ?_, (hrest.lockKept dev).stored_eq⟩,
      Or.inl hrest.complete⟩
    exact absurd (hwithin name hname hlock hm) hpart

/-- `oem format` is refused under either lock. -/
theorem oemFormat_idle {b : Board} (hread : Readable dev b) {cmdString : CStr}
    (hformat : (oemArguments dev cmdString).1 = ascii "format")
    (hlocked : iplLocked (stored dev b) = true ∨ mmcLocked (stored dev b) = true) :
    Idle b ((fastbootCbOem dev cmdString).run b).2 := by
  have hflags : (mmcLocked (stored dev b) || iplLocked (stored dev b)) = true := by
    rcases hlocked with h | h <;> simp [h]
  unfold fastbootCbOem
  dsimp only
  rw [hformat, if_neg (by decide), if_neg (by decide), run_bind_of_some (getLockStatus_readable dev hread)]
  simp only [Option.getD_some, flagsOf, hflags, if_true]
  exact access_idle b

theorem fresh_calm (b : Board) : Calm dev b (fresh b) :=
  ⟨⟨rfl, rfl, rfl, rfl, rfl, rfl, rfl, rfl, rfl⟩, fun _ _ => rfl⟩

theorem Readable.fresh {b : Board} (h : Readable dev b) : Readable dev (fresh b) := ⟨h.transferred, h.intact⟩

theorem fresh_idle (b : Board) : Idle b (fresh b) := ⟨⟨rfl, rfl, rfl, rfl, rfl, rfl, rfl, rfl, rfl⟩, rfl, rfl⟩

theorem BlockSafe.fresh {b : Board} (h : BlockSafe dev b) : BlockSafe dev (fresh b) := by
  intro slot hslot
  apply h slot
  rw [← hslot]
  exact (onMisc_congr dev _ (fresh_idle b)).symm

theorem flashTarget_fresh (b : Board) (name : CStr) : flashTarget dev (fresh b) name = flashTarget dev b name :=
  flashTarget_congr dev (fresh_calm dev b) name

theorem dispatch_leaves {b : Board} {data : List UInt8} {c : Command} {cmdString : CStr}
    (hread : Readable dev b) (hreq : request b data = some (c, cmdString))
    (hflash : IsFlashing dev b (.transfer data)) (hwithin : Within dev b (.transfer data))
    (hlocked : iplLocked (stored dev b) = true ∨ mmcLocked (stored dev b) = true) :
    Leaves dev (fresh b) ((dispatch dev vars cmdString c).run (fresh b)).2 := by
  have hread' := hread.fresh
  rcases hflash c cmdString hreq with rfl | rfl | rfl | ⟨rfl, hformat⟩
  · refine flash_leaves dev hread' (fun name hname hpass => ?_) hlocked
    have h := (hwithin data _ cmdString name rfl hreq hname hpass).1 rfl
    exact ⟨fun hl => by rw [flashTarget_fresh]; exact h.ipl hl, fun hl => by rw [flashTarget_fresh]; exact h.mmc hl,
      fun hl ht => (h.block hl (by rw [← flashTarget_fresh]; exact ht)).fresh⟩
  · refine erase_leaves dev hread' fun name hname hpass hm => ?_
    rw [partGetInfo_congr dev (fresh_calm dev b)]
    exact (hwithin data _ cmdString name rfl hreq hname hpass).2 rfl hm
  · exact ⟨⟨fun _ => ⟨rfl, rfl, rfl⟩, fun _ _ _ => rfl, rfl⟩, Or.inl rfl⟩
  · exact ((oemFormat_idle dev hread' hformat hlocked).calm dev).leaves

/-- One step: what the locks protect is the same after it. -/
theorem flashing_step {b : Board} {e : Event} (hflash : IsFlashing dev b e) (hread : Readable dev b)
    (hwithin : Within dev b e) (hlocked : iplLocked (stored dev b) = true ∨ mmcLocked (stored dev b) = true)
    (hboot : b.complete ≠ .bootm) :
    Held dev b (handle dev vars b e).2 ∧ (handle dev vars b e).2.complete ≠ .bootm := by
  have hfresh := (fresh_calm dev b).held
  cases e with
  | setRollbackIndex location idx => exact hflash.elim
  | transfer data =>
    cases hreq : request b data with
    | none =>
      simp only [handle, hreq]
      split
      · exact ⟨⟨fun _ => ⟨rfl, rfl, rfl⟩, fun _ _ _ => rfl, rfl⟩, hboot⟩
      · exact ⟨hfresh, hboot⟩
    | some r =>
      obtain ⟨c, cmdString⟩ := r
      obtain ⟨hheld, hcomplete⟩ := dispatch_leaves dev vars hread hreq hflash hwithin hlocked
      have hnot : ((dispatch dev vars cmdString c).run (fresh b)).2.complete ≠ .bootm := by
        rcases hcomplete with h | h <;> rw [h]
        · exact hboot
        · simp
      have hnotboot : c ≠ .BOOT := by
        rintro rfl
        rcases hflash _ _ hreq with h | h | h | ⟨h, -⟩ <;> cases h
      rcases handle_request dev vars hreq with h | ⟨response, -, h⟩ <;> rw [h]
      · exact ⟨hfresh.trans dev hheld, hnot⟩
      · have hset := answered_settled dev (c := c) response hnot fun hc => absurd hc hnotboot
        refine ⟨hfresh.trans dev (hheld.trans dev (hset.held dev)), ?_⟩
        intro h'
        cases hset.complete.symm.trans h'

/-- A step of a run of flashing that meets the condition. -/
def FlashingStep (b : Board) (e : Event) (b' : Board) : Prop :=
  IsFlashing dev b e ∧ Readable dev b ∧ Within dev b e ∧ b' = (handle dev vars b e).2

/-- What the locks of the first state protect has not changed. -/
def Protected (b b' : Board) : Prop :=
  (iplLocked (stored dev b) = true → b'.boot1 = b.boot1 ∧ b'.boot2 = b.boot2 ∧ b'.hyper = b.hyper) ∧
    (mmcLocked (stored dev b) = true → ∀ a, OutsideMisc dev b.user a → b'.user a = b.user a)

theorem held_of_runs {b b' : Board} {l : List (Board × Event × Board)}
    (hlocked : iplLocked (stored dev b) = true ∨ mmcLocked (stored dev b) = true) (hboot : b.complete ≠ .bootm)
    (h : Runs (FlashingStep dev vars) b l b') : Held dev b b' := by
  induction h with
  | nil s => exact (refl_of (Calm dev) s).held
  | cons hstep hl ih =>
    obtain ⟨hflash, hread, hwithin, rfl⟩ := hstep
    obtain ⟨hheld, hboot'⟩ := flashing_step dev vars hflash hread hwithin hlocked hboot
    rw [← hheld.block] at hlocked
    exact hheld.trans dev (ih hlocked hboot')

theorem locks_hold {b b' : Board} {l : List (Board × Event × Board)} (hboot : b.complete ≠ .bootm)
    (h : Runs (FlashingStep dev vars) b l b') : Protected dev b b' :=
  ⟨fun hi => (held_of_runs dev vars (Or.inl hi) hboot h).ipl hi,
    fun hm => (held_of_runs dev vars (Or.inr hm) hboot h).mmc hm⟩

/-! ## Runs on fixed boards -/

/-- A board without partitions, whose commands and writers do nothing. -/
def plainDevice : Device where
  bootMult := 2
  two_le_bootMult := by decide
  eraseGrpBits := 0
  erased := 0
  lookup _ _ := none
  lookup_outside _ _ _ := rfl
  writeUser _ user _ _ := (user, fastbootOkay)
  srecToBin _ _ := none
  runCommand _ b := b
  envAccepts _ _ := true
  envDeletes _ := true
  defaultEnv _ := none
  defaultEnv_confirm := rfl
  defaultEnv_bootcmd := rfl
  platform := none
  nullText := []
  depth := 0

def plainVariables : Variables where
  avb _ _ := pure ()
  lines _ _ _ := []
  text _ _ _ := none

/-- Every access goes through, and an unlock is allowed but not confirmed. -/
def smooth : Outcome where
  found := true
  switched := true
  described := true
  moved := true
  reached := 0
  garbled := none
  junk := ⟨0, 0, fun _ => 0, 0⟩
  heap _ := 0
  ability := true
  pressed := false

/-- A board that holds a control block, and an image of ones in its buffer. -/
def boardOf (ctrlb : ControlBlock) (io : ℕ → Outcome) : Board where
  user _ := 0
  boot1 _ := 0
  boot2 := Mem.copy (fun _ => 0) (cbOffset plainDevice) (Mem.ofList ctrlb.sealed.bytes) 0 ControlBlock.SIZE
  hyper _ := 0
  env _ := none
  savedEnv _ := none
  session := { fastbootInit 0 0x2000000 512 (fun _ => 1) with imageSize := 4096 }
  complete := .nothing
  sent := []
  avb := ⟨fun _ => 0, fun _ => ⟨.ok, 0⟩, 0, fun _ => 0, []⟩
  io := io
  pos := 0
  saved := ctrlb.sealed

def iplOnly : ControlBlock := ⟨FASTBOOT_MAGIC_LOCKED, FASTBOOT_MAGIC_UNLOCKED, fun _ => 0, 0⟩

def mmcOnly : ControlBlock := ⟨FASTBOOT_MAGIC_UNLOCKED, FASTBOOT_MAGIC_LOCKED, fun _ => 0, 0⟩

/-- With `ipl_lock` set, `flash:bl2.bin` writes the loader in HyperFlash. -/
theorem locks_fail_for_bl2 : ¬ ∀ (dev : Device) (vars : Variables) (b b' : Board)
    (l : List (Board × Event × Board)), b.complete ≠ .bootm →
    Runs (fun b e b' => IsFlashing dev b e ∧ Readable dev b ∧ b' = (handle dev vars b e).2) b l b' →
      Protected dev b b' := by
  intro h
  let b := boardOf iplOnly fun _ => smooth
  let e := Event.transfer (ascii "flash:bl2.bin")
  have hprotected := h plainDevice plainVariables b (handle plainDevice plainVariables b e).2
    [(b, e, (handle plainDevice plainVariables b e).2)] (by simp [b, boardOf]) (.cons ⟨?_, ?_, rfl⟩ (.nil _))
  · have hhyper := congrFun (hprotected.1 (by decide +kernel)).2.2 0x140000
    revert hhyper
    decide +kernel
  · rintro c cmdString hreq
    have hc : (request b (ascii "flash:bl2.bin")).map Prod.fst = some .FLASH := by decide +kernel
    rw [hreq] at hc
    exact Or.inl (Option.some.inj hc)
  · exact ⟨⟨rfl, rfl, rfl, rfl, rfl⟩, by decide +kernel⟩

/-- With `mmc_lock` set, `flash:bootloader` of a small image keeps to boot partition 1 or 2. -/
theorem locks_hold_bootloader : Protected plainDevice (boardOf mmcOnly fun _ => smooth)
    (handle plainDevice plainVariables (boardOf mmcOnly fun _ => smooth)
      (.transfer (ascii "flash:bootloader"))).2 := by
  let b := boardOf mmcOnly fun _ => smooth
  refine locks_hold plainDevice plainVariables (by simp [boardOf])
    (.cons ⟨?_, ⟨⟨rfl, rfl, rfl, rfl, rfl⟩, by decide +kernel⟩, ?_, rfl⟩ (.nil _))
  · rintro c cmdString hreq
    have hc : (request b (ascii "flash:bootloader")).map Prod.fst = some .FLASH := by decide +kernel
    rw [hreq] at hc
    exact Or.inl (Option.some.inj hc)
  · rintro data c cmdString name ⟨⟩ hreq hname -
    have hc : request b (ascii "flash:bootloader") = some (.FLASH, ascii "flash:bootloader") := by decide +kernel
    rw [hc] at hreq
    cases hreq
    have hbootloader : (strsep (ascii "flash:bootloader") 58).2 = some (ascii "bootloader") := by decide +kernel
    rw [hbootloader] at hname
    cases hname
    have hipl : iplLocked (stored plainDevice b) = false := by decide +kernel
    have hend : writeBlocks b.imageSize * BLKSZ ≤ cbOffset plainDevice := by decide +kernel
    have htarget : flashTarget plainDevice b (ascii "bootloader") = .bootloader := by rfl
    refine ⟨fun _ => ⟨fun h => ?_, fun _ => ?_, fun _ _ slot _ _ i hi hreach => ?_⟩, fun h => ?_⟩
    · rw [hipl] at h
      cases h
    · rw [htarget]
      trivial
    · have hlt : cbOffset plainDevice + i < writeBlocks b.imageSize * BLKSZ := hreach
      omega
    · cases h

end RCar.Fastboot
