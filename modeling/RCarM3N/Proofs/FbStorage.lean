import RCarM3N.Model.FbHandlers
import RCarM3N.Proofs.FbControlBlock

/-! What each access of fastboot leaves alone. The smallest frame is that of a look at the storage;
above it stand the writes of the user area, of `misc`, of HyperFlash and of the boot partitions. -/

namespace RCar.Fastboot

open Prog

/-- Only the user area may differ, and what no answer depends on. -/
structure Rest (b b' : Board) : Prop where
  boot1 : b'.boot1 = b.boot1
  boot2 : b'.boot2 = b.boot2
  hyper : b'.hyper = b.hyper
  env : b'.env = b.env
  savedEnv : b'.savedEnv = b.savedEnv
  session : b'.session = b.session
  complete : b'.complete = b.complete
  io : b'.io = b.io
  saved : b'.saved = b.saved

/-- Nothing is written. -/
structure Idle (b b' : Board) : Prop extends Rest b b' where
  user : b'.user = b.user
  avb : b'.avb = b.avb

namespace Rest

theorem refl (b : Board) : Rest b b := ⟨rfl, rfl, rfl, rfl, rfl, rfl, rfl, rfl, rfl⟩

theorem trans {a b c : Board} (h1 : Rest a b) (h2 : Rest b c) : Rest a c :=
  ⟨h2.boot1.trans h1.boot1, h2.boot2.trans h1.boot2, h2.hyper.trans h1.hyper, h2.env.trans h1.env,
    h2.savedEnv.trans h1.savedEnv, h2.session.trans h1.session, h2.complete.trans h1.complete,
    h2.io.trans h1.io, h2.saved.trans h1.saved⟩

instance : IsPreorder Board Rest where
  refl := refl
  trans _ _ _ := trans

theorem image {b b' : Board} (h : Rest b b') : b'.image = b.image := by
  unfold Board.image
  rw [h.session]

theorem imageSize {b b' : Board} (h : Rest b b') : b'.imageSize = b.imageSize := by
  unfold Board.imageSize
  rw [h.session]

end Rest

namespace Idle

theorem refl (b : Board) : Idle b b := ⟨Rest.refl b, rfl, rfl⟩

theorem trans {a b c : Board} (h1 : Idle a b) (h2 : Idle b c) : Idle a c :=
  ⟨h1.toRest.trans h2.toRest, h2.user.trans h1.user, h2.avb.trans h1.avb⟩

instance : IsPreorder Board Idle where
  refl := refl
  trans _ _ _ := trans

end Idle

/-! ## Frames

What a handler keeps is what its accesses keep. -/

variable (dev : Device)

/-- A relation that the looks at the storage and the A/B library keep. -/
structure Looks (R : Board → Board → Prop) : Prop where
  access : Keeps R access
  misc : ∀ {α : Type} (x : Prog UBoot.State α), Keeps R (onMisc dev x)

/-- One that the writes of the user area keep as well. -/
structure Frame (R : Board → Board → Prop) : Prop extends Looks dev R where
  write : ∀ start count buffer src, Keeps R (blkDwrite start count buffer src)
  image : ∀ image, Keeps R (writeUserImage dev image)

section

variable {R : Board → Board → Prop} [IsPreorder Board R]

theorem load_keeps (h : Keeps R access) : Keeps R (fastbootLoadControlBlock dev) := by
  refine h.bind fun a => Keeps.get.bind fun b => ?_
  exact Keeps.ite (Keeps.pure _) (Keeps.ite (Keeps.pure _) (Keeps.ite (Keeps.pure _)
    (Keeps.ite (Keeps.pure _) (Keeps.ite (Keeps.pure _) (Keeps.pure _)))))

theorem getLockStatus_keeps (h : Keeps R access) : Keeps R (fastbootGetLockStatus dev) := by
  apply (load_keeps dev h).bind
  rintro ⟨ret, ctrlb⟩
  exact Keeps.ite (Keeps.pure _) (Keeps.pure _)

variable {dev}

theorem Looks.formatRefused (h : Looks dev R) (name : CStr) : Keeps R (formatRefused dev name) :=
  Keeps.ite (h.misc _) (Keeps.pure _)

theorem Looks.getBootloaderMessage (h : Looks dev R) : Keeps R (getBootloaderMessage dev) := by
  refine h.access.bind fun a => Keeps.get.bind fun b => Keeps.ite (Keeps.pure _) (Keeps.ite (Keeps.pure _) ?_)
  cases partGetInfo dev b (ascii "misc") with
  | none => exact Keeps.pure _
  | some info => exact Keeps.ite (Keeps.pure _) (Keeps.pure _)

theorem Looks.flashHyper (h : Looks dev R) (p : ImgParam) (srec : Bool)
    (hsector : ∀ buffer i, Keeps R (hfWriteSector p buffer i)) : Keeps R (flashHyper dev p srec) := by
  have himage : ∀ buffer, Keeps R (hfWriteImage p buffer) := fun buffer =>
    h.access.bind fun a => Keeps.ite (Keeps.pure _)
      (Keeps.foldlM (fun _ i => Keeps.ite (hsector buffer i) (Keeps.pure _)) _ _)
  refine Keeps.get.bind fun b => ?_
  cases (if srec then dev.srecToBin b.image (p.sectorsNum * HF_SECTOR_SIZE) else some b.image) with
  | none => exact Keeps.pure _
  | some buffer => exact (himage buffer).bind fun _ => Keeps.ite (Keeps.pure _) (Keeps.pure _)

theorem Looks.bootloader (h : Looks dev R) (hpart : ∀ slot buffer n, Keeps R (writeBootPart slot buffer n)) :
    Keeps R (fbHandleBootloaderFlashing dev) := by
  refine (h.misc _).bind fun slot => Keeps.get.bind fun b => Keeps.ite (Keeps.pure _) ?_
  refine h.access.bind fun a => Keeps.ite (Keeps.pure _) (Keeps.ite (Keeps.pure _) (Keeps.ite (Keeps.pure _) ?_))
  refine (hpart _ _ _).bind fun _ => Keeps.ite (Keeps.pure _) ?_
  exact (h.misc _).bind fun _ => h.access.bind fun _ => Keeps.ite (Keeps.pure _) (Keeps.pure _)

theorem hfWriteSector_keeps {p : ImgParam} {buffer : Mem} {i : ℕ} (haccess : Keeps R access)
    (hhyper : ∀ f : Board → Mem, Keeps R (Prog.modify fun b => { b with hyper := f b })) :
    Keeps R (hfWriteSector p buffer i) :=
  haccess.bind fun _ => (hhyper _).bind fun _ => Keeps.pure _

theorem Frame.blkWrite (h : Frame dev R) (start blkcnt : ℕ) (buffer : Mem) :
    Keeps R (fbMmcBlkWrite start blkcnt buffer) :=
  Keeps.foldlM (fun _ _ => (h.write _ _ _ _).bind fun _ => Keeps.pure _) _ _

theorem Frame.rawImage (h : Frame dev R) (info : PartInfo) : Keeps R (writeRawImage info) :=
  Keeps.get.bind fun _ => Keeps.ite (Keeps.pure _) ((h.blkWrite _ _ _).bind fun _ =>
    Keeps.ite (Keeps.pure _) (Keeps.pure _))

theorem Frame.setBootloaderMessage (h : Frame dev R) (message : Mem) :
    Keeps R (setBootloaderMessage dev message) := by
  refine h.access.bind fun a => Keeps.get.bind fun b => Keeps.ite (Keeps.pure _) (Keeps.ite (Keeps.pure _) ?_)
  cases partGetInfo dev b (ascii "misc") with
  | none => exact Keeps.pure _
  | some info => exact (h.write _ _ _ _).bind fun _ => Keeps.pure _

theorem Frame.setWipeData (h : Frame dev R) : Keeps R (fastbootSetWipeData dev) := by
  refine h.getBootloaderMessage.bind fun message => ?_
  cases message with
  | none => exact Keeps.pure _
  | some bcb => exact h.setBootloaderMessage _

theorem Frame.mmcErase (h : Frame dev R) (cmd : CStr) : Keeps R (fastbootMmcErase dev cmd) := by
  refine h.access.bind fun a => Keeps.ite (Keeps.pure _) (Keeps.ite (Keeps.pure _) (Keeps.get.bind fun b => ?_))
  cases partGetInfo dev b cmd with
  | none => exact Keeps.pure _
  | some info => exact (h.blkWrite _ _ _).bind fun _ => Keeps.ite (Keeps.pure _) (Keeps.pure _)

theorem Frame.erase (h : Frame dev R) (cmdParameter : CStr) : Keeps R (erase dev cmdParameter) := by
  unfold Fastboot.erase
  cases (strsep cmdParameter 58).2 with
  | none => exact Keeps.pure _
  | some name =>
    refine (getLockStatus_keeps dev h.access).bind fun status => Keeps.ite (Keeps.pure _) ?_
    exact (h.formatRefused name).bind fun _ => Keeps.ite (Keeps.pure _) (h.mmcErase name)

end

/-! ## Nothing is written -/

theorem access_idle : Keeps Idle access := fun _ => ⟨⟨rfl, rfl, rfl, rfl, rfl, rfl, rfl, rfl, rfl⟩, rfl, rfl⟩

/-! ## The user area -/

theorem onMisc_rest {α : Type} (x : Prog UBoot.State α) : Keeps Rest (onMisc dev x) := by
  intro b
  unfold onMisc Prog.run
  dsimp only
  cases dev.lookup b.user (ascii "misc") <;> exact ⟨rfl, rfl, rfl, rfl, rfl, rfl, rfl, rfl, rfl⟩

theorem rest_frame : Frame dev Rest where
  access := access_idle.mono fun _ _ h => h.toRest
  misc := onMisc_rest dev
  write _ _ _ _ _ := ⟨rfl, rfl, rfl, rfl, rfl, rfl, rfl, rfl, rfl⟩
  image _ _ := ⟨rfl, rfl, rfl, rfl, rfl, rfl, rfl, rfl, rfl⟩

/-! ## The partition `misc` -/

/-- The addresses of the user area that are not those of `misc`. -/
def OutsideMisc (user : Mem) (a : ℕ) : Prop := ∀ p, dev.lookup user (ascii "misc") = some p → ¬ p.Covers a

/-- Of the user area only `misc` may differ. -/
def UserKept (b b' : Board) : Prop := ∀ a, OutsideMisc dev b.user a → b'.user a = b.user a

/-- The partition table is the same before and after. -/
theorem UserKept.lookup {b b' : Board} (h : UserKept dev b b') : dev.lookup b'.user = dev.lookup b.user :=
  dev.lookup_outside _ _ h

instance : IsPreorder Board (UserKept dev) where
  refl _ _ _ := rfl
  trans b c d h1 h2 a ha := by
    have ha' : OutsideMisc dev c.user a := by
      unfold OutsideMisc
      rw [h1.lookup]
      exact ha
    exact (h2 a ha').trans (h1 a ha)

theorem userKept_looks : Looks dev (UserKept dev) where
  access := access_idle.mono fun _ _ hi _ _ => by rw [hi.user]
  misc x := by
    intro b a ha
    unfold onMisc Prog.run
    dsimp only
    cases hp : dev.lookup b.user (ascii "misc") with
    | none => rfl
    | some p =>
      have hcover := ha p hp
      exact Mem.copy_out _ _ _ _ _ _ (by unfold PartInfo.Covers at hcover; omega)

theorem writeBootPart_userKept (slot : UInt8) (buffer : Mem) (n : ℕ) :
    Keeps (UserKept dev) (writeBootPart slot buffer n) := by
  intro b a _
  by_cases hs : slot = 0
  · simp [writeBootPart, Prog.modify, Prog.run, hs]
  · simp [writeBootPart, Prog.modify, Prog.run, hs]

/-- What the A/B library returns depends on the user area and on the library alone. -/
theorem onMisc_congr {α : Type} (x : Prog UBoot.State α) {b b' : Board} (h : Idle b b') :
    ((onMisc dev x).run b').1 = ((onMisc dev x).run b).1 := by
  unfold onMisc Prog.run
  dsimp only
  rw [h.user, h.avb]
  cases dev.lookup b.user (ascii "misc") <;> rfl

/-! ## The lock state -/

/-- What the locks depend on: the stored control block, the block of the last save, the
environments, and what the world will answer. -/
structure LockKept (b b' : Board) : Prop where
  block : ∀ i < ControlBlock.SIZE, b'.boot2 (cbOffset dev + i) = b.boot2 (cbOffset dev + i)
  saved : b'.saved = b.saved
  env : b'.env = b.env
  savedEnv : b'.savedEnv = b.savedEnv
  io : b'.io = b.io
  complete : b'.complete = b.complete ∨ b'.complete = .reset

instance : IsPreorder Board (LockKept dev) where
  refl _ := ⟨fun _ _ => rfl, rfl, rfl, rfl, rfl, Or.inl rfl⟩
  trans a b c h1 h2 := by
    refine ⟨fun i hi => (h2.block i hi).trans (h1.block i hi), h2.saved.trans h1.saved, h2.env.trans h1.env,
      h2.savedEnv.trans h1.savedEnv, h2.io.trans h1.io, ?_⟩
    rcases h2.complete with h | h
    · rw [h]
      exact h1.complete
    · exact Or.inr h

theorem Rest.lockKept {b b' : Board} (h : Rest b b') : LockKept dev b b' :=
  ⟨fun i _ => by rw [h.boot2], h.saved, h.env, h.savedEnv, h.io, Or.inl h.complete⟩

theorem lockKept_frame : Frame dev (LockKept dev) where
  access := (rest_frame dev).access.mono fun _ _ h => h.lockKept dev
  misc x := ((rest_frame dev).misc x).mono fun _ _ h => h.lockKept dev
  write start count buffer src := ((rest_frame dev).write start count buffer src).mono fun _ _ h => h.lockKept dev
  image image := ((rest_frame dev).image image).mono fun _ _ h => h.lockKept dev

theorem hfWriteSector_lockKept (p : ImgParam) (buffer : Mem) (i : ℕ) :
    Keeps (LockKept dev) (hfWriteSector p buffer i) :=
  hfWriteSector_keeps (lockKept_frame dev).access fun _ _ => ⟨fun _ _ => rfl, rfl, rfl, rfl, rfl, Or.inl rfl⟩

/-! ## Bootloader -/

/-- With slot b in use, the image goes to the start of boot partition 2. Where it reaches the control
block, it holds the block's own bytes. -/
def BlockSafe (b : Board) : Prop :=
  ∀ slot, ((fastbootGetSlotIndex dev).run b).1 = some slot → slot ≠ 0 →
    ∀ i < ControlBlock.SIZE, cbOffset dev + i < writeBlocks b.imageSize * BLKSZ →
      b.image (cbOffset dev + i) = b.boot2 (cbOffset dev + i)

section

variable {b : Board}

theorem triple_rest {α : Type} {x : Prog Board α} (hx : Keeps Rest x) :
    Triple (Rest b) x (fun _ => Rest b) (LockKept dev b) :=
  (hx.triple fun _ _ => Rest.trans).conseq (fun _ h => h) (fun _ _ h => h) fun _ h => h.lockKept dev

theorem triple_lockKept {α : Type} {x : Prog Board α} (hx : Keeps (LockKept dev) x) :
    Triple (LockKept dev b) x (fun _ => LockKept dev b) (LockKept dev b) :=
  hx.triple fun _ _ h1 h2 => trans_of (LockKept dev) h1 h2

theorem triple_get : Triple (Rest b) Prog.get (fun b1 s => Rest b s ∧ Rest b b1) (LockKept dev b) :=
  fun _ h => ⟨h, h⟩

theorem triple_fact {α : Type} {p : Prop} {P : Board → Prop} {x : Prog Board α} {Q : α → Board → Prop}
    {E : Board → Prop} (h : p → Triple P x Q E) : Triple (fun s => P s ∧ p) x Q E :=
  fun s hs => h hs.2 s hs.1

theorem triple_slot : Triple (Idle b) (fastbootGetSlotIndex dev)
    (fun slot s => Rest b s ∧ ((fastbootGetSlotIndex dev).run b).1 = some slot) (LockKept dev b) := by
  intro s hs
  have hrest := hs.toRest.trans ((rest_frame dev).misc (UBoot.avbGetSlotIndexWith (loadMetadata dev)) s)
  have hsame := onMisc_congr dev (UBoot.avbGetSlotIndexWith (loadMetadata dev)) hs
  change Rest b ((fastbootGetSlotIndex dev).run s).2 at hrest
  change ((fastbootGetSlotIndex dev).run s).1 = ((fastbootGetSlotIndex dev).run b).1 at hsame
  rcases hr : (fastbootGetSlotIndex dev).run s with ⟨_ | slot, s'⟩ <;> rw [hr] at hrest hsame
  · exact hrest.lockKept dev
  · exact ⟨hrest, hsame.symm⟩

theorem triple_pure {α : Type} (a : α) :
    Triple (Rest b) (pure a : Prog Board α) (fun _ => LockKept dev b) (LockKept dev b) :=
  fun _ h => h.lockKept dev

theorem writeBootPart_lockKept {slot : UInt8} {n : ℕ} (hsafe : slot ≠ 0 → ∀ i < ControlBlock.SIZE,
      cbOffset dev + i < writeBlocks b.imageSize * BLKSZ → b.image (cbOffset dev + i) = b.boot2 (cbOffset dev + i))
    (hn : n ≤ writeBlocks b.imageSize) :
    Triple (Rest b) (writeBootPart slot b.image n) (fun _ => LockKept dev b) (LockKept dev b) := by
  intro s hs
  have hkept := hs.lockKept dev
  by_cases hslot : slot = 0
  · simp only [writeBootPart, Prog.modify, Prog.run, hslot, if_true]
    exact ⟨hkept.block, hs.saved, hs.env, hs.savedEnv, hs.io, Or.inl hs.complete⟩
  · simp only [writeBootPart, Prog.modify, Prog.run, hslot, if_false]
    refine ⟨fun i hi => ?_, hs.saved, hs.env, hs.savedEnv, hs.io, Or.inl hs.complete⟩
    change s.boot2.copy 0 b.image 0 (n * BLKSZ) (cbOffset dev + i) = _
    -- what the write reaches of the block is the block itself
    by_cases hreach : cbOffset dev + i < n * BLKSZ
    · have hle : n * BLKSZ ≤ writeBlocks b.imageSize * BLKSZ := Nat.mul_le_mul_right _ hn
      rw [Mem.copy_in _ _ _ _ _ _ (Nat.zero_le _) (by omega), Nat.zero_add, Nat.sub_zero]
      exact hsafe hslot i hi (hreach.trans_le hle)
    · rw [Mem.copy_out _ _ _ _ _ _ (by omega)]
      exact hkept.block i hi

theorem fbHandleBootloaderFlashing_lockKept (hsafe : BlockSafe dev b) :
    Triple (Idle b) (fbHandleBootloaderFlashing dev) (fun _ => LockKept dev b) (LockKept dev b) := by
  have hstop : ∀ answer : CStr, Triple (Rest b) (pure answer : Prog Board CStr)
      (fun _ => LockKept dev b) (LockKept dev b) := triple_pure dev
  refine (triple_slot dev).bind fun slot => triple_fact fun hslot => ?_
  refine (triple_get dev).bind fun b1 => triple_fact fun hb1 => ?_
  rw [hb1.image, hb1.imageSize]
  refine Triple.ite (fun _ => hstop _) fun _ => (triple_rest dev (rest_frame dev).access).bind fun a => ?_
  refine Triple.ite (fun _ => hstop _) fun _ => Triple.ite (fun _ => hstop _) fun _ =>
    Triple.ite (fun _ => hstop _) fun _ => ?_
  have hn : (if a.moved then writeBlocks b.imageSize else min a.reached (writeBlocks b.imageSize)) ≤
      writeBlocks b.imageSize := by
    split
    · exact le_rfl
    · exact min_le_right _ _
  refine (writeBootPart_lockKept dev (hsafe slot hslot) hn).bind fun _ => triple_lockKept dev ?_
  have hframe := lockKept_frame dev
  exact Keeps.ite (Keeps.pure _) ((hframe.misc _).bind fun _ =>
    hframe.access.bind fun _ => Keeps.ite (Keeps.pure _) (Keeps.pure _))

end

/-! ## Flashing and erasing -/

/-- Only `misc` may differ, of what is stored. -/
structure Calm (b b' : Board) : Prop where
  rest : Rest b b'
  user : UserKept dev b b'

instance : IsPreorder Board (Calm dev) where
  refl b := ⟨Rest.refl b, refl_of (UserKept dev) b⟩
  trans _ _ _ h1 h2 := ⟨h1.rest.trans h2.rest, trans_of (UserKept dev) h1.user h2.user⟩

theorem Idle.calm {b b' : Board} (h : Idle b b') : Calm dev b b' := ⟨h.toRest, fun _ _ => by rw [h.user]⟩

theorem calm_of_idle {α : Type} {x : Prog Board α} (h : Keeps Idle x) : Keeps (Calm dev) x :=
  h.mono fun _ _ hi => hi.calm dev

theorem formatRefused_calm (name : CStr) : Keeps (Calm dev) (formatRefused dev name) :=
  fun b => ⟨(rest_frame dev).formatRefused name b, (userKept_looks dev).formatRefused name b⟩

/-- A calm beginning either ends the command or hands on to what follows. -/
theorem calm_bind {α β : Type} {x : Prog Board α} (hx : Keeps (Calm dev) x) (f : α → Prog Board β) (b : Board) :
    Calm dev b ((x >>= f).run b).2 ∨
      ∃ a b', x.run b = (some a, b') ∧ Calm dev b b' ∧ (x >>= f).run b = (f a).run b' := by
  have h := hx b
  rw [run_bind]
  rcases hr : x.run b with ⟨_ | a, b'⟩ <;> rw [hr] at h
  · exact Or.inl h
  · exact Or.inr ⟨a, b', rfl, h, rfl⟩

theorem partGetInfo_congr {b b' : Board} (h : Calm dev b b') (name : CStr) :
    partGetInfo dev b' name = partGetInfo dev b name := by
  unfold partGetInfo
  rw [h.user.lookup, h.rest.env]

theorem flashTarget_congr {b b' : Board} (h : Calm dev b b') (name : CStr) :
    flashTarget dev b' name = flashTarget dev b name := by
  unfold flashTarget
  rw [partGetInfo_congr dev h]

/-- What passes the lock check and the check for an update goes on from a calm state. -/
theorem guarded_cases (name msg : CStr) (act : Prog Board CStr) (b : Board) :
    let x : Prog Board CStr := do
      if deviceLocked name (← fastbootGetLockStatus dev) then
        return fastbootFail (ascii "flash device locked")
      if ← formatRefused dev name then return fastbootFail msg
      act
    Calm dev b (x.run b).2 ∨
      ∃ status b0 b', (fastbootGetLockStatus dev).run b = (some status, b0) ∧
        deviceLocked name status = false ∧ Calm dev b b' ∧
        (name ≠ ascii "userdata" → name ≠ ascii "metadata" → Idle b b') ∧ x.run b = act.run b' := by
  intro x
  rcases calm_bind dev (calm_of_idle dev (getLockStatus_keeps dev access_idle)) _ b with h | ⟨status, b0, hload, hb0, hrun⟩
  · exact Or.inl h
  · have hidle := getLockStatus_keeps dev access_idle b
    rw [hload] at hidle
    change x.run b = _ at hrun
    rw [hrun]
    cases hlock : deviceLocked name status with
    | true => exact Or.inl hb0
    | false =>
      rcases calm_bind dev (formatRefused_calm dev name) _ b0 with h | ⟨refused, b1, hr, hb1, hrun'⟩
      · exact Or.inl (trans_of (Calm dev) hb0 h)
      · cases refused with
        | true =>
          left
          exact (congrArg (fun r => Calm dev b r.2) hrun').mpr (trans_of (Calm dev) hb0 hb1)
        | false =>
          refine Or.inr ⟨status, b0, b1, hload, hlock, trans_of (Calm dev) hb0 hb1, fun hu hm => ?_, hrun'⟩
          rw [formatRefused, if_neg (not_or.mpr ⟨hu, hm⟩)] at hr
          cases hr
          exact hidle

theorem flashWrite_cases (cmd : CStr) (b : Board) :
    Calm dev b ((fastbootMmcFlashWrite dev cmd).run b).2 ∨
      ∃ b', Idle b b' ∧
        (fastbootMmcFlashWrite dev cmd).run b = (flashTo dev (flashTarget dev b cmd)).run b' := by
  rcases calm_bind dev (calm_of_idle dev access_idle) _ b with h | ⟨a, b', ha, hb', hrun⟩
  · exact Or.inl h
  · have hidle := access_idle b
    rw [ha] at hidle
    change (fastbootMmcFlashWrite dev cmd).run b = _ at hrun
    rw [hrun]
    cases hfound : a.found with
    | false => exact Or.inl hb'
    | true =>
      cases hdescribed : a.described with
      | false => exact Or.inl hb'
      | true =>
        refine Or.inr ⟨b', hidle, ?_⟩
        rw [← flashTarget_congr dev hb']
        rfl

theorem bootloader_isPrefixOf {b : Board} {name : CStr} (h : flashTarget dev b name = .bootloader) :
    (ascii "bootloader").isPrefixOf name = true := by
  unfold flashTarget at h
  split at h
  · cases h
  split at h
  · cases h
  split at h
  · cases h
  split at h
  · cases h
  split at h
  · cases h
  split at h
  · assumption
  · cases h

/-- All that `flash` can do: nothing, or what its target asks for once the lock check is passed. -/
theorem flash_cases (cmdParameter : CStr) (b : Board) :
    Calm dev b ((flash dev cmdParameter).run b).2 ∨
      ∃ name status b0 b', (strsep cmdParameter 58).2 = some name ∧
        (fastbootGetLockStatus dev).run b = (some status, b0) ∧ deviceLocked name status = false ∧
        Calm dev b b' ∧ (flashTarget dev b name = .bootloader → Idle b b') ∧
        (flash dev cmdParameter).run b = (flashTo dev (flashTarget dev b name)).run b' := by
  unfold flash
  cases hname : (strsep cmdParameter 58).2 with
  | none => exact Or.inl (refl_of (Calm dev) b)
  | some name =>
    rcases guarded_cases dev name (ascii "Virtual A/B is in progress, formatting is not allowed")
        (fastbootMmcFlashWrite dev name) b with h | ⟨status, b0, b1, hload, hlock, hb1, hidle, hrun⟩
    · exact Or.inl h
    · dsimp only
      rw [hrun]
      rcases flashWrite_cases dev name b1 with h | ⟨b2, hb2, hrun2⟩
      · exact Or.inl (trans_of (Calm dev) hb1 h)
      · rw [flashTarget_congr dev hb1] at hrun2
        have hcalm : Calm dev b1 b2 := hb2.calm dev
        refine Or.inr ⟨name, status, b0, b2, rfl, hload, hlock, trans_of (Calm dev) hb1 hcalm, fun ht => ?_, hrun2⟩
        have hbegins := bootloader_isPrefixOf dev ht
        -- the two names that may look at `misc` first do not begin so
        refine (hidle ?_ ?_).trans hb2 <;>
        · rintro rfl
          revert hbegins
          decide

theorem mmcErase_calm {cmd : CStr} {b : Board} (h : partGetInfo dev b cmd = none) :
    Calm dev b ((fastbootMmcErase dev cmd).run b).2 := by
  rcases calm_bind dev (calm_of_idle dev access_idle) _ b with h' | ⟨a, b', -, hb', hrun⟩
  · exact h'
  · change (fastbootMmcErase dev cmd).run b = _ at hrun
    rw [hrun]
    have hnone : partGetInfo dev b' cmd = none := (partGetInfo_congr dev hb' cmd).trans h
    cases hfound : a.found with
    | false => exact hb'
    | true =>
      cases hdescribed : a.described with
      | false => exact hb'
      | true =>
        simp only [Bool.not_true, Bool.false_eq_true, if_false]
        rw [run_bind_get, hnone]
        exact hb'

/-- All that `erase` can do: nothing, or erasing the partition once the lock check is passed. -/
theorem erase_cases (cmdParameter : CStr) (b : Board) :
    Calm dev b ((erase dev cmdParameter).run b).2 ∨
      ∃ name status b0, (strsep cmdParameter 58).2 = some name ∧
        (fastbootGetLockStatus dev).run b = (some status, b0) ∧ deviceLocked name status = false ∧
        partGetInfo dev b name ≠ none := by
  unfold erase
  cases hname : (strsep cmdParameter 58).2 with
  | none => exact Or.inl (refl_of (Calm dev) b)
  | some name =>
    rcases guarded_cases dev name (ascii "Virtual A/B is in progress, erase is not allowed")
        (fastbootMmcErase dev name) b with h | ⟨status, b0, b1, hload, hlock, hb1, -, hrun⟩
    · exact Or.inl h
    · by_cases hpart : partGetInfo dev b name = none
      · left
        rw [← partGetInfo_congr dev hb1] at hpart
        dsimp only
        rw [hrun]
        exact trans_of (Calm dev) hb1 (mmcErase_calm dev hpart)
      · exact Or.inr ⟨name, status, b0, rfl, hload, hlock, hpart⟩

/-! Where the targets lie. -/

def Target.InUser : Target → Prop
  | .hyperFlash _ _ => False
  | .bootloader => False
  | _ => True

def Target.OffUser : Target → Prop
  | .whole _ => False
  | .partition _ => False
  | _ => True

theorem Frame.flashTo {dev : Device} {R : Board → Board → Prop} [IsPreorder Board R] (h : Frame dev R) {t : Target}
    (ht : t.InUser) : Keeps R (flashTo dev t) := by
  cases t with
  | whole image => exact h.image image
  | hyperFlash p srec => exact ht.elim
  | bootloader => exact ht.elim
  | missing => exact Keeps.pure _
  | partition info => exact Keeps.get.bind fun b => Keeps.ite (h.image _) (h.rawImage info)

theorem flashTo_userKept {t : Target} (ht : t.OffUser) : Keeps (UserKept dev) (flashTo dev t) := by
  have hlooks := userKept_looks dev
  cases t with
  | whole image => exact ht.elim
  | hyperFlash p srec => exact hlooks.flashHyper p srec fun _ _ _ _ _ => rfl
  | bootloader => exact hlooks.bootloader (writeBootPart_userKept dev)
  | missing => exact Keeps.pure _
  | partition info => exact ht.elim

theorem flashTo_lockKept {b s : Board} {t : Target} (hs : Rest b s) (hidle : t = .bootloader → Idle b s)
    (hsafe : t = .bootloader → BlockSafe dev b) : LockKept dev b ((flashTo dev t).run s).2 := by
  have hfrom : ∀ {x : Prog Board CStr}, Keeps (LockKept dev) x → LockKept dev b (x.run s).2 :=
    fun hx => trans_of (LockKept dev) (hs.lockKept dev) (hx s)
  cases t with
  | whole image => exact hfrom ((lockKept_frame dev).image image)
  | hyperFlash p srec => exact hfrom ((lockKept_frame dev).flashHyper p srec (hfWriteSector_lockKept dev p))
  | bootloader =>
    have h := fbHandleBootloaderFlashing_lockKept dev (hsafe rfl) s (hidle rfl)
    change LockKept dev b ((fbHandleBootloaderFlashing dev).run s).2
    rcases hr : (fbHandleBootloaderFlashing dev).run s with ⟨_ | answer, s'⟩ <;> rw [hr] at h <;> exact h
  | missing => exact hfrom (Keeps.pure _)
  | partition info => exact hfrom ((lockKept_frame dev).flashTo (t := .partition info) trivial)

end RCar.Fastboot
