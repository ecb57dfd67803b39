import RCarM3N.Model.FbHwPart
import RCarM3N.Proofs.FbWipe

/-! Which hardware partition is selected when the flashing of a bootloader image returns. The ends of the
function differ in what they undo. -/

namespace RCar.Fastboot.HwPart

open Prog

/-! ## One switch -/

/-- One of the attempts that are made takes effect in the card. -/
def Taken (attempts : ℕ → Attempt) : Prop := ∃ k ≤ 3, (∀ j < k, (attempts j).ret ≠ 0) ∧ (attempts k).taken = true

instance (attempts : ℕ → Attempt) : Decidable (Taken attempts) := inferInstanceAs (Decidable (∃ k ≤ 3, _ ∧ _))

/-- One of the attempts is reported as done. -/
def Done (attempts : ℕ → Attempt) : Prop := ∃ k ≤ 3, (attempts k).ret = 0

instance (attempts : ℕ → Attempt) : Decidable (Done attempts) := inferInstanceAs (Decidable (∃ k ≤ 3, _ = _))

theorem Done.taken {attempts : ℕ → Attempt} (h : Done attempts) : Taken attempts := by
  obtain ⟨k, hk, hret⟩ := h
  -- the loop ends at the first attempt that is done
  have hex : ∃ k, (attempts k).ret = 0 := ⟨k, hret⟩
  refine ⟨Nat.find hex, (Nat.find_min' hex hret).trans hk, fun j hj => Nat.find_min hex hj, ?_⟩
  exact (attempts _).taken_of_done (Nat.find_spec hex)

/-- What a function leaves alone. -/
structure Same (e e' : Emmc) : Prop where
  board : e'.board = e.board
  notAvailable : e'.notAvailable = e.notAvailable
  switches : e'.switches = e.switches
  pos : e'.pos = e.pos
  lookups : e'.lookups = e.lookups

theorem Same.refl (e : Emmc) : Same e e := ⟨rfl, rfl, rfl, rfl, rfl⟩

theorem Same.trans {a b c : Emmc} (h1 : Same a b) (h2 : Same b c) : Same a c :=
  ⟨h2.board.trans h1.board, h2.notAvailable.trans h1.notAvailable, h2.switches.trans h1.switches, h2.pos.trans h1.pos,
    h2.lookups.trans h1.lookups⟩

theorem switchLoop_state (attempts : ℕ → Attempt) (part retry i : ℕ) (e : Emmc) :
    (Emmc.switchLoop attempts part retry i e).2 =
      if ∃ k ≤ retry, (∀ j < k, (attempts (i + j)).ret ≠ 0) ∧ (attempts (i + k)).taken = true then
        { e with selected := part }
      else e := by
  induction retry generalizing i e with
  | zero => simp [Emmc.switchLoop, Emmc.mmcSwitch]
  | succ retry ih =>
    rw [Emmc.switchLoop]
    by_cases hret : (attempts i).ret = 0
    · have htaken : (attempts i).taken = true := (attempts i).taken_of_done hret
      rw [if_pos (c := ∃ k ≤ retry + 1, _) ⟨0, Nat.zero_le _, fun j hj => absurd hj (Nat.not_lt_zero j), htaken⟩]
      simp [hret, Emmc.mmcSwitch, htaken]
    · simp only [ne_eq, hret, not_false_eq_true, if_true]
      rw [ih]
      by_cases htaken : (attempts i).taken = true
      · rw [if_pos (c := ∃ k ≤ retry + 1, _) ⟨0, Nat.zero_le _, fun j hj => absurd hj (Nat.not_lt_zero j), htaken⟩]
        simp [Emmc.mmcSwitch, htaken]
      · have hshift : (∃ k ≤ retry, (∀ j < k, (attempts (i + 1 + j)).ret ≠ 0) ∧ (attempts (i + 1 + k)).taken = true) ↔
            ∃ k ≤ retry + 1, (∀ j < k, ¬ (attempts (i + j)).ret = 0) ∧ (attempts (i + k)).taken = true := by
          constructor
          · rintro ⟨k, hk, hfailed, h⟩
            refine ⟨k + 1, by omega, fun j hj => ?_, by rwa [show i + (k + 1) = i + 1 + k by omega]⟩
            cases j with
            | zero => exact hret
            | succ j =>
              rw [show i + (j + 1) = i + 1 + j by omega]
              exact hfailed j (by omega)
          · rintro ⟨k, hk, hfailed, h⟩
            cases k with
            | zero => exact absurd h htaken
            | succ k =>
              refine ⟨k, by omega, fun j hj => ?_, by rwa [show i + 1 + k = i + (k + 1) by omega]⟩
              rw [show i + 1 + j = i + (j + 1) by omega]
              exact hfailed (j + 1) (by omega)
        simp only [hshift, Emmc.mmcSwitch, htaken, Bool.false_eq_true, if_false]

theorem switchLoop_ret (attempts : ℕ → Attempt) (part retry i : ℕ) (e : Emmc) :
    (Emmc.switchLoop attempts part retry i e).1 = 0 ↔ ∃ k ≤ retry, (attempts (i + k)).ret = 0 := by
  induction retry generalizing i e with
  | zero => simp [Emmc.switchLoop]
  | succ retry ih =>
    rw [Emmc.switchLoop]
    by_cases hret : (attempts i).ret = 0
    · simp only [hret, ne_eq, not_true_eq_false, if_false, true_iff]
      exact ⟨0, Nat.zero_le _, hret⟩
    · simp only [ne_eq, hret, not_false_eq_true, if_true]
      rw [ih]
      constructor
      · rintro ⟨k, hk, h⟩
        exact ⟨k + 1, by omega, by rwa [show i + (k + 1) = i + 1 + k by omega]⟩
      · rintro ⟨k, hk, h⟩
        cases k with
        | zero => exact absurd h hret
        | succ k => exact ⟨k, by omega, by rwa [show i + 1 + k = i + (k + 1) by omega]⟩

theorem mmcSwitchPart_eq (attempts : ℕ → Attempt) (part : ℕ) (e : Emmc) : e.mmcSwitchPart attempts part =
    let r := Emmc.switchLoop attempts part 3 0 e
    if r.1 = 0 ∨ (r.1 = -ENODEV ∧ part = 0) then (Emmc.mmcSetCapacity part, { r.2 with hwpart := part }) else r := rfl

theorem mmcSwitchPart_same (attempts : ℕ → Attempt) (part : ℕ) (e : Emmc) : Same e (e.mmcSwitchPart attempts part).2 := by
  rw [mmcSwitchPart_eq]
  dsimp only
  rw [apply_ite Prod.snd, switchLoop_state]
  split_ifs <;> exact ⟨rfl, rfl, rfl, rfl, rfl⟩

theorem mmcSwitchPart_selected (attempts : ℕ → Attempt) (part : ℕ) (e : Emmc) :
    (e.mmcSwitchPart attempts part).2.selected = if Taken attempts then part else e.selected := by
  have hstate := switchLoop_state attempts part 3 0 e
  simp only [Nat.zero_add] at hstate
  rw [mmcSwitchPart_eq]
  dsimp only
  by_cases htaken : Taken attempts
  · rw [if_pos htaken, apply_ite Prod.snd, hstate, if_pos (c := ∃ k ≤ 3, _) htaken]
    split_ifs <;> rfl
  · rw [if_neg htaken, apply_ite Prod.snd, hstate, if_neg (c := ∃ k ≤ 3, _) htaken]
    split_ifs <;> rfl

theorem mmcSwitchPart_hwpart (attempts : ℕ → Attempt) {e : Emmc} (h : e.hwpart = 0) :
    (e.mmcSwitchPart attempts 0).2.hwpart = 0 := by
  rw [mmcSwitchPart_eq]
  dsimp only
  rw [apply_ite Prod.snd, switchLoop_state]
  split_ifs
  · rfl
  · rfl
  · exact h
  · exact h

/-- A switch that reports success is in the descriptor. -/
theorem mmcSwitchPart_named (attempts : ℕ → Attempt) (part : ℕ) {e : Emmc} (h : (e.mmcSwitchPart attempts part).1 = 0) :
    (e.mmcSwitchPart attempts part).2.hwpart = part := by
  rw [mmcSwitchPart_eq] at h ⊢
  dsimp only at h ⊢
  split at h
  · rw [if_pos ‹_›]
  · exact absurd (Or.inl h) ‹_›

theorem mmcSwitchPart_ret (attempts : ℕ → Attempt) {part : ℕ} (hpart : part ≠ 0) (hrange : part ≤ 7) (e : Emmc) :
    (e.mmcSwitchPart attempts part).1 = 0 ↔ Done attempts := by
  have hret := switchLoop_ret attempts part 3 0 e
  simp only [Nat.zero_add] at hret
  rw [mmcSwitchPart_eq]
  simp only [hpart, and_false, or_false]
  by_cases hdone : (Emmc.switchLoop attempts part 3 0 e).1 = 0
  · rw [if_pos hdone, Emmc.mmcSetCapacity, if_pos hrange]
    exact ⟨fun _ => hret.mp hdone, fun _ => rfl⟩
  · rw [if_neg hdone]
    exact hret

/-! ## The lookups of the A/B library -/

/-- One of some accesses of the library has the user area selected. -/
def LookupTaken (e : Emmc) (start stop : ℕ) : Prop :=
  ∃ n, (start ≤ n ∧ n < stop) ∧ ∃ attempts, e.lookups n = some attempts ∧ Taken attempts

theorem getPartition_same (n : ℕ) (e : Emmc) : Same e (e.getPartition n) := by
  unfold Emmc.getPartition
  split
  · exact mmcSwitchPart_same _ _ _
  · exact .refl e

theorem getPartition_hwpart (n : ℕ) {e : Emmc} (h : e.hwpart = 0) : (e.getPartition n).hwpart = 0 := by
  unfold Emmc.getPartition
  split
  · exact mmcSwitchPart_hwpart _ h
  · exact h

theorem getPartitions_same (start count : ℕ) (e : Emmc) : Same e (e.getPartitions start count) := by
  unfold Emmc.getPartitions
  induction List.range' start count generalizing e with
  | nil => exact .refl e
  | cons n l ih => exact (getPartition_same n e).trans (ih _)

theorem getPartitions_hwpart (start count : ℕ) {e : Emmc} (h : e.hwpart = 0) : (e.getPartitions start count).hwpart = 0 := by
  unfold Emmc.getPartitions
  induction List.range' start count generalizing e with
  | nil => exact h
  | cons n l ih => exact ih (getPartition_hwpart n h)

/-- After some accesses the user area is selected if it was before or one of them has had it selected. -/
theorem getPartitions_user (start count : ℕ) (e : Emmc) :
    (e.getPartitions start count).selected = 0 ↔ e.selected = 0 ∨ LookupTaken e start (start + count) := by
  induction count generalizing start e with
  | zero =>
    have hnone : ¬ LookupTaken e start start := fun ⟨n, hn, _⟩ => by omega
    simp [Emmc.getPartitions, hnone]
  | succ count ih =>
    have hstep : e.getPartitions start (count + 1) = (e.getPartition start).getPartitions (start + 1) count := by
      simp [Emmc.getPartitions, List.range'_succ]
    have hfirst : (e.getPartition start).selected = 0 ↔
        e.selected = 0 ∨ ∃ attempts, e.lookups start = some attempts ∧ Taken attempts := by
      unfold Emmc.getPartition
      cases e.lookups start with
      | none => simp
      | some attempts =>
        dsimp only
        rw [mmcSwitchPart_selected]
        by_cases htaken : Taken attempts <;> simp [htaken]
    have hrest : LookupTaken (e.getPartition start) (start + 1) (start + 1 + count) ↔
        LookupTaken e (start + 1) (start + 1 + count) := by
      unfold LookupTaken
      rw [(getPartition_same start e).lookups]
    rw [hstep, ih, hfirst, hrest, or_assoc]
    refine or_congr_right ⟨?_, ?_⟩
    · rintro (h | ⟨n, hn, h⟩)
      · exact ⟨start, by omega, h⟩
      · exact ⟨n, by omega, h⟩
    · rintro ⟨n, hn, h⟩
      obtain rfl | hlt := eq_or_lt_of_le hn.1
      · exact .inl h
      · exact .inr ⟨n, by omega, h⟩

/-! ## The function -/

variable (dev : Device)

/-- Whenever the function returns, the user area is selected. -/
def ReturnsToUser (e : Emmc) : Prop :=
  ∀ response e', (fbHandleBootloaderFlashing dev).run e = (some response, e') → e'.selected = 0

/-- The image is refused before anything is switched. -/
def RefusesImage (b : Board) : Prop :=
  getBootloaderSize dev b.env < b.imageSize.toNat ∨ (b.io b.pos).found = false ∨ (b.io b.pos).described = false

/-- The board when the image has been written. -/
def written (slot : UInt8) (b : Board) : Board :=
  ((writeBootPart slot b.image (writeBlocks b.imageSize)).run { b with pos := b.pos + 1 }).2

/-- The user area is selected where an end of the function expects it: at a refusal it was selected before
the slot was looked up or the lookup has selected it, a switch to the boot partition that fails has not
taken effect either, and after a switch the image is written whole and the user area selected again by the
update of the slot or by the switch back. -/
def SelectionFits (e : Emmc) : Prop :=
  ∀ slot b, (fastbootGetSlotIndex dev).run e.board = (some slot, b) →
    let user := e.selected = 0 ∨ LookupTaken e e.board.avb.pos b.avb.pos
    (RefusesImage dev b → user) ∧
    (¬ RefusesImage dev b → ¬ Done (e.switches e.pos) → user ∧ ¬ Taken (e.switches e.pos)) ∧
    (¬ RefusesImage dev b → Done (e.switches e.pos) → (b.io b.pos).moved = true ∧
      ∀ ok b', (avbSetActiveSlot dev slot).run (written slot b) = (some ok, b') →
        LookupTaken e b.avb.pos b'.avb.pos ∨ Taken (e.switches (e.pos + 1)))

theorem mmcSwitchPart_run (part : ℕ) (e : Emmc) : ∃ e', (mmcSwitchPart part).run e =
      (some (e.mmcSwitchPart (e.switches e.pos) part).1, e') ∧ e'.board = e.board ∧ e'.switches = e.switches ∧
    e'.lookups = e.lookups ∧ e'.pos = e.pos + 1 ∧ e'.selected = if Taken (e.switches e.pos) then part else e.selected := by
  have hsame := mmcSwitchPart_same (e.switches e.pos) part e
  exact ⟨_, rfl, hsame.board, hsame.switches, hsame.lookups, rfl, mmcSwitchPart_selected _ _ _⟩

theorem hwPart_ne_user (slot : UInt8) : hwPart slot ≠ 0 := by
  unfold hwPart
  split <;> decide

theorem hwPart_le (slot : UInt8) : hwPart slot ≤ 7 := by
  unfold hwPart
  split <;> decide

theorem writeSelected_run (slot : UInt8) (buffer : Mem) (n : ℕ) {e : Emmc} (h : e.selected = hwPart slot) :
    (writeSelected buffer n).run e = (some (), { e with board := ((writeBootPart slot buffer n).run e.board).2 }) := by
  have hmodify : (writeSelected buffer n).run e = (some (), { e with
      board :=
        if e.selected = 0 then { e.board with user := e.board.user.copy 0 buffer 0 (n * BLKSZ) }
        else if e.selected = 1 then { e.board with boot1 := e.board.boot1.copy 0 buffer 0 (n * BLKSZ) }
        else if e.selected = 2 then { e.board with boot2 := e.board.boot2.copy 0 buffer 0 (n * BLKSZ) }
        else e.board }) := rfl
  have hboard : ((writeBootPart slot buffer n).run e.board).2 =
      if slot = 0 then { e.board with boot1 := e.board.boot1.copy 0 buffer 0 (n * BLKSZ) }
      else { e.board with boot2 := e.board.boot2.copy 0 buffer 0 (n * BLKSZ) } := rfl
  rw [hmodify, hboard, h]
  unfold hwPart
  split_ifs <;> simp_all

/-- A function of the library that returns leaves the user area selected if it was, or if one of its lookups
has selected it. -/
theorem onMetadata_run {α : Type} {x : Prog Board α} {e : Emmc} {a : α} {b : Board} (h : x.run e.board = (some a, b)) :
    ∃ e', (onMetadata x).run e = (some a, e') ∧ e'.board = b ∧ e'.switches = e.switches ∧ e'.lookups = e.lookups ∧
      e'.pos = e.pos ∧ (e.hwpart = 0 → e'.hwpart = 0) ∧
      (e'.selected = 0 ↔ e.selected = 0 ∨ LookupTaken e e.board.avb.pos b.avb.pos) := by
  let e1 : Emmc := { e with board := b }
  have hrun : (onMetadata x).run e = (some a, e1.getPartitions e.board.avb.pos (b.avb.pos - e.board.avb.pos)) := by
    change ((x.run e.board).1, _) = _
    rw [h]
  have hsame := getPartitions_same e.board.avb.pos (b.avb.pos - e.board.avb.pos) e1
  refine ⟨_, hrun, hsame.board, hsame.switches, hsame.lookups, hsame.pos, fun hu => getPartitions_hwpart _ _ hu, ?_⟩
  rw [getPartitions_user]
  refine or_congr_right ⟨?_, ?_⟩
  · rintro ⟨n, hn, htaken⟩
    exact ⟨n, by omega, htaken⟩
  · rintro ⟨n, hn, htaken⟩
    exact ⟨n, by omega, htaken⟩

theorem onMetadata_stuck {α : Type} {x : Prog Board α} {e : Emmc} (h : (x.run e.board).1 = none) :
    ((onMetadata x).run e).1 = none := h

theorem pure_user (answer : CStr) (e : Emmc) :
    (∀ response e', (pure answer : Prog Emmc CStr).run e = (some response, e') → e'.selected = 0) ↔ e.selected = 0 := by
  constructor
  · exact fun hall => hall answer e rfl
  · rintro hu _ _ ⟨⟩
    exact hu

/-- The end of the function, by the result of the switch to the boot partition. -/
theorem writeBootloader_user (slot : UInt8) (blocks : ℕ) (a : Outcome) (e : Emmc) :
    (∀ response e', (writeBootloader dev slot e.board.image blocks a).run e = (some response, e') → e'.selected = 0) ↔
      (¬ Done (e.switches e.pos) → e.selected = 0 ∧ ¬ Taken (e.switches e.pos)) ∧
      (Done (e.switches e.pos) → a.moved = true ∧
        ∀ ok b', (avbSetActiveSlot dev slot).run ((writeBootPart slot e.board.image blocks).run e.board).2 = (some ok, b') →
          LookupTaken e e.board.avb.pos b'.avb.pos ∨ Taken (e.switches (e.pos + 1))) := by
  obtain ⟨e1, hswitch, hboard, hswitches, hlookups, hpos, hselected⟩ := mmcSwitchPart_run (hwPart slot) e
  have hret := mmcSwitchPart_ret (e.switches e.pos) (hwPart_ne_user slot) (hwPart_le slot) e
  unfold writeBootloader
  rw [run_bind_of_some hswitch]
  by_cases hdone : Done (e.switches e.pos)
  · rw [if_pos hdone.taken] at hselected
    rw [if_neg (not_not_intro (hret.mpr hdone)), run_bind_of_some (writeSelected_run slot _ _ hselected), hboard]
    simp only [hdone, not_true_eq_false, false_implies, true_and, true_implies]
    cases hmoved : a.moved with
    | false =>
      simp only [Bool.not_false, if_true, Bool.false_eq_true, false_and, iff_false]
      rw [pure_user]
      exact fun hu => hwPart_ne_user slot (hselected.symm.trans hu)
    | true =>
      simp only [Bool.not_true, Bool.false_eq_true, if_false, if_true, true_and]
      generalize hb2 : ((writeBootPart slot e.board.image blocks).run e.board).2 = b2
      have havb : b2.avb = e.board.avb := by
        rw [← hb2]
        change (if slot = 0 then _ else _ : Board).avb = _
        split <;> rfl
      rcases hset : (avbSetActiveSlot dev slot).run b2 with ⟨_ | ok, b3⟩
      · constructor
        · rintro - ok b' ⟨⟩
        · rintro - response e' hrun
          obtain ⟨ok, t, hok, -⟩ := run_bind_eq_some hrun
          have hstuck := onMetadata_stuck (e := { e1 with board := b2 }) (congrArg Prod.fst hset)
          rw [hok] at hstuck
          cases hstuck
      · obtain ⟨e3, hset', -, hswitches3, -, hpos3, -, huser⟩ := onMetadata_run (e := { e1 with board := b2 }) hset
        obtain ⟨e4, hback, -, -, -, -, hselected4⟩ := mmcSwitchPart_run MMC_DEFAULT_PARTITION e3
        have hback' : e4.selected = 0 ↔ LookupTaken e e.board.avb.pos b3.avb.pos ∨ Taken (e.switches (e.pos + 1)) := by
          have hlookup : LookupTaken { e1 with board := b2 } b2.avb.pos b3.avb.pos ↔
              LookupTaken e e.board.avb.pos b3.avb.pos := by
            unfold LookupTaken
            dsimp only
            rw [hlookups, havb]
          have hno : e1.selected ≠ 0 := hselected ▸ hwPart_ne_user slot
          rw [hswitches3, hpos3] at hselected4
          dsimp only at hselected4 huser
          rw [hswitches, hpos] at hselected4
          rw [hlookup, or_iff_right hno] at huser
          rw [hselected4, ← huser]
          by_cases htaken : Taken (e.switches (e.pos + 1)) <;> simp [htaken, MMC_DEFAULT_PARTITION]
        rw [run_bind_of_some hset', run_bind_of_some hback]
        have hend : (∀ response e', (if (Emmc.mmcSwitchPart (e3.switches e3.pos) MMC_DEFAULT_PARTITION e3).1 ≠ 0 then
            (pure (fastbootFail (ascii "failed switching to partition")) : Prog Emmc CStr) else pure fastbootOkay).run e4 =
              (some response, e') → e'.selected = 0) ↔ e4.selected = 0 := by
          split <;> exact pure_user _ e4
        rw [hend, hback']
        constructor
        · rintro h ok' b' ⟨⟩
          exact h
        · exact fun h => h ok b3 rfl
  · simp only [hdone, not_false_eq_true, true_implies, false_implies, and_true]
    rw [if_pos fun h => hdone (hret.mp h)]
    have hend : (∀ response e', ((pure (fastbootFail (ascii "failed switching to partition")) : Prog Emmc CStr)).run e1 =
        (some response, e') → e'.selected = 0) ↔ e1.selected = 0 :=
      ⟨fun hall => hall _ _ rfl, fun hu _ _ hrun => by obtain ⟨-, rfl⟩ := Prod.mk.inj hrun; exact hu⟩
    rw [hend, hselected]
    by_cases htaken : Taken (e.switches e.pos)
    · simp [htaken, hwPart_ne_user]
    · simp [htaken]

theorem blkGetDev_run (found : Bool) {e : Emmc} (h : e.hwpart = MMC_DEFAULT_PARTITION) : (blkGetDev found).run e = (some found, e) := by
  cases found with
  | false => rfl
  | true =>
    unfold blkGetDev
    rw [if_neg (by decide), run_bind_get, if_pos h]
    rfl

/-- A command that finds its device finds it with the descriptor at the user area, and with the user area
selected if it was. -/
theorem blkGetDev_user {found : Bool} {e e' : Emmc} (h : (blkGetDev found).run e = (some true, e')) :
    e'.hwpart = MMC_DEFAULT_PARTITION ∧ (e.selected = 0 → e'.selected = 0) := by
  unfold blkGetDev at h
  cases found with
  | false => cases h
  | true =>
    rw [if_neg (by decide), run_bind_get] at h
    by_cases hhwpart : e.hwpart = MMC_DEFAULT_PARTITION
    · rw [if_pos hhwpart] at h
      obtain ⟨-, rfl⟩ := Prod.mk.inj h
      exact ⟨hhwpart, id⟩
    · rw [if_neg hhwpart] at h
      cases hno : e.notAvailable with
      | true =>
        rw [if_pos hno] at h
        cases h
      | false =>
        rw [if_neg (by rw [hno]; decide)] at h
        have hend : ((e.mmcSwitchPart (e.switches e.pos) 0).1 = 0) ∧
            e' = { (e.mmcSwitchPart (e.switches e.pos) 0).2 with pos := e.pos + 1 } := by
          obtain ⟨hret, hstate⟩ := Prod.mk.inj h
          exact ⟨of_decide_eq_true (Option.some.inj hret), hstate.symm⟩
        rw [hend.2]
        refine ⟨mmcSwitchPart_named _ _ hend.1, fun huser => ?_⟩
        dsimp only
        rw [mmcSwitchPart_selected, huser, ite_self]

/-- The function ends with the user area selected exactly where each of its ends has seen to it. The caller's
search for the device leaves the descriptor at the user area. -/
theorem returnsToUser_iff {e : Emmc} (h : e.hwpart = MMC_DEFAULT_PARTITION) : ReturnsToUser dev e ↔ SelectionFits dev e := by
  unfold ReturnsToUser SelectionFits fbHandleBootloaderFlashing
  rcases hslot : (fastbootGetSlotIndex dev).run e.board with ⟨_ | slot, b⟩
  · constructor
    · rintro - slot b' ⟨⟩
    · rintro - response e' hrun
      obtain ⟨slot, t, hok, -⟩ := run_bind_eq_some hrun
      have hstuck := onMetadata_stuck (e := e) (congrArg Prod.fst hslot)
      rw [hok] at hstuck
      cases hstuck
  obtain ⟨e1, hget, hboard, hswitches, hlookups, hpos, hhwpart, huser⟩ := onMetadata_run hslot
  rw [run_bind_of_some hget, run_bind_get, hboard]
  -- the lookup of the slot has one result
  have honly : ∀ P : UInt8 → Board → Prop,
      (∀ slot' b', ((some slot, b) : Option UInt8 × Board) = (some slot', b') → P slot' b') ↔ P slot b := by
    intro P
    constructor
    · exact fun hall => hall slot b rfl
    · rintro hp _ _ ⟨⟩
      exact hp
  rw [honly]
  dsimp only
  rw [← huser]
  have hend : ∀ answer (e2 : Emmc), e2.selected = e1.selected → RefusesImage dev b →
      ((∀ response e', (pure answer : Prog Emmc CStr).run e2 = (some response, e') → e'.selected = 0) ↔
        (RefusesImage dev b → e1.selected = 0) ∧
        (¬ RefusesImage dev b → ¬ Done (e.switches e.pos) → e1.selected = 0 ∧ ¬ Taken (e.switches e.pos)) ∧
        (¬ RefusesImage dev b → Done (e.switches e.pos) → (b.io b.pos).moved = true ∧
          ∀ ok b', (avbSetActiveSlot dev slot).run (written slot b) = (some ok, b') →
            LookupTaken e b.avb.pos b'.avb.pos ∨ Taken (e.switches (e.pos + 1)))) := by
    intro answer e2 hselected hrefuses
    rw [pure_user, hselected]
    simp only [hrefuses, true_implies, not_true_eq_false, false_implies, and_true]
  by_cases hsize : b.imageSize.toNat > getBootloaderSize dev b.env
  · rw [if_pos hsize]
    exact hend _ e1 rfl (.inl hsize)
  rw [if_neg hsize]
  have haccess : (onBoard access).run e1 = (some (e1.board.io e1.board.pos), { e1 with board := { e1.board with pos := e1.board.pos + 1 } }) := rfl
  rw [hboard] at haccess
  have hdevice : ∀ (found : Bool) (b' : Board), (blkGetDev found).run { e1 with board := b' } = (some found, { e1 with board := b' }) :=
    fun found b' => blkGetDev_run found (hhwpart h)
  rw [run_bind_of_some haccess, run_bind_of_some (hdevice _ _)]
  cases hfound : (b.io b.pos).found with
  | false =>
    rw [if_pos (by rfl)]
    exact hend _ _ rfl (.inr (.inl hfound))
  | true =>
    rw [if_neg (by decide)]
    cases hdescribed : (b.io b.pos).described with
    | false =>
      rw [if_pos (by rfl)]
      exact hend _ _ rfl (.inr (.inr hdescribed))
    | true =>
      rw [if_neg (by decide)]
      have hgoes : ¬ RefusesImage dev b := by
        rintro (hbig | hno | hno)
        · exact hsize hbig
        · rw [hfound] at hno
          cases hno
        · rw [hdescribed] at hno
          cases hno
      have hwrite := writeBootloader_user dev slot (writeBlocks b.imageSize) (b.io b.pos) { e1 with board := { b with pos := b.pos + 1 } }
      have hlookup : ∀ stop, LookupTaken { e1 with board := { b with pos := b.pos + 1 } } b.avb.pos stop ↔
          LookupTaken e b.avb.pos stop := by
        intro stop
        unfold LookupTaken
        dsimp only
        rw [hlookups]
      simp only [hgoes, false_implies, not_false_eq_true, true_implies, true_and]
      rw [← hswitches, ← hpos]
      refine Iff.trans hwrite (and_congr_right fun _ => imp_congr_right fun _ => and_congr_right fun _ => ?_)
      exact forall_congr' fun ok => forall_congr' fun b' => imp_congr_right fun _ => or_congr_left (hlookup b'.avb.pos)

/-! ## A short write -/

/-- A device with a partition for the message and the slots. -/
def deviceWithSlots : Device := { deviceWithMisc with depth := 1 }

def done : Attempt := ⟨0, true, fun _ => rfl⟩

/-- The user area is selected, and every switch is done. -/
def emmcOf (moved : Bool) : Emmc where
  board := boardOf bothUnlocked fun _ => { smooth with moved := moved }
  selected := 0
  hwpart := 0
  notAvailable := false
  switches _ _ := done
  pos := 0
  lookups _ := some fun _ => done

/-- The transfer of the image fails, and boot partition 1 stays selected. -/
theorem short_write_stays : ¬ ∀ dev e, e.selected = 0 → e.hwpart = 0 → ReturnsToUser dev e := by
  intro h
  have hreturns := h deviceWithSlots (emmcOf false) rfl rfl
  unfold ReturnsToUser at hreturns
  have hrun : ((fbHandleBootloaderFlashing deviceWithSlots).run (emmcOf false)).1 =
      some (fastbootFail (ascii "failed writing to device")) := by decide +kernel
  have hselected : ((fbHandleBootloaderFlashing deviceWithSlots).run (emmcOf false)).2.selected = 1 := by decide +kernel
  rcases hr : (fbHandleBootloaderFlashing deviceWithSlots).run (emmcOf false) with ⟨response, e'⟩
  rw [hr] at hrun hselected hreturns
  obtain rfl : response = _ := hrun
  exact absurd (hselected.symm.trans (hreturns _ _ rfl)) (by decide)

theorem whole_write_returns : ReturnsToUser deviceWithSlots (emmcOf true) := by
  refine (returnsToUser_iff deviceWithSlots rfl).mpr fun slot b hrun => ⟨fun _ => .inl rfl, fun _ hno => ?_, fun _ _ => ⟨?_, ?_⟩⟩
  · exact absurd ⟨0, by decide, rfl⟩ hno
  · have hrest : Rest (emmcOf true).board b := by
      have := onMisc_rest deviceWithSlots (UBoot.avbGetSlotIndexWith (loadMetadata deviceWithSlots)) (emmcOf true).board
      change Rest _ ((fastbootGetSlotIndex deviceWithSlots).run _).2 at this
      rwa [hrun] at this
    rw [hrest.io]
    rfl
  · exact fun _ _ _ => .inr ⟨0, by decide, fun j hj => absurd hj (Nat.not_lt_zero j), rfl⟩

end RCar.Fastboot.HwPart
