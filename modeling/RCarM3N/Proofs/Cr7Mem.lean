import RCarM3N.Lib.ArmBlocks
import RCarM3N.Model.Cr7Mem

/-! The copies and the fill of the loader of the Cortex-R7. The copies test their counter behind the decrement, so a copy
of no bytes goes once through the whole memory. -/

namespace RCar.Cr7Mem

open Arm

variable {s t : State} {ret : Word} {Q : State → Prop} {last : List Line} {k n : ℕ}

/-! ## The lines -/

def wordLoop (last : List Line) : List Line := after 1 (copyLines last)

def byteLoop (last : List Line) : List Line := after 2 (copyLines last)

def copyExit (last : List Line) : List Line := after 3 (copyLines last)

def wordRound : List (Cond × Instr) := [
  (.al, .ldr .r3 .r1 4),
  (.al, .str .r3 .r0 4),
  (.al, .subs .r2 .r2 (.imm 4))]

def byteRound : List (Cond × Instr) := [
  (.al, .ldrb .r3 .r1 1),
  (.al, .strb .r3 .r0 1),
  (.al, .subs .r2 .r2 (.imm 1))]

theorem byteLoop_iff : Ends (copyLines last) ret (byteLoop last) s Q ↔
    Ends (copyLines last) ret (if s.reg .r2 = 1 then copyExit last else byteLoop last) (execs s byteRound) Q := by
  show Ends _ _ (lines byteRound ++ (.b .ne 2 :: .label 3 :: copyExit last)) s Q ↔ _
  rw [ends_lines, ends_b]
  have hflags : (execs s byteRound).flags = subFlags (s.reg .r2) 1 := by simp [execs, byteRound]
  simp only [hflags, holds_ne]
  by_cases h : s.reg .r2 = 1
  · rw [if_neg (not_not.mpr h), if_pos h, ends_label]
  · rw [if_pos h, if_neg h]
    rfl

theorem wordLoop_iff : Ends (copyLines last) ret (wordLoop last) s Q ↔
    if s.reg .r2 = 4 then Ends (copyLines last) ret (copyExit last) (execs s wordRound) Q
    else Ends (copyLines last) ret (if 4 ≤ (s.reg .r2 - 4).toNat then wordLoop last else byteLoop last)
      ((execs s wordRound).setFlags (subFlags (s.reg .r2 - 4) 4)) Q := by
  show Ends _ _ (lines wordRound ++ (.b .eq 3 :: .op .al (.cmp .r2 (.imm 4)) :: .b .cs 1 :: .label 2 ::
    byteLoop last)) s Q ↔ _
  rw [ends_lines, ends_b]
  have hflags : (execs s wordRound).flags = subFlags (s.reg .r2) 4 := by simp [execs, wordRound]
  have hr2 : (execs s wordRound).reg .r2 = s.reg .r2 - 4 := by simp [execs, wordRound]
  simp only [hflags, holds_eq]
  by_cases h : s.reg .r2 = 4
  · rw [if_pos h, if_pos h]
    rfl
  · rw [if_neg h, if_neg h, ends_op_al, ends_b]
    simp only [Instr.exec, Operand.eval, State.flags_setFlags, holds_cs, hr2]
    by_cases hmore : (4 : Word).toNat ≤ (s.reg .r2 - 4).toNat
    · rw [if_pos hmore, if_pos (show 4 ≤ _ from hmore)]
      rfl
    · rw [if_neg hmore, if_neg (show ¬ 4 ≤ _ from hmore), ends_label]

/-- The registers that a copy does not change. -/
structure SameCall (s t : State) : Prop where
  ip : t.reg .ip = s.reg .ip
  lr : t.reg .lr = s.reg .lr

theorem byteRound_frame (s : State) : SameCall s (execs s byteRound) ∧ (execs s byteRound).reg .r0 = s.reg .r0 + 1 ∧
    (execs s byteRound).reg .r1 = s.reg .r1 + 1 ∧ (execs s byteRound).reg .r2 = s.reg .r2 - 1 ∧
    (execs s byteRound).mem = State.storeByte s.mem (s.reg .r0) (s.mem (s.reg .r1)) := by
  refine ⟨⟨?_, ?_⟩, ?_, ?_, ?_, ?_⟩ <;> simp [execs, byteRound]

theorem wordRound_frame (s : State) : SameCall s (execs s wordRound) ∧ (execs s wordRound).reg .r0 = s.reg .r0 + 4 ∧
    (execs s wordRound).reg .r1 = s.reg .r1 + 4 ∧ (execs s wordRound).reg .r2 = s.reg .r2 - 4 ∧
    (execs s wordRound).mem = State.storeWord s.mem (s.reg .r0) (State.loadWord s.mem (s.reg .r1)) := by
  refine ⟨⟨?_, ?_⟩, ?_, ?_, ?_, ?_⟩ <;> simp [execs, wordRound]

/-! ## Copies -/

/-- Lines that only return. -/
def Returning (last : List Line) : Prop :=
  ∀ (p : List Line) (ret : Word) (s : State) (Q : State → Prop), Ends p ret last s Q ↔ s.reg .lr = ret ∧ Q s

theorem returning_bxlr : Returning [.bxlr] := fun _ _ _ _ => ends_bxlr

theorem returning_dsb : Returning [.op .al .dsb, .bxlr] := fun _ _ _ _ => by
  rw [ends_op_al, ends_bxlr]
  rfl

/-- A result and a memory that a call leaves. -/
def Leaves (r : Word) (m : Word → Byte) (t : State) : Prop := t.reg .r0 = r ∧ t.mem = m

theorem copyExit_ends (hlast : Returning last) (hlr : s.reg .lr = ret) :
    Ends (copyLines last) ret (copyExit last) s (Leaves (s.reg .ip) s.mem) := by
  show Ends _ _ (.op .al (.mov .r0 (.reg .ip)) :: last) s _
  rw [ends_op_al, hlast]
  refine ⟨by simpa using hlr, ?_, ?_⟩ <;> simp

/-- The loop for bytes; from a counter of 0 it makes `2 ^ 32` turns. -/
theorem byteLoop_ends (hlast : Returning last) (hpos : 0 < n) (hn : n ≤ 2 ^ 32) (hr2 : s.reg .r2 = BitVec.ofNat 32 n)
    (hlr : s.reg .lr = ret) : Ends (copyLines last) ret (byteLoop last) s
      (Leaves (s.reg .ip) (copyUp s.mem (s.reg .r0) (s.reg .r1) n)) := by
  induction n generalizing s with
  | zero => exact absurd hpos (lt_irrefl 0)
  | succ n ih =>
    obtain ⟨hsame, h0, h1, h2, hmem⟩ := byteRound_frame s
    rw [hr2, ofNat_succ_sub_one] at h2
    rw [byteLoop_iff, hr2]
    split_ifs with hend <;> rw [ofNat_succ_eq_one_iff hn] at hend
    · have hexit := copyExit_ends hlast (hsame.lr.trans hlr)
      rw [hsame.ip, hmem] at hexit
      rw [hend]
      exact hexit
    · have hloop := ih (Nat.pos_of_ne_zero hend) (Nat.le_of_succ_le hn) h2 (hsame.lr.trans hlr)
      rwa [hsame.ip, hmem, h0, h1] at hloop

/-- The loop for words. -/
theorem wordLoop_ends (hlast : Returning last) (hn : n < 2 ^ 32) (hr2 : s.reg .r2 = BitVec.ofNat 32 n) (h4 : 4 ≤ n)
    (hapart : Apart (s.reg .r0) (s.reg .r1) n) (hlr : s.reg .lr = ret) : Ends (copyLines last) ret (wordLoop last) s
      (Leaves (s.reg .ip) (copyUp s.mem (s.reg .r0) (s.reg .r1) n)) := by
  induction n using Nat.strong_induction_on generalizing s with
  | h n ih =>
    obtain ⟨m, rfl⟩ := Nat.exists_eq_add_of_le h4
    obtain ⟨hsame, h0, h1, h2, hmem⟩ := wordRound_frame s
    have hfour : Apart (s.reg .r0) (s.reg .r1) 4 := fun i hi j hj => hapart i (by omega) j (by omega)
    have hrest : s.reg .r2 - 4 = BitVec.ofNat 32 m := by
      rw [hr2, Nat.add_comm, BitVec.ofNat_add]
      exact BitVec.add_sub_cancel _ _
    have hback := hapart.shift (Nat.le_add_right 4 m)
    rw [Nat.add_sub_cancel_left] at hback
    rw [storeWord_loadWord hfour] at hmem
    rw [wordLoop_iff, copyUp_add]
    rw [hrest]
    have htoNat : (BitVec.ofNat 32 m).toNat = m := by rw [BitVec.toNat_ofNat, Nat.mod_eq_of_lt (by omega)]
    split_ifs with hend hmore
    · have hnone : m = 0 := by
        rw [← htoNat, ← hrest, hend]
        rfl
      have hexit := copyExit_ends hlast (hsame.lr.trans hlr)
      rw [hsame.ip, hmem] at hexit
      rw [hnone]
      exact hexit
    · rw [htoNat] at hmore
      have hloop := ih m (by omega) (s := (execs s wordRound).setFlags (subFlags (BitVec.ofNat 32 m) 4)) (by omega)
        (h2.trans hrest) hmore (by simpa [h0, h1] using hback) (hsame.lr.trans hlr)
      rw [State.reg_setFlags, State.mem_setFlags, hsame.ip, hmem, h0, h1] at hloop
      exact hloop
    · have hsome : m ≠ 0 := by
        rintro rfl
        exact hend hr2
      have hloop := byteLoop_ends (s := (execs s wordRound).setFlags (subFlags (BitVec.ofNat 32 m) 4)) hlast
        (Nat.pos_of_ne_zero hsome) (by omega) (h2.trans hrest) (hsame.lr.trans hlr)
      rw [State.reg_setFlags, State.mem_setFlags, hsame.ip, hmem, h0, h1] at hloop
      exact hloop

/-! ## The whole copy -/

/-- The state where one of the loops begins. -/
structure Entered (s t : State) : Prop where
  r0 : t.reg .r0 = s.reg .r0
  r1 : t.reg .r1 = s.reg .r1
  r2 : t.reg .r2 = s.reg .r2
  ip : t.reg .ip = s.reg .r0
  lr : t.reg .lr = s.reg .lr
  mem : t.mem = s.mem

def copyStart : List (Cond × Instr) := [
  (.al, .mov .ip (.reg .r0)),
  (.al, .cmp .r2 (.imm 4))]

def testAligned (r : Reg) : List (Cond × Instr) := [
  (.al, .and .r3 r (.imm 0x03)),
  (.al, .cmp .r3 (.imm 0))]

theorem Entered.testAligned (h : Entered s t) (r : Reg) : Entered s (execs t (testAligned r)) :=
  ⟨h.r0, h.r1, h.r2, h.ip, h.lr, h.mem⟩

/-- Fewer than four bytes are copied as bytes, more as words where both addresses are aligned. -/
theorem copy_enters (hbyte : ∀ t, Entered s t → Ends (copyLines last) ret (byteLoop last) t Q)
    (hword : ∀ t, Entered s t → 4 ≤ (s.reg .r2).toNat → Ends (copyLines last) ret (wordLoop last) t Q) :
    Ends (copyLines last) ret (copyLines last) s Q := by
  show Ends _ _ (lines copyStart ++ (.b .cc 2 :: (lines (testAligned .r0) ++ (.b .ne 2 ::
    (lines (testAligned .r1) ++ (.b .ne 2 :: .label 1 :: wordLoop last)))))) s Q
  have hstart : Entered s (execs s copyStart) := ⟨rfl, rfl, rfl, rfl, rfl, rfl⟩
  rw [ends_lines, ends_b]
  split_ifs with hfew
  · exact hbyte _ hstart
  · rw [ends_lines, ends_b]
    split_ifs
    · exact hbyte _ (hstart.testAligned .r0)
    · rw [ends_lines, ends_b]
      split_ifs
      · exact hbyte _ ((hstart.testAligned .r0).testAligned .r1)
      · rw [ends_label]
        apply hword _ ((hstart.testAligned .r0).testAligned .r1)
        have hflags : (execs s copyStart).flags = subFlags (s.reg .r2) 4 := by simp [execs, copyStart]
        rw [hflags, holds_cc] at hfew
        exact not_lt.mp hfew

/-! ## memset -/

def fillLoop : List Line := after 1 memset

def fillExit : List Line := after 2 memset

def fillRound : List (Cond × Instr) := [
  (.al, .strb .r1 .r0 1),
  (.al, .subs .r2 .r2 (.imm 1))]

theorem fillLoop_iff : Ends memset ret fillLoop s Q ↔
    Ends memset ret (if s.reg .r2 = 1 then fillExit else fillLoop) (execs s fillRound) Q := by
  show Ends _ _ (lines fillRound ++ (.b .ne 1 :: .label 2 :: fillExit)) s Q ↔ _
  rw [ends_lines, ends_b]
  have hflags : (execs s fillRound).flags = subFlags (s.reg .r2) 1 := by simp [execs, fillRound]
  simp only [hflags, holds_ne]
  by_cases h : s.reg .r2 = 1
  · rw [if_neg (not_not.mpr h), if_pos h, ends_label]
  · rw [if_pos h, if_neg h]
    rfl

theorem fillRound_frame (s : State) : SameCall s (execs s fillRound) ∧ (execs s fillRound).reg .r0 = s.reg .r0 + 1 ∧
    (execs s fillRound).reg .r1 = s.reg .r1 ∧ (execs s fillRound).reg .r2 = s.reg .r2 - 1 ∧
    (execs s fillRound).mem = State.storeByte s.mem (s.reg .r0) ((s.reg .r1).setWidth 8) := by
  refine ⟨⟨?_, ?_⟩, ?_, ?_, ?_, ?_⟩ <;> simp [execs, fillRound]

theorem fillExit_ends (hlr : s.reg .lr = ret) : Ends memset ret fillExit s (Leaves (s.reg .ip) s.mem) := by
  show Ends _ _ [.op .al (.mov .r0 (.reg .ip)), .bxlr] s _
  rw [ends_op_al, ends_bxlr]
  refine ⟨by simpa using hlr, ?_, ?_⟩ <;> simp

theorem fillLoop_ends (hpos : 0 < n) (hn : n < 2 ^ 32) (hr2 : s.reg .r2 = BitVec.ofNat 32 n) (hlr : s.reg .lr = ret) :
    Ends memset ret fillLoop s (Leaves (s.reg .ip) (fillUp s.mem (s.reg .r0) ((s.reg .r1).setWidth 8) n)) := by
  induction n generalizing s with
  | zero => exact absurd hpos (lt_irrefl 0)
  | succ n ih =>
    obtain ⟨hsame, h0, h1, h2, hmem⟩ := fillRound_frame s
    rw [hr2, ofNat_succ_sub_one] at h2
    rw [fillLoop_iff, hr2]
    split_ifs with hend <;> rw [ofNat_succ_eq_one_iff (Nat.lt_of_succ_lt hn)] at hend
    · have hexit := fillExit_ends (hsame.lr.trans hlr)
      rw [hsame.ip, hmem] at hexit
      rw [hend]
      exact hexit
    · have hloop := ih (Nat.pos_of_ne_zero hend) (Nat.lt_of_succ_lt hn) h2 (hsame.lr.trans hlr)
      rwa [hsame.ip, hmem, h0, h1] at hloop

/-- `memset` sets the bytes of its block, none if there are none. -/
theorem memset_returns (s : State) : Returns memset s
    (Leaves (s.reg .r0) (filled s.mem (s.reg .r0) ((s.reg .r1).setWidth 8) (s.reg .r2).toNat)) := by
  let start : List (Cond × Instr) := [(.al, .mov .ip (.reg .r0)), (.al, .cmp .r2 (.imm 0))]
  show Ends _ _ (lines start ++ (.b .eq 2 :: .label 1 :: fillLoop)) s _
  have hflags : (execs s start).flags = subFlags (s.reg .r2) 0 := by simp [execs, start]
  rw [ends_lines, ends_b, hflags]
  simp only [holds_eq]
  split_ifs with hnone
  · have hexit := fillExit_ends (s := execs s start) rfl
    have hzero : (s.reg .r2).toNat = 0 := congrArg BitVec.toNat hnone
    rw [hzero, filled_zero]
    exact hexit
  · have hpos : 0 < (s.reg .r2).toNat := Nat.pos_of_ne_zero fun h => hnone (BitVec.eq_of_toNat_eq h)
    have hloop := fillLoop_ends (s := execs s start) hpos (s.reg .r2).isLt (by simp [execs, start]) rfl
    rw [ends_label, ← fillUp_eq (s.reg .r2).isLt.le]
    exact hloop

/-! ## The three functions -/

/-- The turns of a loop that tests its counter behind the decrement. -/
def turns (count : Word) : ℕ := if count = 0 then 2 ^ 32 else count.toNat

theorem turns_spec (count : Word) : 0 < turns count ∧ turns count ≤ 2 ^ 32 ∧ count = BitVec.ofNat 32 (turns count) := by
  unfold turns
  split_ifs with h
  · exact ⟨by decide, le_rfl, h⟩
  · refine ⟨Nat.pos_of_ne_zero fun h0 => h (BitVec.eq_of_toNat_eq h0), count.isLt.le, ?_⟩
    simp

theorem copy_returns (hlast : Returning last) (hapart : Apart (s.reg .r0) (s.reg .r1) (s.reg .r2).toNat) :
    Returns (copyLines last) s (Leaves (s.reg .r0) (copyUp s.mem (s.reg .r0) (s.reg .r1) (turns (s.reg .r2)))) := by
  obtain ⟨hpos, hle, hturns⟩ := turns_spec (s.reg .r2)
  apply copy_enters
  · intro t ht
    have hloop := byteLoop_ends (s := t) hlast hpos hle (ht.r2.trans hturns) ht.lr
    rwa [ht.ip, ht.mem, ht.r0, ht.r1] at hloop
  · intro t ht h4
    have hcount : turns (s.reg .r2) = (s.reg .r2).toNat := by
      refine if_neg ?_
      intro h
      rw [h] at h4
      exact absurd h4 (by decide)
    rw [← hcount] at h4 hapart
    have hloop := wordLoop_ends (s := t) hlast (by rw [hcount]; exact (s.reg .r2).isLt) (ht.r2.trans hturns) h4
      (by rwa [ht.r0, ht.r1]) ht.lr
    rwa [ht.ip, ht.mem, ht.r0, ht.r1] at hloop

/-- A call that returns the destination and leaves the block copied, and the rest of the memory as it was. -/
def Copies (p : List Line) (s : State) : Prop :=
  Returns p s (Leaves (s.reg .r0) (copied s.mem (s.reg .r0) (s.reg .r1) (s.reg .r2).toNat))

theorem copies_iff (hlast : Returning last) (hapart : Apart (s.reg .r0) (s.reg .r1) (s.reg .r2).toNat) :
    Copies (copyLines last) s ↔ s.reg .r2 ≠ 0 ∨ ∀ a, s.mem (s.reg .r0 + a) = s.mem (s.reg .r1 + a) := by
  have hreturns := copy_returns hlast hapart
  by_cases hnone : s.reg .r2 = 0
  · rw [hnone, turns, if_pos rfl] at hreturns
    rw [Copies, hnone, or_iff_right (not_not.mpr rfl), ← copyUp_all]
    refine ⟨?_, ?_⟩
    · intro h
      obtain ⟨_, t, -, ⟨-, hcopied⟩, -, hup⟩ := h.and hreturns
      exact hup.symm.trans (hcopied.trans (copied_zero _ _ _))
    · intro h
      rw [h] at hreturns
      exact hreturns.mono fun t ht => ⟨ht.1, ht.2.trans (copied_zero _ _ _).symm⟩
  · rw [turns, if_neg hnone, copyUp_eq hapart (s.reg .r2).isLt.le] at hreturns
    exact ⟨fun _ => Or.inl hnone, fun _ => hreturns⟩

/-- `memset` is right, and so are the copies except of no bytes: these go once through the whole memory, and change
nothing only where every byte is the one that it gets. -/
theorem copies_right_iff (s t : State) (hapart : Apart (s.reg .r0) (s.reg .r1) (s.reg .r2).toNat) :
    (Copies memcpy s ∧ Copies tcmcpy s ∧ Returns memset t
      (Leaves (t.reg .r0) (filled t.mem (t.reg .r0) ((t.reg .r1).setWidth 8) (t.reg .r2).toNat))) ↔
    s.reg .r2 ≠ 0 ∨ ∀ a, s.mem (s.reg .r0 + a) = s.mem (s.reg .r1 + a) := by
  rw [memcpy, tcmcpy, copies_iff returning_bxlr hapart, copies_iff returning_dsb hapart]
  exact ⟨fun h => h.1, fun h => ⟨h, h, memset_returns t⟩⟩

/-- A call with a destination, a source and a number of bytes, where every byte is the lowest one of its address. -/
def copyCall (dest source count : Word) : State where
  reg
    | .r0 => dest
    | .r1 => source
    | .r2 => count
    | _ => 0
  flags := ⟨false, false, false, false⟩
  mem a := a.setWidth 8
  stack := []

theorem copies_right_seven : (Copies memcpy (copyCall 0x1000 0x2001 7) ∧ Copies tcmcpy (copyCall 0x1000 0x2001 7) ∧
    Returns memset (copyCall 0x1000 0x55 7) (Leaves 0x1000 (filled (copyCall 0x1000 0x55 7).mem 0x1000 0x55 7))) ↔
    (7 : Word) ≠ 0 ∨ ∀ a : Word, (0x1000 + a).setWidth 8 = (0x2001 + a).setWidth 8 :=
  copies_right_iff (copyCall 0x1000 0x2001 7) (copyCall 0x1000 0x55 7) (by unfold Apart; decide)

/-- A copy of no bytes changes the memory. -/
theorem copies_none : ¬ Copies memcpy (copyCall 0x1000 0x2001 0) ∧ ¬ Copies tcmcpy (copyCall 0x1000 0x2001 0) := by
  have hapart : Apart 0x1000 0x2001 0 := fun i hi => absurd hi (Nat.not_lt_zero i)
  have hwrong : ¬ ((0 : Word) ≠ 0 ∨ ∀ a : Word, (0x1000 + a).setWidth 8 = (0x2001 + a).setWidth 8) := by
    rintro (h | h)
    · exact h rfl
    · exact absurd (h 0) (by decide)
  exact ⟨mt (copies_iff (s := copyCall 0x1000 0x2001 0) returning_bxlr hapart).mp hwrong,
    mt (copies_iff (s := copyCall 0x1000 0x2001 0) returning_dsb hapart).mp hwrong⟩

end RCar.Cr7Mem
