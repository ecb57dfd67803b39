import RCarM3N.Model.Cr7Div

/-! The division of the loader of the Cortex-R7: the unsigned one is right for every divisor. -/

namespace RCar.Cr7

open Arm

variable {s : State} {ret : Word} {Q : State → Prop}

/-! ## Unsigned -/

def uidivLoop : List Line := after 1 aeabiUidivmod

def uidivExit : List Line := aeabiUidivmod.drop 12

/-- The straight-line part of a round. -/
def uidivRound : List (Cond × Instr) := [
  (.al, .cmp .r3 (.reg .r0)),
  (.ls, .sub .r0 .r0 (.reg .r3)),
  (.ls, .add .r4 .r4 (.shiftBy .r5 .lsl .r2)),
  (.al, .mov .r3 (.shift .r3 .lsr 1)),
  (.al, .subs .r2 .r2 (.imm 1))]

theorem uidivLoop_iff : Ends aeabiUidivmod ret uidivLoop s Q ↔
    Ends aeabiUidivmod ret (if (s.reg .r2 - 1).msb = false then uidivLoop else uidivExit)
      (execs s uidivRound) Q := by
  show Ends _ _ (lines uidivRound ++ (.b .pl 1 :: uidivExit)) s Q ↔ _
  rw [ends_lines, ends_b]
  have hflags : (execs s uidivRound).flags = subFlags (s.reg .r2) 1 := by
    by_cases h : (s.reg .r3).toNat ≤ (s.reg .r0).toNat <;> simp [execs, uidivRound, holds_ls, h]
  simp only [hflags, holds_pl]
  rfl

/-- What the loop keeps, with the divisor `d` shifted up by `k`: the numerator is `q * d` and a rest. -/
structure Dividing (n d : Word) (k : ℕ) (s : State) : Prop where
  shift : s.reg .r2 = BitVec.ofNat 32 k
  divisor : (s.reg .r3).toNat = d.toNat * 2 ^ k
  one : s.reg .r5 = 1
  rest : (s.reg .r0).toNat < d.toNat * 2 ^ (k + 1)
  numerator : n.toNat = (s.reg .r4).toNat * d.toNat + (s.reg .r0).toNat

theorem uidivRound_frame (s : State) : (execs s uidivRound).reg .r2 = s.reg .r2 - 1 ∧
    (execs s uidivRound).reg .r3 = s.reg .r3 >>> 1 ∧ (execs s uidivRound).reg .r5 = s.reg .r5 ∧
    (execs s uidivRound).reg .lr = s.reg .lr ∧ (execs s uidivRound).stack = s.stack ∧
    (execs s uidivRound).mem = s.mem := by
  by_cases h : (s.reg .r3).toNat ≤ (s.reg .r0).toNat <;> simp [execs, uidivRound, holds_ls, h]

/-- A round takes the shifted divisor off the rest where it fits. -/
theorem uidivRound_spec {n d : Word} {k : ℕ} (hk : k < 32) (hd : d ≠ 0) (h : Dividing n d k s) :
    ((execs s uidivRound).reg .r0).toNat < d.toNat * 2 ^ k ∧
      n.toNat = ((execs s uidivRound).reg .r4).toNat * d.toNat + ((execs s uidivRound).reg .r0).toNat := by
  have hrest := h.rest
  have hnum := h.numerator
  by_cases hle : (s.reg .r3).toNat ≤ (s.reg .r0).toNat
  · have hr0 : (execs s uidivRound).reg .r0 = s.reg .r0 - s.reg .r3 := by
      simp [execs, uidivRound, holds_ls, hle]
    have hr4 : (execs s uidivRound).reg .r4 = s.reg .r4 + 1#32 <<< k := by
      have hshift : (s.reg .r2).toNat % 256 = k := by
        rw [h.shift, BitVec.toNat_ofNat]
        omega
      simp [execs, uidivRound, holds_ls, hle, hshift, h.one]
    have hone : (1#32 <<< k).toNat = 2 ^ k := by
      rw [← BitVec.twoPow_eq, BitVec.toNat_twoPow, Nat.mod_eq_of_lt (Nat.pow_lt_pow_right (by decide) hk)]
    rw [hr0, BitVec.toNat_sub_of_le (BitVec.le_def.mpr hle), h.divisor]
    rw [h.divisor] at hle
    have hpos : 0 < d.toNat := by
      have := BitVec.toNat_inj.not.mpr hd
      simp at this
      omega
    have hfits : ((s.reg .r4).toNat + 2 ^ k) * d.toNat ≤ n.toNat := by
      rw [add_mul, Nat.mul_comm (2 ^ k)]
      omega
    have hlt : (s.reg .r4).toNat + 2 ^ k < 2 ^ 32 :=
      (Nat.le_mul_of_pos_right _ hpos).trans_lt (hfits.trans_lt n.isLt)
    rw [hr4, BitVec.toNat_add, hone, Nat.mod_eq_of_lt hlt, add_mul, Nat.mul_comm (2 ^ k)]
    rw [pow_succ, ← Nat.mul_assoc] at hrest
    omega
  · have hr0 : (execs s uidivRound).reg .r0 = s.reg .r0 := by
      simp [execs, uidivRound, holds_ls, hle]
    have hr4 : (execs s uidivRound).reg .r4 = s.reg .r4 := by
      simp [execs, uidivRound, holds_ls, hle]
    rw [hr0, hr4]
    exact ⟨by rw [← h.divisor]; omega, h.numerator⟩

/-- The quotient and the remainder, with the registers that a call keeps. -/
structure Divided (n d : ℕ) (x4 x5 : Word) (st : List Word) (m : Word → Byte) (t : State) : Prop where
  quotient : (t.reg .r0).toNat = n / d
  remainder : (t.reg .r1).toNat = n % d
  r4 : t.reg .r4 = x4
  r5 : t.reg .r5 = x5
  stack : t.stack = st
  mem : t.mem = m

theorem uidivLoop_ends {n d x4 x5 : Word} {st : List Word} {m : Word → Byte} {k : ℕ} (hk : k < 32)
    (hd : d ≠ 0) (h : Dividing n d k s) (hstack : s.stack = x4 :: x5 :: st) (hlr : s.reg .lr = ret)
    (hmem : s.mem = m) :
    Ends aeabiUidivmod ret uidivLoop s (Divided n.toNat d.toNat x4 x5 st m) := by
  induction k generalizing s with
  | zero =>
    obtain ⟨hrest, hn⟩ := uidivRound_spec hk hd h
    obtain ⟨-, -, -, tlr, tstack, tmem⟩ := uidivRound_frame s
    rw [uidivLoop_iff, if_neg (by rw [h.shift]; decide)]
    generalize execs s uidivRound = t at *
    have hquot : (t.reg .r4).toNat = n.toNat / d.toNat ∧ (t.reg .r0).toNat = n.toNat % d.toNat := by
      rw [pow_zero, Nat.mul_one] at hrest
      rw [hn, Nat.mul_comm]
      exact ⟨by rw [Nat.mul_add_div (by omega), Nat.div_eq_of_lt hrest, Nat.add_zero],
        by rw [Nat.mul_add_mod, Nat.mod_eq_of_lt hrest]⟩
    show Ends _ _ (lines [(.al, .mov .r1 (.reg .r0)), (.al, .mov .r0 (.reg .r4)), (.al, .pop [.r4, .r5])] ++
      [.bxlr]) t _
    rw [ends_lines, ends_bxlr]
    refine ⟨by simp [execs, tlr, hlr], ?_, ?_, ?_, ?_, ?_, ?_⟩
    · simp [execs, tstack, hstack]
      exact hquot.1
    · simp [execs, tstack, hstack]
      exact hquot.2
    · simp [execs, tstack, hstack]
    · simp [execs, tstack, hstack]
    · simp [execs, tstack, hstack]
    · simp [execs, tstack, hstack, tmem, hmem]
  | succ k ih =>
    obtain ⟨hrest, hn⟩ := uidivRound_spec hk hd h
    obtain ⟨t2, t3, t5, tlr, tstack, tmem⟩ := uidivRound_frame s
    have hr2 : s.reg .r2 - 1 = BitVec.ofNat 32 k := by
      apply BitVec.eq_of_toNat_eq
      rw [h.shift, BitVec.toNat_sub_of_le] <;> simp [BitVec.le_def] <;> omega
    have hmsb : (BitVec.ofNat 32 k).msb = false := by
      rw [BitVec.msb_eq_false_iff_two_mul_lt, BitVec.toNat_ofNat]
      omega
    rw [uidivLoop_iff, hr2, if_pos hmsb]
    refine ih (by omega) ⟨t2.trans hr2, ?_, t5.trans h.one, hrest, hn⟩ (tstack.trans hstack) (tlr.trans hlr)
      (tmem.trans hmem)
    rw [t3, BitVec.toNat_ushiftRight, h.divisor, pow_succ, ← Nat.mul_assoc, Nat.shiftRight_one,
      Nat.mul_div_cancel _ (by decide)]

/-- The divisor shifted up until its highest bit is the highest of the word. -/
theorem shiftLeft_clz {d : Word} (hd : d ≠ 0) : d.clz.toNat < 32 ∧
    (d <<< d.clz.toNat).toNat = d.toNat * 2 ^ d.clz.toNat ∧ 2 ^ 32 ≤ d.toNat * 2 ^ (d.clz.toNat + 1) := by
  have hclz : d.clz.toNat < 32 := by
    have := BitVec.lt_def.mp (BitVec.clz_lt_iff_ne_zero.mpr hd)
    simpa using this
  have hlow := BitVec.two_pow_sub_clz_le_toNat_of_ne_zero (by decide) hd
  have hhigh : d.toNat < 2 ^ (32 - d.clz.toNat) := BitVec.toNat_lt_two_pow_sub_clz
  refine ⟨hclz, ?_, ?_⟩
  · rw [BitVec.toNat_shiftLeft, Nat.shiftLeft_eq, Nat.mod_eq_of_lt]
    calc d.toNat * 2 ^ d.clz.toNat < 2 ^ (32 - d.clz.toNat) * 2 ^ d.clz.toNat := by gcongr
      _ = 2 ^ 32 := by rw [← pow_add, Nat.sub_add_cancel hclz.le]
  · calc 2 ^ 32 = 2 ^ (32 - d.clz.toNat - 1) * 2 ^ (d.clz.toNat + 1) := by
          rw [← pow_add]
          congr 1
          omega
      _ ≤ d.toNat * 2 ^ (d.clz.toNat + 1) := by
        gcongr
        simpa [Nat.sub_right_comm] using hlow

/-- The unsigned division is right for every divisor. -/
theorem uidivmod_returns (s : State) (hd : s.reg .r1 ≠ 0) :
    Returns aeabiUidivmod s (Divided (s.reg .r0).toNat (s.reg .r1).toNat (s.reg .r4) (s.reg .r5) s.stack s.mem) := by
  obtain ⟨hclz, hshift, hrest⟩ := shiftLeft_clz hd
  show Ends _ _ (lines [(.al, .push [.r4, .r5]), (.al, .mov .r4 (.imm 0)), (.al, .mov .r5 (.imm 1)),
    (.al, .clz .r2 .r1), (.al, .mov .r3 (.shiftBy .r1 .lsl .r2))] ++ (.label 1 :: uidivLoop)) s _
  rw [ends_lines, ends_label]
  have hbyte : (s.reg .r1).clz.toNat % 256 = (s.reg .r1).clz.toNat := Nat.mod_eq_of_lt (by omega)
  refine uidivLoop_ends hclz hd ⟨?_, ?_, ?_, ?_, ?_⟩ ?_ ?_ ?_
  case refine_2 => simp [execs, State.pushAll, hbyte, hshift]
  case refine_4 =>
    simp [execs, State.pushAll]
    exact (s.reg .r0).isLt.trans_le hrest
  all_goals simp [execs, State.pushAll]

/-! ## Signed -/

/-- The shift-and-subtract loop with `j` rounds left: the divisor `x` shifted down, the bits of the
quotient set from the highest down. -/
def divideRounds : ℕ → Word → Word → Word → Word
  | 0, q, _, _ => q
  | j + 1, q, x, a =>
    if a = 0 then q
    else if x.toInt ≤ a.toInt then divideRounds j (q ||| 1#32 <<< j) (x.sshiftRight 1) (a - x)
    else divideRounds j q (x.sshiftRight 1) a

def idivSearch : List Line := after 4 aeabiIdivmod
def idivStart : List Line := after 3 aeabiIdivmod
def idivLoop : List Line := after 2 aeabiIdivmod
def idivExit : List Line := after 1 aeabiIdivmod

/-- The registers that the loops do not change, with the stack and the memory. -/
structure SameFrame (s t : State) : Prop where
  r4 : t.reg .r4 = s.reg .r4
  lr : t.reg .lr = s.reg .lr
  stack : t.stack = s.stack
  mem : t.mem = s.mem

theorem SameFrame.trans {s t u : State} (h : SameFrame s t) (h' : SameFrame t u) : SameFrame s u :=
  ⟨h'.r4.trans h.r4, h'.lr.trans h.lr, h'.stack.trans h.stack, h'.mem.trans h.mem⟩

/-- The straight-line part of a round. -/
def idivRound : List (Cond × Instr) := [
  (.al, .cmp .r2 (.reg .r1)),
  (.ge, .sub .r6 .r3 (.reg .ip)),
  (.ge, .sub .r2 .r2 (.reg .r1)),
  (.ge, .orr .r0 .r0 (.shiftBy .r5 .lsl .r6)),
  (.al, .mov .r1 (.shift .r1 .asr 1)),
  (.al, .add .ip .ip (.imm 1))]

theorem idivLoop_iff : Ends aeabiIdivmod ret idivLoop s Q ↔
    if (s.reg .r3).toInt < (s.reg .ip).toInt then
      Ends aeabiIdivmod ret idivExit (s.setFlags (subFlags (s.reg .ip) (s.reg .r3))) Q
    else if s.reg .r2 = 0 then
      Ends aeabiIdivmod ret idivExit (s.setFlags (subFlags (s.reg .r2) 0)) Q
    else Ends aeabiIdivmod ret idivLoop (execs (s.setFlags (subFlags (s.reg .r2) 0)) idivRound) Q := by
  show Ends _ _ (.op .al (.cmp .ip (.reg .r3)) :: .b .gt 1 :: .op .al (.cmp .r2 (.imm 0)) :: .b .eq 1 ::
    (lines idivRound ++ (.b .al 2 :: .label 1 :: idivExit))) s Q ↔ _
  rw [ends_op_al, ends_b]
  simp only [Instr.exec, Operand.eval, State.flags_setFlags, holds_gt]
  split_ifs with hgt hzero
  · rfl
  · rw [ends_op_al, ends_b]
    simp only [Instr.exec, Operand.eval, State.flags_setFlags, holds_eq, hzero, State.reg_setFlags]
    rfl
  · rw [ends_op_al, ends_b]
    simp only [Instr.exec, Operand.eval, State.flags_setFlags, holds_eq, hzero, State.reg_setFlags,
      if_false, ends_lines, ends_b]
    rfl

/-- The registers before a round: `i` rounds are done, and `j` are left. -/
structure Rounds (i j : ℕ) (q x a : Word) (s : State) : Prop where
  bound : i + j ≤ 33
  ip : s.reg .ip = BitVec.ofNat 32 i
  r3 : s.reg .r3 = BitVec.ofNat 32 (i + j) - 1
  r5 : s.reg .r5 = 1
  r0 : s.reg .r0 = q
  r1 : s.reg .r1 = x
  r2 : s.reg .r2 = a

theorem toInt_ofNat_of_lt {n : ℕ} (hn : n < 2 ^ 31) : (BitVec.ofNat 32 n).toInt = n := by
  rw [BitVec.toInt_eq_toNat_of_msb] <;> simp [BitVec.msb_eq_false_iff_two_mul_lt] <;> omega

theorem toInt_pred {n : ℕ} (hn : n < 2 ^ 31) : (BitVec.ofNat 32 n - 1).toInt = n - 1 := by
  rw [BitVec.toInt_sub, toInt_ofNat_of_lt hn, show (1 : Word).toInt = 1 from rfl, Int.bmod_def]
  split_ifs <;> omega

theorem idivRound_frame (s : State) : SameFrame s (execs s idivRound) ∧
    (execs s idivRound).reg .r1 = (s.reg .r1).sshiftRight 1 ∧ (execs s idivRound).reg .r3 = s.reg .r3 ∧
    (execs s idivRound).reg .r5 = s.reg .r5 ∧ (execs s idivRound).reg .ip = s.reg .ip + 1 := by
  by_cases h : (s.reg .r1).toInt ≤ (s.reg .r2).toInt
  · exact ⟨⟨by simp [execs, idivRound, holds_ge, h], by simp [execs, idivRound, holds_ge, h],
      by simp [execs, idivRound, holds_ge, h], by simp [execs, idivRound, holds_ge, h]⟩,
      by simp [execs, idivRound, holds_ge, h]⟩
  · exact ⟨⟨by simp [execs, idivRound, holds_ge, h], by simp [execs, idivRound, holds_ge, h],
      by simp [execs, idivRound, holds_ge, h], by simp [execs, idivRound, holds_ge, h]⟩,
      by simp [execs, idivRound, holds_ge, h]⟩

theorem idivRound_of_le (h : (s.reg .r1).toInt ≤ (s.reg .r2).toInt) :
    (execs s idivRound).reg .r0 = s.reg .r0 ||| s.reg .r5 <<< ((s.reg .r3 - s.reg .ip).toNat % 256) ∧
      (execs s idivRound).reg .r2 = s.reg .r2 - s.reg .r1 := by
  simp [execs, idivRound, holds_ge, h]

theorem idivRound_of_not_le (h : ¬ (s.reg .r1).toInt ≤ (s.reg .r2).toInt) :
    (execs s idivRound).reg .r0 = s.reg .r0 ∧ (execs s idivRound).reg .r2 = s.reg .r2 := by
  simp [execs, idivRound, holds_ge, h]

/-- A round sets the bit of its number where the divisor fits. -/
theorem idivRound_spec {i j : ℕ} {q x a : Word} (h : Rounds i (j + 1) q x a s) :
    Rounds (i + 1) j (if x.toInt ≤ a.toInt then q ||| 1#32 <<< j else q) (x.sshiftRight 1)
      (if x.toInt ≤ a.toInt then a - x else a) (execs s idivRound) := by
  have hbound := h.bound
  have hbit : (s.reg .r3 - s.reg .ip).toNat % 256 = j := by
    have : s.reg .r3 - s.reg .ip = BitVec.ofNat 32 j := by
      apply BitVec.toInt_inj.mp
      rw [h.r3, h.ip, BitVec.toInt_sub, toInt_pred (by omega), toInt_ofNat_of_lt (by omega),
        toInt_ofNat_of_lt (by omega), Int.bmod_def]
      split_ifs <;> omega
    rw [this, BitVec.toNat_ofNat]
    omega
  obtain ⟨-, h1, h3, h5, hip⟩ := idivRound_frame s
  refine ⟨by omega, ?_, ?_, h5.trans h.r5, ?_, by rw [h1, h.r1], ?_⟩
  · rw [hip, h.ip, BitVec.ofNat_add]
    rfl
  · rw [h3, h.r3, Nat.add_right_comm, Nat.add_assoc]
  · split_ifs with hle
    · rw [(idivRound_of_le (by rwa [h.r1, h.r2])).1, hbit, h.r0, h.r5]
      rfl
    · rw [(idivRound_of_not_le (by rwa [h.r1, h.r2])).1, h.r0]
  · split_ifs with hle
    · rw [(idivRound_of_le (by rwa [h.r1, h.r2])).2, h.r1, h.r2]
    · rw [(idivRound_of_not_le (by rwa [h.r1, h.r2])).2, h.r2]

theorem Rounds.lt_iff {i j : ℕ} {q x a : Word} (h : Rounds i j q x a s) :
    (s.reg .r3).toInt < (s.reg .ip).toInt ↔ j = 0 := by
  have hbound := h.bound
  rw [h.r3, h.ip, toInt_pred (by omega), toInt_ofNat_of_lt (by omega)]
  omega

theorem idivLoop_ends {i j : ℕ} {q x a : Word} (h : Rounds i j q x a s)
    (hexit : ∀ t, SameFrame s t → t.reg .r0 = divideRounds j q x a → Ends aeabiIdivmod ret idivExit t Q) :
    Ends aeabiIdivmod ret idivLoop s Q := by
  induction j generalizing i q x a s with
  | zero =>
    rw [idivLoop_iff, if_pos (h.lt_iff.mpr rfl)]
    exact hexit _ ⟨rfl, rfl, rfl, rfl⟩ h.r0
  | succ j ih =>
    rw [idivLoop_iff, if_neg (mt h.lt_iff.mp (by omega))]
    split_ifs with hzero
    · exact hexit _ ⟨rfl, rfl, rfl, rfl⟩ (by simp [divideRounds, ← h.r2, hzero, h.r0])
    · have hset : Rounds i (j + 1) q x a (s.setFlags (subFlags (s.reg .r2) 0)) :=
        ⟨h.bound, h.ip, h.r3, h.r5, h.r0, h.r1, h.r2⟩
      obtain ⟨hframe, -⟩ := idivRound_frame (s.setFlags (subFlags (s.reg .r2) 0))
      refine ih (idivRound_spec hset) fun t ht hr0 => ?_
      refine hexit t ⟨ht.r4.trans hframe.r4, ht.lr.trans hframe.lr, ht.stack.trans hframe.stack,
        ht.mem.trans hframe.mem⟩ ?_
      rw [h.r2] at hzero
      rw [hr0, divideRounds, if_neg hzero]
      split_ifs <;> rfl

/-! ### Search -/

/-- The comparison of the search, with what follows where the divisor is above the numerator. -/
def searchRound : List (Cond × Instr) := [
  (.al, .cmp .r2 (.shiftBy .r1 .lsl .r3)),
  (.lt, .sub .r3 .r3 (.imm 1)),
  (.lt, .mov .r1 (.shiftBy .r1 .lsl .r3))]

/-- What follows where it is not. -/
def searchNext : List (Cond × Instr) := [
  (.al, .add .r3 .r3 (.imm 1)),
  (.al, .cmp .r3 (.imm 32))]

theorem searchRound_of_lt (h : (s.reg .r2).toInt < (s.reg .r1 <<< ((s.reg .r3).toNat % 256)).toInt) :
    (execs s searchRound).flags = subFlags (s.reg .r2) (s.reg .r1 <<< ((s.reg .r3).toNat % 256)) ∧
      SameFrame s (execs s searchRound) ∧ (execs s searchRound).reg .r2 = s.reg .r2 ∧
      (execs s searchRound).reg .r3 = s.reg .r3 - 1 ∧
      (execs s searchRound).reg .r1 = s.reg .r1 <<< ((s.reg .r3 - 1).toNat % 256) := by
  have hlt := (holds_lt _ _).mpr h
  refine ⟨?_, ⟨?_, ?_, ?_, ?_⟩, ?_, ?_, ?_⟩ <;> simp [execs, searchRound, hlt]

theorem searchRound_of_not_lt (h : ¬ (s.reg .r2).toInt < (s.reg .r1 <<< ((s.reg .r3).toNat % 256)).toInt) :
    execs s searchRound = s.setFlags (subFlags (s.reg .r2) (s.reg .r1 <<< ((s.reg .r3).toNat % 256))) := by
  have hlt := mt (holds_lt _ _).mp h
  simp [execs, searchRound, hlt]

theorem searchNext_spec (s : State) : (execs s searchNext).flags = subFlags (s.reg .r3 + 1) 32 ∧
    SameFrame s (execs s searchNext) ∧ (execs s searchNext).reg .r1 = s.reg .r1 ∧
    (execs s searchNext).reg .r2 = s.reg .r2 ∧ (execs s searchNext).reg .r3 = s.reg .r3 + 1 := by
  refine ⟨?_, ⟨?_, ?_, ?_, ?_⟩, ?_, ?_, ?_⟩ <;> simp [execs, searchNext]

theorem idivSearch_iff : Ends aeabiIdivmod ret idivSearch s Q ↔
    if (s.reg .r2).toInt < (s.reg .r1 <<< ((s.reg .r3).toNat % 256)).toInt then
      Ends aeabiIdivmod ret idivStart (execs s searchRound) Q
    else if s.reg .r3 + 1 = 32 then
      Ends aeabiIdivmod ret idivStart ((execs (execs s searchRound) searchNext).set .r3 0) Q
    else Ends aeabiIdivmod ret idivSearch (execs (execs s searchRound) searchNext) Q := by
  show Ends _ _ (lines searchRound ++ (.b .lt 3 :: (lines searchNext ++ (.b .ne 4 ::
    .op .al (.mov .r3 (.imm 0)) :: .label 3 :: idivStart)))) s Q ↔ _
  rw [ends_lines, ends_b]
  by_cases hlt : (s.reg .r2).toInt < (s.reg .r1 <<< ((s.reg .r3).toNat % 256)).toInt
  · rw [if_pos hlt, (searchRound_of_lt hlt).1, if_pos ((holds_lt _ _).mpr hlt)]
    rfl
  · have hnext := (searchNext_spec (execs s searchRound)).1
    rw [searchRound_of_not_lt hlt] at hnext ⊢
    rw [if_neg hlt, State.flags_setFlags, if_neg (mt (holds_lt _ _).mp hlt), ends_lines, ends_b, hnext,
      State.reg_setFlags]
    by_cases h32 : s.reg .r3 + 1 = 32
    · rw [if_pos h32, if_neg (mt (holds_ne _ _).mp (not_not.mpr h32)), ends_op_al, ends_label]
      rfl
    · rw [if_neg h32, if_pos ((holds_ne _ _).mpr h32)]
      rfl

/-- The registers before the comparison with the shift `k`. -/
structure Searching (a b : Word) (k : ℕ) (s : State) : Prop where
  bound : k < 32
  r1 : s.reg .r1 = b
  r2 : s.reg .r2 = a
  r3 : s.reg .r3 = BitVec.ofNat 32 k

theorem Searching.shift {a b : Word} {k : ℕ} (h : Searching a b k s) : (s.reg .r3).toNat % 256 = k := by
  have := h.bound
  rw [h.r3, BitVec.toNat_ofNat]
  omega

/-- The registers that the search hands on, with `j` rounds to go. -/
structure Found (a : Word) (j : ℕ) (x : Word) (t : State) : Prop where
  r1 : t.reg .r1 = x
  r2 : t.reg .r2 = a
  r3 : t.reg .r3 = BitVec.ofNat 32 j - 1

theorem idivSearch_of_lt {a b : Word} {k : ℕ} (h : Searching a b k s) (hlt : a.toInt < (b <<< k).toInt)
    (hstart : ∀ t, SameFrame s t → Found a k (b <<< ((BitVec.ofNat 32 k - 1).toNat % 256)) t →
      Ends aeabiIdivmod ret idivStart t Q) : Ends aeabiIdivmod ret idivSearch s Q := by
  obtain ⟨-, hframe, h2, h3, h1⟩ := searchRound_of_lt (s := s) (by rwa [h.shift, h.r1, h.r2])
  rw [idivSearch_iff, h.shift, h.r1, h.r2, if_pos hlt]
  exact hstart _ hframe ⟨by rw [h1, h.r1, h.r3], h2.trans h.r2, by rw [h3, h.r3]⟩

theorem idivSearch_of_not_lt {a b : Word} {k : ℕ} (h : Searching a b k s)
    (hlt : ¬ a.toInt < (b <<< k).toInt)
    (hlast : k = 31 → ∀ t, SameFrame s t → Found a 1 b t → Ends aeabiIdivmod ret idivStart t Q)
    (hnext : ∀ t, SameFrame s t → Searching a b (k + 1) t → Ends aeabiIdivmod ret idivSearch t Q) :
    Ends aeabiIdivmod ret idivSearch s Q := by
  have hbound := h.bound
  obtain ⟨-, hframe, h1, h2, h3⟩ := searchNext_spec (execs s searchRound)
  rw [searchRound_of_not_lt (by rwa [h.shift, h.r1, h.r2])] at hframe h1 h2 h3
  have hr3 : s.reg .r3 + 1 = BitVec.ofNat 32 (k + 1) := by
    rw [h.r3, BitVec.ofNat_add]
    rfl
  rw [idivSearch_iff, h.shift, h.r1, h.r2, if_neg hlt, searchRound_of_not_lt (by rwa [h.shift, h.r1, h.r2])]
  by_cases hk : k = 31
  · subst hk
    rw [if_pos (by rw [hr3]; rfl)]
    refine hlast rfl _ ⟨?_, ?_, hframe.stack, hframe.mem⟩ ⟨?_, ?_, ?_⟩
    · simpa using hframe.r4
    · simpa using hframe.lr
    · simpa using h1.trans h.r1
    · simpa using h2.trans h.r2
    · simp
  · rw [if_neg]
    · exact hnext _ ⟨hframe.r4, hframe.lr, hframe.stack, hframe.mem⟩
        ⟨by omega, h1.trans h.r1, h2.trans h.r2, h3.trans hr3⟩
    · rw [hr3, ← BitVec.toNat_inj, BitVec.toNat_ofNat]
      simp
      omega

/-- The first shift from `k` on, of `n` shifts, that takes the divisor above the numerator. -/
def searchFrom (a b : Word) (k n : ℕ) : Option ℕ :=
  (List.range' k n).find? fun i => a.toInt < (b <<< i).toInt

theorem searchFrom_succ (a b : Word) (k n : ℕ) : searchFrom a b k (n + 1) =
    if a.toInt < (b <<< k).toInt then some k else searchFrom a b (k + 1) n := by
  rw [searchFrom, List.range'_succ, List.find?_cons]
  split_ifs with h
  · simp only [h, decide_true]
  · simp only [h, decide_false]
    rfl

/-- The rounds and the shifted divisor that the search hands on; without a shift it is one round. -/
def handedOn (b : Word) : Option ℕ → ℕ × Word
  | some k => (k, b <<< ((BitVec.ofNat 32 k - 1).toNat % 256))
  | none => (1, b)

theorem idivSearch_ends {a b : Word} {k n : ℕ} (hkn : k + n = 31) (h : Searching a b k s)
    (hstart : ∀ t, SameFrame s t → Found a (handedOn b (searchFrom a b k (n + 1))).1
      (handedOn b (searchFrom a b k (n + 1))).2 t → Ends aeabiIdivmod ret idivStart t Q) :
    Ends aeabiIdivmod ret idivSearch s Q := by
  induction n generalizing k s with
  | zero =>
    by_cases hlt : a.toInt < (b <<< k).toInt
    · rw [searchFrom_succ, if_pos hlt] at hstart
      exact idivSearch_of_lt h hlt hstart
    · rw [searchFrom_succ, if_neg hlt] at hstart
      exact idivSearch_of_not_lt h hlt (fun _ => hstart) fun t _ ht => absurd ht.bound (by omega)
  | succ n ih =>
    by_cases hlt : a.toInt < (b <<< k).toInt
    · rw [searchFrom_succ, if_pos hlt] at hstart
      exact idivSearch_of_lt h hlt hstart
    · rw [searchFrom_succ, if_neg hlt] at hstart
      refine idivSearch_of_not_lt h hlt (fun hk => by omega) fun t ht hsearch => ?_
      exact ih (by omega) hsearch fun u hu => hstart u (ht.trans hu)

/-! ### Call -/

/-- The result in both registers, with the registers that a call keeps. -/
structure DividedInto (q : Word) (s t : State) : Prop where
  r0 : t.reg .r0 = q
  r1 : t.reg .r1 = q
  r4 : t.reg .r4 = s.reg .r4
  r5 : t.reg .r5 = s.reg .r5
  r6 : t.reg .r6 = s.reg .r6
  stack : t.stack = s.stack
  mem : t.mem = s.mem

/-- What the prologue has pushed, and the signs. -/
structure Entered (s t : State) : Prop where
  r4 : t.reg .r4 = if (s.reg .r0).toInt < 0 then 1 else 0
  lr : t.reg .lr = if (s.reg .r1).toInt < 0 then 1 else 0
  stack : t.stack = s.reg .r4 :: s.reg .r5 :: s.reg .r6 :: s.reg .lr :: s.stack
  mem : t.mem = s.mem

theorem Entered.of_frame {u t : State} (h : Entered s u) (ht : SameFrame u t) : Entered s t :=
  ⟨ht.r4.trans h.r4, ht.lr.trans h.lr, ht.stack.trans h.stack, ht.mem.trans h.mem⟩

/-- The result has a sign where one operand alone has one, and comes into both registers. -/
theorem idivExit_ends {u : State} (h : Entered s u) : Ends aeabiIdivmod (s.reg .lr) idivExit u
    (DividedInto (if (s.reg .r0).toInt < 0 ↔ (s.reg .r1).toInt < 0 then u.reg .r0 else -u.reg .r0) s) := by
  have hsign : (if (s.reg .r0).toInt < 0 ↔ (s.reg .r1).toInt < 0 then u.reg .r0 else -u.reg .r0) =
      if u.reg .r4 = u.reg .lr then u.reg .r0 else -u.reg .r0 := by
    rw [h.r4, h.lr]
    by_cases hn : (s.reg .r0).toInt < 0 <;> by_cases hd : (s.reg .r1).toInt < 0 <;> simp [hn, hd]
  show Ends _ _ (lines [(.al, .cmp .r4 (.reg .lr)), (.ne, .rsb .r0 .r0 (.imm 0)), (.al, .mov .r1 (.reg .r0)),
    (.al, .tst .r4 (.reg .lr)), (.ne, .rsb .r2 .r2 (.imm 0)), (.al, .pop [.r4, .r5, .r6, .lr])] ++ [.bxlr]) u _
  rw [ends_lines, ends_bxlr, hsign]
  refine ⟨?_, ?_, ?_, ?_, ?_, ?_, ?_, ?_⟩
  all_goals simp [execs, h.stack, h.mem, holds_ne]

/-- The value of a word without its sign. -/
def magnitude (x : Word) : Word := if x.toInt < 0 then -x else x

/-- The quotient of two magnitudes. -/
def divideWord (a b : Word) : Word :=
  let found := handedOn b (searchFrom a b 0 32)
  divideRounds found.1 0 found.2 a

/-- What the signed division returns, in both registers. -/
def idivResult (n d : Word) : Word :=
  if n.toInt < 0 ↔ d.toInt < 0 then divideWord (magnitude n) (magnitude d)
  else -divideWord (magnitude n) (magnitude d)

theorem handedOn_le (a b : Word) : (handedOn b (searchFrom a b 0 32)).1 ≤ 32 := by
  cases h : searchFrom a b 0 32 with
  | none => exact Nat.one_le_ofNat
  | some k =>
    have := List.mem_of_find?_eq_some h
    simp at this
    exact this.le

theorem idivStart_ends {a x : Word} {j : ℕ} (hj : j ≤ 32) (h : Found a j x s)
    (hexit : ∀ t, SameFrame s t → t.reg .r0 = divideRounds j 0 x a → Ends aeabiIdivmod ret idivExit t Q) :
    Ends aeabiIdivmod ret idivStart s Q := by
  show Ends _ _ (lines [(.al, .mov .r0 (.imm 0)), (.al, .mov .r5 (.imm 1)), (.al, .mov .ip (.reg .r0))] ++
    (.label 2 :: idivLoop)) s Q
  rw [ends_lines, ends_label]
  refine idivLoop_ends (i := 0) ⟨by omega, ?_, ?_, ?_, ?_, ?_, ?_⟩ fun t ht hr0 =>
    hexit t ⟨ht.r4.trans ?_, ht.lr.trans ?_, ht.stack.trans ?_, ht.mem.trans ?_⟩ hr0
  all_goals simp [execs, h.r1, h.r2, h.r3]

theorem idivmod_returns (s : State) :
    Returns aeabiIdivmod s (DividedInto (idivResult (s.reg .r0) (s.reg .r1)) s) := by
  show Ends _ _ (lines [(.al, .subs .r2 .r0 (.imm 0)), (.al, .push [.r4, .r5, .r6, .lr]),
    (.lt, .mov .r4 (.imm 1)), (.lt, .rsb .r2 .r2 (.imm 0)), (.ge, .mov .r4 (.imm 0)),
    (.al, .cmp .r1 (.imm 0)), (.lt, .mov .lr (.imm 1)), (.lt, .rsb .r1 .r1 (.imm 0)), (.ge, .mov .lr (.imm 0)),
    (.al, .mov .r3 (.imm 0))] ++ (.label 4 :: idivSearch)) s _
  rw [ends_lines, ends_label]
  set u := execs s _ with hu
  have hentered : Entered s u := by
    constructor <;> simp [hu, execs, holds_lt, holds_ge] <;> split_ifs <;> first | rfl | omega
  have hsearching : Searching (magnitude (s.reg .r0)) (magnitude (s.reg .r1)) 0 u := by
    constructor <;> simp [hu, execs, holds_lt, holds_ge, magnitude]
  refine idivSearch_ends (n := 31) rfl hsearching fun t ht hfound => ?_
  refine idivStart_ends (handedOn_le _ _) hfound fun v hv hr0 => ?_
  refine (idivExit_ends (hentered.of_frame (ht.trans hv))).mono fun w hw => ?_
  rw [hr0] at hw
  exact hw

end RCar.Cr7
