import Mathlib

/-! A part of the A32 instruction set: programs as lists of lines with labels, and the rules that
take a statement about the end of a run from one line to the next. -/

namespace RCar.Arm

abbrev Word := BitVec 32
abbrev Byte := BitVec 8

inductive Reg where
  | r0 | r1 | r2 | r3 | r4 | r5 | r6 | ip | lr
deriving DecidableEq

structure Flags where
  n : Bool
  z : Bool
  c : Bool
  v : Bool

/-- The registers, the flags and the memory. What is pushed is kept beside the memory. -/
structure State where
  reg : Reg → Word
  flags : Flags
  mem : Word → Byte
  stack : List Word

inductive Cond where
  | al | eq | ne | cs | cc | pl | ls | ge | lt | gt

def Cond.holds (f : Flags) : Cond → Bool
  | .al => true
  | .eq => f.z
  | .ne => !f.z
  | .cs => f.c
  | .cc => !f.c
  | .pl => !f.n
  | .ls => !f.c || f.z
  | .ge => f.n == f.v
  | .lt => f.n != f.v
  | .gt => !f.z && f.n == f.v

inductive Shift where
  | lsl | lsr | asr

@[simp] def Shift.apply (x : Word) (n : ℕ) : Shift → Word
  | .lsl => x <<< n
  | .lsr => x >>> n
  | .asr => x.sshiftRight n

/-- The second operand; a shift by a register takes its lowest byte. -/
inductive Operand where
  | imm (x : Word)
  | reg (r : Reg)
  | shift (r : Reg) (k : Shift) (n : ℕ)
  | shiftBy (r : Reg) (k : Shift) (n : Reg)

@[simp] def Operand.eval (s : State) : Operand → Word
  | .imm x => x
  | .reg r => s.reg r
  | .shift r k n => k.apply (s.reg r) n
  | .shiftBy r k n => k.apply (s.reg r) ((s.reg n).toNat % 256)

/-- The loads and stores add their immediate to the base register afterwards. -/
inductive Instr where
  | mov (rd : Reg) (op : Operand)
  | add (rd rn : Reg) (op : Operand)
  | sub (rd rn : Reg) (op : Operand)
  | subs (rd rn : Reg) (op : Operand)
  | rsb (rd rn : Reg) (op : Operand)
  | and (rd rn : Reg) (op : Operand)
  | orr (rd rn : Reg) (op : Operand)
  | cmp (rn : Reg) (op : Operand)
  | tst (rn : Reg) (op : Operand)
  | clz (rd rm : Reg)
  | ldr (rt rn : Reg) (inc : Word)
  | str (rt rn : Reg) (inc : Word)
  | ldrb (rt rn : Reg) (inc : Word)
  | strb (rt rn : Reg) (inc : Word)
  | push (rs : List Reg)
  | pop (rs : List Reg)
  | dsb

/-- The flags of a subtraction. -/
def subFlags (a b : Word) : Flags where
  n := (a - b).msb
  z := a == b
  c := decide (b.toNat ≤ a.toNat)
  v := a.ssubOverflow b

namespace State

def set (s : State) (r : Reg) (x : Word) : State := { s with reg := Function.update s.reg r x }

def setFlags (s : State) (f : Flags) : State := { s with flags := f }

def setMem (s : State) (m : Word → Byte) : State := { s with mem := m }

/-- The word at an address, the lowest byte first. -/
def loadWord (m : Word → Byte) (a : Word) : Word := m (a + 3) ++ m (a + 2) ++ m (a + 1) ++ m a

def storeByte (m : Word → Byte) (a : Word) (x : Byte) : Word → Byte := Function.update m a x

def storeWord (m : Word → Byte) (a x : Word) : Word → Byte :=
  storeByte (storeByte (storeByte (storeByte m a (x.extractLsb' 0 8)) (a + 1) (x.extractLsb' 8 8))
    (a + 2) (x.extractLsb' 16 8)) (a + 3) (x.extractLsb' 24 8)

/-- The effect of a conditional operation: `t` where its condition holds. -/
def guard (c : Bool) (t s : State) : State := if c then t else s

def pushAll (s : State) (rs : List Reg) : State := { s with stack := rs.map s.reg ++ s.stack }

@[simp] def popAll (s : State) : List Reg → State
  | [] => s
  | r :: rs => popAll { s.set r (s.stack.headD 0) with stack := s.stack.tail } rs

end State

@[simp] def Instr.exec (s : State) : Instr → State
  | .mov rd op => s.set rd (op.eval s)
  | .add rd rn op => s.set rd (s.reg rn + op.eval s)
  | .sub rd rn op => s.set rd (s.reg rn - op.eval s)
  | .subs rd rn op => (s.set rd (s.reg rn - op.eval s)).setFlags (subFlags (s.reg rn) (op.eval s))
  | .rsb rd rn op => s.set rd (op.eval s - s.reg rn)
  | .and rd rn op => s.set rd (s.reg rn &&& op.eval s)
  | .orr rd rn op => s.set rd (s.reg rn ||| op.eval s)
  | .cmp rn op => s.setFlags (subFlags (s.reg rn) (op.eval s))
  | .tst rn op => s.setFlags
      { s.flags with n := (s.reg rn &&& op.eval s).msb, z := s.reg rn &&& op.eval s == 0 }
  | .clz rd rm => s.set rd (s.reg rm).clz
  | .ldr rt rn inc => (s.set rt (State.loadWord s.mem (s.reg rn))).set rn (s.reg rn + inc)
  | .str rt rn inc => (s.setMem (State.storeWord s.mem (s.reg rn) (s.reg rt))).set rn (s.reg rn + inc)
  | .ldrb rt rn inc => (s.set rt ((s.mem (s.reg rn)).setWidth 32)).set rn (s.reg rn + inc)
  | .strb rt rn inc =>
    (s.setMem (State.storeByte s.mem (s.reg rn) ((s.reg rt).setWidth 8))).set rn (s.reg rn + inc)
  | .push rs => s.pushAll rs
  | .pop rs => s.popAll rs
  | .dsb => s

inductive Line where
  | label (l : ℕ)
  | op (c : Cond) (i : Instr)
  | b (c : Cond) (l : ℕ)
  | bxlr

/-- The lines after a label. -/
def after (l : ℕ) : List Line → List Line
  | [] => []
  | .label l' :: k => if l' = l then k else after l k
  | _ :: k => after l k

variable {p k : List Line} {ret : Word} {s t : State} {Q Q' : State → Prop}

/-- At most `n` lines of the program `p` from `k` on, up to a return to `ret`. -/
def run (p : List Line) (ret : Word) : ℕ → List Line → State → Option State
  | 0, _, _ => none
  | _ + 1, [], _ => none
  | n + 1, .label _ :: k, s => run p ret n k s
  | n + 1, .op c i :: k, s => run p ret n k (.guard (c.holds s.flags) (i.exec s) s)
  | n + 1, .b c l :: k, s => run p ret n (if c.holds s.flags then after l p else k) s
  | _ + 1, .bxlr :: _, s => if s.reg .lr = ret then some s else none

/-- The run from `k` on returns to `ret`, in a state with `Q`. -/
def Ends (p : List Line) (ret : Word) (k : List Line) (s : State) (Q : State → Prop) : Prop :=
  ∃ n t, run p ret n k s = some t ∧ Q t

/-- A call returns to where it came from, in a state with `Q`. -/
def Returns (p : List Line) (s : State) (Q : State → Prop) : Prop := Ends p (s.reg .lr) p s Q

/-! ## Lines -/

theorem ends_label {l : ℕ} : Ends p ret (.label l :: k) s Q ↔ Ends p ret k s Q := by
  constructor
  · rintro ⟨_ | n, t, h, hQ⟩
    · cases h
    · exact ⟨n, t, h, hQ⟩
  · rintro ⟨n, t, h, hQ⟩
    exact ⟨n + 1, t, h, hQ⟩

theorem ends_op {c : Cond} {i : Instr} : Ends p ret (.op c i :: k) s Q ↔
    Ends p ret k (.guard (c.holds s.flags) (i.exec s) s) Q := by
  constructor
  · rintro ⟨_ | n, t, h, hQ⟩
    · cases h
    · exact ⟨n, t, h, hQ⟩
  · rintro ⟨n, t, h, hQ⟩
    exact ⟨n + 1, t, h, hQ⟩

theorem ends_op_al {i : Instr} : Ends p ret (.op .al i :: k) s Q ↔ Ends p ret k (i.exec s) Q := ends_op

theorem ends_b {c : Cond} {l : ℕ} : Ends p ret (.b c l :: k) s Q ↔
    Ends p ret (if c.holds s.flags then after l p else k) s Q := by
  constructor
  · rintro ⟨_ | n, t, h, hQ⟩
    · cases h
    · exact ⟨n, t, h, hQ⟩
  · rintro ⟨n, t, h, hQ⟩
    exact ⟨n + 1, t, h, hQ⟩

theorem ends_bxlr : Ends p ret (.bxlr :: k) s Q ↔ s.reg .lr = ret ∧ Q s := by
  constructor
  · rintro ⟨_ | n, t, h, hQ⟩
    · cases h
    · rw [run] at h
      split_ifs at h with hlr
      cases h
      exact ⟨hlr, hQ⟩
  · rintro ⟨hlr, hQ⟩
    exact ⟨1, s, if_pos hlr, hQ⟩

/-- Straight-line code. -/
def lines (is : List (Cond × Instr)) : List Line := is.map fun x => .op x.1 x.2

def execs (s : State) (is : List (Cond × Instr)) : State :=
  is.foldl (fun s x => .guard (x.1.holds s.flags) (x.2.exec s) s) s

theorem ends_lines (is : List (Cond × Instr)) :
    Ends p ret (lines is ++ k) s Q ↔ Ends p ret k (execs s is) Q := by
  induction is generalizing s with
  | nil => rfl
  | cons x is ih =>
    show Ends p ret (.op x.1 x.2 :: (lines is ++ k)) s Q ↔ _
    rw [ends_op, ih]
    rfl

theorem Ends.mono (h : Ends p ret k s Q) (hQ : ∀ t, Q t → Q' t) : Ends p ret k s Q' := by
  obtain ⟨n, t, hrun, ht⟩ := h
  exact ⟨n, t, hrun, hQ t ht⟩

/-- More lines do not change a run that has returned. -/
theorem run_succ {n : ℕ} (h : run p ret n k s = some t) : run p ret (n + 1) k s = some t := by
  induction n generalizing k s with
  | zero => cases h
  | succ n ih =>
    match k, h with
    | .label _ :: k, h => exact ih h
    | .op _ _ :: k, h => exact ih h
    | .b _ _ :: k, h => exact ih h
    | .bxlr :: k, h => exact h

theorem run_le {n m : ℕ} (hnm : n ≤ m) (h : run p ret n k s = some t) : run p ret m k s = some t := by
  induction m, hnm using Nat.le_induction with
  | base => exact h
  | succ m _ ih => exact run_succ ih

/-- A run returns in one state alone. -/
theorem Ends.and (h : Ends p ret k s Q) (h' : Ends p ret k s Q') :
    Ends p ret k s fun t => Q t ∧ Q' t := by
  obtain ⟨n, t, hn, hQ⟩ := h
  obtain ⟨m, u, hm, hQ'⟩ := h'
  obtain rfl : t = u := Option.some.inj
    ((run_le (Nat.le_max_left n m) hn).symm.trans (run_le (Nat.le_max_right n m) hm))
  exact ⟨n, t, hn, hQ, hQ'⟩

/-! ## Conditions after a subtraction -/

@[simp] theorem holds_al (f : Flags) : Cond.al.holds f = true := rfl

theorem holds_eq (a b : Word) : Cond.eq.holds (subFlags a b) = true ↔ a = b := by
  simp [Cond.holds, subFlags]

theorem holds_ne (a b : Word) : Cond.ne.holds (subFlags a b) = true ↔ a ≠ b := by
  simp [Cond.holds, subFlags]

theorem holds_cs (a b : Word) : Cond.cs.holds (subFlags a b) = true ↔ b.toNat ≤ a.toNat := by
  simp [Cond.holds, subFlags]

theorem holds_cc (a b : Word) : Cond.cc.holds (subFlags a b) = true ↔ a.toNat < b.toNat := by
  simp [Cond.holds, subFlags]

theorem holds_ls (a b : Word) : Cond.ls.holds (subFlags a b) = true ↔ a.toNat ≤ b.toNat := by
  simp [Cond.holds, subFlags, ← BitVec.toNat_inj]
  omega

theorem holds_pl (a b : Word) : Cond.pl.holds (subFlags a b) = true ↔ (a - b).msb = false := by
  simp [Cond.holds, subFlags]

/-- The sign of the difference and the overflow together compare the signed values. -/
theorem msb_ne_ssubOverflow_iff (a b : Word) : ((a - b).msb != a.ssubOverflow b) = true ↔ a.toInt < b.toInt := by
  have ha := BitVec.two_mul_toInt_lt (x := a)
  have ha' := BitVec.le_two_mul_toInt (x := a)
  have hb := BitVec.two_mul_toInt_lt (x := b)
  have hb' := BitVec.le_two_mul_toInt (x := b)
  rw [bne_iff_ne, BitVec.msb_eq_toInt, BitVec.toInt_sub, Int.bmod_def]
  cases hv : a.ssubOverflow b with
  | false =>
    rw [BitVec.ssubOverflow, Bool.or_eq_false_iff, decide_eq_false_iff_not, decide_eq_false_iff_not] at hv
    rw [ne_eq, decide_eq_false_iff_not, not_not]
    split_ifs <;> omega
  | true =>
    rw [BitVec.ssubOverflow, Bool.or_eq_true, decide_eq_true_iff, decide_eq_true_iff] at hv
    rw [ne_eq, decide_eq_true_iff]
    split_ifs <;> omega

theorem holds_lt (a b : Word) : Cond.lt.holds (subFlags a b) = true ↔ a.toInt < b.toInt :=
  msb_ne_ssubOverflow_iff a b

theorem holds_ge (a b : Word) : Cond.ge.holds (subFlags a b) = true ↔ b.toInt ≤ a.toInt := by
  have h := holds_lt a b
  have hnot : Cond.ge.holds (subFlags a b) = !Cond.lt.holds (subFlags a b) := by
    simp [Cond.holds, bne]
  rw [hnot, Bool.not_eq_true', Bool.eq_false_iff, ne_eq, h, not_lt]

theorem holds_gt (a b : Word) : Cond.gt.holds (subFlags a b) = true ↔ b.toInt < a.toInt := by
  have hand : Cond.gt.holds (subFlags a b) = (Cond.ne.holds (subFlags a b) && Cond.ge.holds (subFlags a b)) := rfl
  rw [hand, Bool.and_eq_true, holds_ne, holds_ge, ne_eq, ← BitVec.toInt_inj]
  omega

/-! ## States -/

namespace State

@[simp] theorem reg_set (s : State) (r r' : Reg) (x : Word) :
    (s.set r x).reg r' = if r' = r then x else s.reg r' := by
  simp [set, Function.update_apply]

@[simp] theorem flags_set (s : State) (r : Reg) (x : Word) : (s.set r x).flags = s.flags := rfl
@[simp] theorem mem_set (s : State) (r : Reg) (x : Word) : (s.set r x).mem = s.mem := rfl
@[simp] theorem stack_set (s : State) (r : Reg) (x : Word) : (s.set r x).stack = s.stack := rfl

@[simp] theorem reg_setFlags (s : State) (f : Flags) : (s.setFlags f).reg = s.reg := rfl
@[simp] theorem flags_setFlags (s : State) (f : Flags) : (s.setFlags f).flags = f := rfl
@[simp] theorem mem_setFlags (s : State) (f : Flags) : (s.setFlags f).mem = s.mem := rfl
@[simp] theorem stack_setFlags (s : State) (f : Flags) : (s.setFlags f).stack = s.stack := rfl

@[simp] theorem reg_setMem (s : State) (m : Word → Byte) : (s.setMem m).reg = s.reg := rfl
@[simp] theorem flags_setMem (s : State) (m : Word → Byte) : (s.setMem m).flags = s.flags := rfl
@[simp] theorem reg_pushAll (s : State) (rs : List Reg) : (s.pushAll rs).reg = s.reg := rfl
@[simp] theorem flags_pushAll (s : State) (rs : List Reg) : (s.pushAll rs).flags = s.flags := rfl
@[simp] theorem mem_pushAll (s : State) (rs : List Reg) : (s.pushAll rs).mem = s.mem := rfl
@[simp] theorem stack_pushAll (s : State) (rs : List Reg) :
    (s.pushAll rs).stack = rs.map s.reg ++ s.stack := rfl

@[simp] theorem mem_setMem (s : State) (m : Word → Byte) : (s.setMem m).mem = m := rfl

/-! A conditional operation leaves everything but its register alone. -/

@[simp] theorem guard_true (t s : State) : guard true t s = t := rfl
@[simp] theorem guard_false (t s : State) : guard false t s = s := rfl

variable (c : Bool) (s : State) (r r' : Reg) (x : Word)

@[simp] theorem reg_guard_set :
    (guard c (s.set r x) s).reg r' = if c ∧ r' = r then x else s.reg r' := by
  cases c <;> simp

@[simp] theorem flags_guard_set : (guard c (s.set r x) s).flags = s.flags := by
  cases c <;> rfl

@[simp] theorem mem_guard_set : (guard c (s.set r x) s).mem = s.mem := by
  cases c <;> rfl

@[simp] theorem stack_guard_set : (guard c (s.set r x) s).stack = s.stack := by
  cases c <;> rfl

end State

end RCar.Arm
