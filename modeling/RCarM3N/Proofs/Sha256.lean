import RCarM3N.Model.Sha256Armv8

/-! The transform of BL2 is the compression of the standard: four rounds a macro, with a
window of sixteen schedule words in `v16` to `v19`. A count of zero blocks runs past any memory. -/

namespace RCar.Bl2

open Sha256

/-! ## Four rounds -/

theorem shaChoose_eq (x y z : UInt32) : shaChoose x y z = ch x y z := by
  apply UInt32.toBitVec_inj.mp
  apply BitVec.eq_of_getLsbD_eq
  intro i hi
  simp only [shaChoose, ch, UInt32.toBitVec_xor, UInt32.toBitVec_and, UInt32.toBitVec_not,
    BitVec.getLsbD_xor, BitVec.getLsbD_and, BitVec.getLsbD_not, hi, decide_true, Bool.true_and]
  cases x.toBitVec.getLsbD i <;> cases y.toBitVec.getLsbD i <;> cases z.toBitVec.getLsbD i <;> rfl

theorem shaMajority_eq (x y z : UInt32) : shaMajority x y z = maj x y z := by
  apply UInt32.toBitVec_inj.mp
  apply BitVec.eq_of_getLsbD_eq
  intro i _
  simp only [shaMajority, maj, UInt32.toBitVec_xor, UInt32.toBitVec_and, UInt32.toBitVec_or,
    BitVec.getLsbD_xor, BitVec.getLsbD_and, BitVec.getLsbD_or]
  cases x.toBitVec.getLsbD i <;> cases y.toBitVec.getLsbD i <;> cases z.toBitVec.getLsbD i <;> rfl

theorem sha256hashStep_eq (s : Hash) (w : UInt32) :
    sha256hashStep (hashLo s, hashHi s) w = (hashLo (Sha256.round s w), hashHi (Sha256.round s w)) := by
  simp only [sha256hashStep, hashLo, hashHi, Sha256.round, shaChoose_eq, shaMajority_eq]
  congr 2
  · exact UInt32.add_assoc _ _ _
  · exact UInt32.add_comm _ _

/-- Four words of the schedule. -/
def quad (w : List UInt32) (k : ℕ) : V4 :=
  ⟨w.getD (4 * k) 0, w.getD (4 * k + 1) 0, w.getD (4 * k + 2) 0, w.getD (4 * k + 3) 0⟩

/-- The working variables after `n` rounds. -/
def hashAt (w : List UInt32) (h : Hash) (n : ℕ) : Hash := (List.range n).foldl (step w) h

theorem hashAt_succ (w : List UInt32) (h : Hash) (n : ℕ) :
    hashAt w h (n + 1) = step w (hashAt w h n) n := by
  simp [hashAt, List.range_succ]

/-- What `sha256h` and `sha256h2` leave is the hash four rounds later. -/
theorem sha256hash_quad (w : List UInt32) (h : Hash) (k : ℕ) :
    sha256hash (hashLo (hashAt w h (4 * k))) (hashHi (hashAt w h (4 * k)))
        ((quad w k).add (sha2Rcon k)) =
      (hashLo (hashAt w h (4 * (k + 1))), hashHi (hashAt w h (4 * (k + 1)))) := by
  have hstep : ∀ n, step w (hashAt w h n) n =
      Sha256.round (hashAt w h n) (w.getD n 0 + K.getD n 0) := by
    intro n
    rw [step, UInt32.add_comm]
  simp only [sha256hash, V4.add, quad, sha2Rcon, sha256hashStep_eq]
  rw [← hstep, ← hashAt_succ, ← hstep, ← hashAt_succ, ← hstep, ← hashAt_succ, ← hstep,
    ← hashAt_succ, Nat.mul_succ]

/-! ## The macros -/

/-- The register that holds the sum for an even and an odd macro. -/
def Regs.sum (r : Regs) (ev : ℕ) : V4 := if ev = 0 then r.t0 else r.t1

/-- `4 * k` rounds are done, and the sum for the next four is there. -/
structure Rounds (w : List UInt32) (h : Hash) (k : ℕ) (r : Regs) : Prop where
  sum : r.sum (k % 2) = (quad w k).add (sha2Rcon k)
  dg0 : r.dg0 = hashLo (hashAt w h (4 * k))
  dg1 : r.dg1 = hashHi (hashAt w h (4 * k))

theorem addOnly_dg {w : List UInt32} {h : Hash} {k : ℕ} {r : Regs} (hr : Rounds w h k r)
    (arg : Option (ℕ × ℕ)) :
    (addOnly (k % 2) arg r).dg0 = hashLo (hashAt w h (4 * (k + 1))) ∧
      (addOnly (k % 2) arg r).dg1 = hashHi (hashAt w h (4 * (k + 1))) := by
  have hq := sha256hash_quad w h k
  rw [← hr.dg0, ← hr.dg1, ← hr.sum] at hq
  unfold Regs.sum at hq
  unfold addOnly
  split
  · rename_i hev
    rw [if_pos hev] at hq
    cases arg <;> exact ⟨congrArg Prod.fst hq, congrArg Prod.snd hq⟩
  · rename_i hev
    rw [if_neg hev] at hq
    cases arg <;> exact ⟨congrArg Prod.fst hq, congrArg Prod.snd hq⟩

theorem addOnly_frame (ev : ℕ) (arg : Option (ℕ × ℕ)) (r : Regs) :
    (addOnly ev arg r).v = r.v ∧ (addOnly ev arg r).dga = r.dga ∧
      (addOnly ev arg r).dgb = r.dgb := by
  unfold addOnly
  split <;> cases arg <;> exact ⟨rfl, rfl, rfl⟩

theorem addOnly_rounds {w : List UInt32} {h : Hash} {k s rc : ℕ} {r : Regs}
    (hr : Rounds w h k r) (hs : r.v s = quad w (k + 1)) (hrc : r.v rc = sha2Rcon (k + 1)) :
    Rounds w h (k + 1) (addOnly (k % 2) (some (rc, s)) r) := by
  obtain ⟨h0, h1⟩ := addOnly_dg hr (some (rc, s))
  refine ⟨?_, h0, h1⟩
  rw [← hs, ← hrc]
  rcases Nat.mod_two_eq_zero_or_one k with hk | hk
  · rw [hk, show (k + 1) % 2 = 1 by omega]
    rfl
  · rw [hk, show (k + 1) % 2 = 0 by omega]
    rfl

/-- The constants and the state that a block is added to stay in place. -/
structure Kept (h : Hash) (r : Regs) : Prop where
  rcon : ∀ i < 16, r.v i = sha2Rcon i
  dga : r.dga = hashLo h
  dgb : r.dgb = hashHi h

theorem Kept.addOnly {h : Hash} {r : Regs} (hr : Kept h r) (ev : ℕ) (arg : Option (ℕ × ℕ)) :
    Kept h (addOnly ev arg r) := by
  obtain ⟨hv, ha, hb⟩ := addOnly_frame ev arg r
  exact ⟨fun i hi => by rw [hv, hr.rcon i hi], ha.trans hr.dga, hb.trans hr.dgb⟩

/-- The invariant between two macros: `s0`, `s1`, `s2`, `s3` hold the sixteen schedule
words from `4 * k` on. -/
structure Window (w : List UInt32) (h : Hash) (k s0 s1 s2 s3 : ℕ) (r : Regs) : Prop
    extends Rounds w h k r, Kept h r where
  v0 : r.v s0 = quad w k
  v1 : r.v s1 = quad w (k + 1)
  v2 : r.v s2 = quad w (k + 2)
  v3 : r.v s3 = quad w (k + 3)

/-- The 64 words follow the recurrence of the schedule. -/
def IsSchedule (w : List UInt32) : Prop :=
  ∀ t < 48, w.getD (t + 16) 0 = smallSigma1 (w.getD (t + 14) 0) + w.getD (t + 9) 0 +
    smallSigma0 (w.getD (t + 1) 0) + w.getD t 0

/-- The recurrence, four words at once. -/
theorem IsSchedule.quad {w : List UInt32} (hw : IsSchedule w) {k : ℕ} (hk : k < 12) :
    sha256su1 (sha256su0 (quad w k) (quad w (k + 1))) (quad w (k + 2)) (quad w (k + 3)) =
      quad w (k + 4) := by
  have h0 := hw (4 * k) (by omega)
  have h1 := hw (4 * k + 1) (by omega)
  have h2 := hw (4 * k + 2) (by omega)
  have h3 := hw (4 * k + 3) (by omega)
  simp only [sha256su0, sha256su1, Bl2.quad, Nat.mul_add, Nat.add_assoc, Nat.reduceMul,
    Nat.reduceAdd] at h0 h1 h2 h3 ⊢
  ext
  · rw [h0]
    ac_rfl
  · rw [h1]
    ac_rfl
  · rw [h2, h0]
    ac_rfl
  · rw [h3, h1]
    ac_rfl

theorem addUpdate_window {w : List UInt32} (hw : IsSchedule w) {h : Hash}
    {k s0 s1 s2 s3 : ℕ} {r : Regs} (hk : k < 12) (hr : Window w h k s0 s1 s2 s3 r)
    (hs0 : 16 ≤ s0) (h1 : s1 ≠ s0) (h2 : s2 ≠ s0) (h3 : s3 ≠ s0) :
    Window w h (k + 1) s1 s2 s3 s0 (addUpdate (k % 2) (k + 1) s0 s1 s2 s3 r) := by
  set r1 : Regs := { r with v := Function.update r.v s0 (sha256su0 (r.v s0) (r.v s1)) } with hr1
  have hv1 : ∀ i, i ≠ s0 → r1.v i = r.v i := fun i hi => Function.update_of_ne hi _ _
  have hrounds : Rounds w h (k + 1) (addOnly (k % 2) (some (k + 1, s1)) r1) := by
    refine addOnly_rounds ⟨hr.sum, hr.dg0, hr.dg1⟩ ?_ ?_
    · rw [hv1 _ h1, hr.v1]
    · rw [hv1 _ (by omega), hr.rcon _ (by omega)]
  obtain ⟨hv, ha, hb⟩ := addOnly_frame (k % 2) (some (k + 1, s1)) r1
  have hnew : (addUpdate (k % 2) (k + 1) s0 s1 s2 s3 r).v =
      Function.update r1.v s0 (quad w (k + 4)) := by
    have hself : r1.v s0 = sha256su0 (r.v s0) (r.v s1) := Function.update_self _ _ _
    rw [← hw.quad hk, ← hr.v0, ← hr.v1, ← hr.v2, ← hr.v3, ← hself]
    simp only [addUpdate, ← hr1, hv, hv1 _ h2, hv1 _ h3]
  have hold : ∀ i, i ≠ s0 → (addUpdate (k % 2) (k + 1) s0 s1 s2 s3 r).v i = r.v i := by
    intro i hi
    rw [hnew, Function.update_of_ne hi, hv1 i hi]
  exact
    { sum := hrounds.sum
      dg0 := hrounds.dg0
      dg1 := hrounds.dg1
      v0 := (hold _ h1).trans hr.v1
      v1 := (hold _ h2).trans hr.v2
      v2 := (hold _ h3).trans hr.v3
      v3 := by rw [hnew, Function.update_self]
      rcon := fun i hi => (hold i (by omega)).trans (hr.rcon i hi)
      dga := ha.trans hr.dga
      dgb := hb.trans hr.dgb }

/-- Four macros are a turn of the window through the registers. -/
theorem turn_window {w : List UInt32} (hw : IsSchedule w) {h : Hash} {k : ℕ} {r : Regs}
    (hk : k < 3) (hr : Window w h (4 * k) 16 17 18 19 r) :
    Window w h (4 * k + 4) 16 17 18 19
      (addUpdate 1 (4 * k + 4) 19 16 17 18 (addUpdate 0 (4 * k + 3) 18 19 16 17
        (addUpdate 1 (4 * k + 2) 17 18 19 16 (addUpdate 0 (4 * k + 1) 16 17 18 19 r)))) := by
  have h1 := addUpdate_window hw (by omega) hr (by omega) (by omega) (by omega) (by omega)
  have h2 := addUpdate_window hw (by omega) h1 (by omega) (by omega) (by omega) (by omega)
  have h3 := addUpdate_window hw (by omega) h2 (by omega) (by omega) (by omega) (by omega)
  have h4 := addUpdate_window hw (by omega) h3 (by omega) (by omega) (by omega) (by omega)
  rwa [show 4 * k % 2 = 0 by omega, show (4 * k + 1) % 2 = 1 by omega,
    show (4 * k + 1 + 1) % 2 = 0 by omega, show (4 * k + 1 + 1 + 1) % 2 = 1 by omega] at h4

/-- The last four macros, which extend the schedule no more. -/
theorem last_rounds {w : List UInt32} {h : Hash} {r : Regs} (hr : Window w h 12 16 17 18 19 r) :
    let r' := addOnly 1 none (addOnly 0 (some (15, 19)) (addOnly 1 (some (14, 18))
      (addOnly 0 (some (13, 17)) r)))
    r'.dg0 = hashLo (hashAt w h 64) ∧ r'.dg1 = hashHi (hashAt w h 64) ∧ Kept h r' := by
  have h13 : Rounds w h 13 (addOnly 0 (some (13, 17)) r) :=
    addOnly_rounds hr.toRounds hr.v1 (hr.rcon 13 (by omega))
  have k13 := hr.toKept.addOnly 0 (some (13, 17))
  have v13 := (addOnly_frame 0 (some (13, 17)) r).1
  generalize addOnly 0 (some (13, 17)) r = r13 at *
  have h14 : Rounds w h 14 (addOnly 1 (some (14, 18)) r13) :=
    addOnly_rounds h13 (by rw [v13]; exact hr.v2) (k13.rcon 14 (by omega))
  have k14 := k13.addOnly 1 (some (14, 18))
  have v14 := (addOnly_frame 1 (some (14, 18)) r13).1
  generalize addOnly 1 (some (14, 18)) r13 = r14 at *
  have h15 : Rounds w h 15 (addOnly 0 (some (15, 19)) r14) :=
    addOnly_rounds h14 (by rw [v14, v13]; exact hr.v3) (k14.rcon 15 (by omega))
  obtain ⟨h0, h1⟩ := addOnly_dg h15 none
  exact ⟨h0, h1, (k14.addOnly 0 (some (15, 19))).addOnly 1 none⟩

/-- The sixteen macros are the 64 rounds. -/
theorem rounds_eq {w : List UInt32} (hw : IsSchedule w) {h : Hash} {r : Regs}
    (hr : Window w h 0 16 17 18 19 r) :
    (rounds r).dg0 = hashLo (hashAt w h 64) ∧ (rounds r).dg1 = hashHi (hashAt w h 64) ∧
      Kept h (rounds r) :=
  last_rounds (turn_window hw (k := 2) (by omega)
    (turn_window hw (k := 1) (by omega) (turn_window hw (k := 0) (by omega) hr)))

/-! ## Blocks -/

theorem isSchedule_blockWords (blk : List UInt8) : IsSchedule (schedule (blockWords blk) 48) :=
  fun _ ht => getD_schedule (by simp [blockWords]) ht

/-- Sixteen bytes, loaded and reversed, are four words of the schedule. -/
theorem rev32_ld1 (m : Mem) (x1 i : ℕ) (hi : i < 4) :
    rev32 (ld1 m (x1 + 16 * i)) = quad (schedule (blockWords (m.read x1 64)) 48) i := by
  have hword : ∀ j < 16, (schedule (blockWords (m.read x1 64)) 48).getD j 0 =
      swap32 (m.le32 (x1 + 4 * j)) := by
    intro j hj
    obtain ⟨b0, b1, b2, b3⟩ := byte32_word32 (m (x1 + 4 * j)) (m (x1 + 4 * j + 1))
      (m (x1 + 4 * j + 2)) (m (x1 + 4 * j + 3))
    rw [getD_schedule_block _ _ _ (by simpa [blockWords] using hj), getD_blockWords _ hj, wordBE,
      Mem.getD_read _ _ _ _ (by omega), Mem.getD_read _ _ _ _ (by omega),
      Mem.getD_read _ _ _ _ (by omega), Mem.getD_read _ _ _ _ (by omega), swap32, Mem.le32,
      b0, b1, b2, b3]
    rfl
  rw [quad, hword _ (by omega), hword _ (by omega), hword _ (by omega), hword _ (by omega)]
  simp only [rev32, ld1, Nat.mul_add, ← Nat.mul_assoc, Nat.reduceMul, Nat.add_assoc, Nat.mul_one]

/-- One pass of the loop adds one block to the state. -/
theorem transformBlock_kept (m : Mem) (x1 : ℕ) {h : Hash} {r : Regs} (hr : Kept h r) :
    Kept (compress h (m.read x1 64)) (transformBlock m x1 r) := by
  set w := schedule (blockWords (m.read x1 64)) 48 with hw
  have hload : ∀ i < 4, rev32 (ld1 m (x1 + 16 * i)) = quad w i := fun i hi => rev32_ld1 m x1 i hi
  set v := Function.update (Function.update (Function.update (Function.update r.v
    16 (rev32 (ld1 m (x1 + 16 * 0)))) 17 (rev32 (ld1 m (x1 + 16 * 1))))
    18 (rev32 (ld1 m (x1 + 16 * 2)))) 19 (rev32 (ld1 m (x1 + 16 * 3))) with hv
  have hconst : ∀ i < 16, v i = sha2Rcon i := by
    intro i hi
    rw [hv, Function.update_of_ne (by omega), Function.update_of_ne (by omega),
      Function.update_of_ne (by omega), Function.update_of_ne (by omega), hr.rcon i hi]
  have hwin : Window w h 0 16 17 18 19
      { r with v := v, t0 := (v 16).add (v 0), dg0 := r.dga, dg1 := r.dgb } :=
    { sum := by
        change (v 16).add (v 0) = _
        rw [hconst 0 (by omega)]
        exact congrArg (V4.add · _) (hload 0 (by omega))
      dg0 := hr.dga
      dg1 := hr.dgb
      rcon := hconst
      dga := hr.dga
      dgb := hr.dgb
      v0 := hload 0 (by omega)
      v1 := hload 1 (by omega)
      v2 := hload 2 (by omega)
      v3 := hload 3 (by omega) }
  obtain ⟨h0, h1, hk⟩ := rounds_eq (isSchedule_blockWords _) hwin
  refine ⟨hk.rcon, ?_, ?_⟩
  · calc (transformBlock m x1 r).dga = V4.add _ _ := rfl
      _ = (hashLo h).add (hashLo (hashAt w h 64)) := congrArg₂ V4.add hk.dga h0
      _ = _ := rfl
  · calc (transformBlock m x1 r).dgb = V4.add _ _ := rfl
      _ = (hashHi h).add (hashHi (hashAt w h 64)) := congrArg₂ V4.add hk.dgb h1
      _ = _ := rfl

theorem transformLoop_kept {m : Mem} {limit w2 x1 : ℕ} {h : Hash} {r : Regs} (hr : Kept h r)
    (hl : x1 + 64 * (w2 + 1) ≤ limit) :
    ∃ r', transformLoop m limit w2 x1 r = some r' ∧
      Kept (compressBlocks (w2 + 1) h (m.read x1 (64 * (w2 + 1)))) r' := by
  induction w2 generalizing x1 h r with
  | zero =>
    refine ⟨transformBlock m x1 r, if_pos hl, ?_⟩
    have hb := transformBlock_kept m x1 hr
    rwa [compressBlocks, compressBlocks, Mem.take_read _ _ _ _ (by omega)]
  | succ w2 ih =>
    obtain ⟨r', hr', hk⟩ := ih (transformBlock_kept m x1 hr)
      (by omega : x1 + 64 + 64 * (w2 + 1) ≤ limit)
    refine ⟨r', by rw [transformLoop, if_pos (by omega), hr'], ?_⟩
    rw [compressBlocks, Mem.take_read _ _ _ _ (by omega), Mem.drop_read _ _ _ _ (by omega),
      show 64 * (w2 + 1 + 1) - 64 = 64 * (w2 + 1) by omega]
    exact hk

/-- The transform of `num` blocks, for every count but zero. -/
theorem sha256CeTransform_eq (m : Mem) (limit x1 num : ℕ) (h : Hash) (h0 : 0 < num)
    (h1 : num < 2 ^ 32) (hl : x1 + 64 * num ≤ limit) :
    sha256CeTransform h m limit x1 num = some (compressBlocks num h (m.read x1 (64 * num))) := by
  obtain ⟨w2, rfl⟩ := Nat.exists_eq_add_of_lt h0
  rw [Nat.zero_add] at h1 hl ⊢
  unfold sha256CeTransform
  rw [show (w2 + 1 + (2 ^ 32 - 1)) % 2 ^ 32 = w2 by omega]
  obtain ⟨r', hr', hk⟩ := transformLoop_kept (m := m) (h := h)
    (r := ⟨sha2Rcon, hashLo h, hashHi h, ⟨0, 0, 0, 0⟩, ⟨0, 0, 0, 0⟩, ⟨0, 0, 0, 0⟩, ⟨0, 0, 0, 0⟩,
      ⟨0, 0, 0, 0⟩⟩) ⟨fun _ _ => rfl, rfl, rfl⟩ hl
  simp only [hr', Option.map_some, hk.dga, hk.dgb]
  rfl

theorem transformLoop_fault {m : Mem} {limit w2 x1 : ℕ} {r : Regs}
    (hl : limit < x1 + 64 * (w2 + 1)) : transformLoop m limit w2 x1 r = none := by
  induction w2 generalizing x1 r with
  | zero => exact if_neg (by omega)
  | succ w2 ih =>
    unfold transformLoop
    split
    · exact ih (by omega)
    · rfl

/-- Zero blocks are `2 ^ 32` blocks, which no memory has. -/
theorem sha256CeTransform_zero {m : Mem} {limit x1 : ℕ} (h : Hash) (hl : limit < x1 + 2 ^ 38) :
    sha256CeTransform h m limit x1 0 = none := by
  unfold sha256CeTransform
  dsimp only
  rw [transformLoop_fault (by omega)]
  rfl

/-! ## Buffering and padding -/

/-- The context after the bytes of `msg`. -/
structure Absorbed (ctx : AvbSHA256Ctx) (msg : List UInt8) : Prop where
  h : ctx.h = compressBlocks (msg.length / 64) H0 msg
  totLen : ctx.totLen = 64 * (msg.length / 64)
  len : ctx.len = msg.length % 64
  block : ctx.block.read 0 ctx.len = msg.drop (64 * (msg.length / 64))

theorem read_const (b : UInt8) (off n : ℕ) :
    Mem.read (fun _ => b) off n = List.replicate n b := by
  simp [Mem.read]

/-- The own block after the padding: the bytes left, the end mark, zeros and the length. -/
theorem read_padded (block : Mem) (len z : ℕ) (x : UInt32) :
    (unpack32 ((block.copy len (fun _ => 0) 0 (1 + (z + 4))).copy len (fun _ => 0x80) 0 1)
        (len + 1 + z) x).read 0 (len + 1 + z + 4) =
      block.read 0 len ++ [0x80] ++ List.replicate z 0 ++ bytesBE x := by
  have hx : (Mem.ofList (bytesBE x)).read 0 4 = bytesBE x := rfl
  rw [Mem.read_append, Mem.read_append, Mem.read_append, unpack32]
  simp only [Nat.zero_add]
  congr 1
  · congr 1
    · congr 1
      · rw [Mem.read_copy_out _ _ _ _ _ _ _ (by omega), Mem.read_copy_out _ _ _ _ _ _ _ (by omega),
          Mem.read_copy_out _ _ _ _ _ _ _ (by omega)]
      · rw [Mem.read_copy_out _ _ _ _ _ _ _ (by omega),
          Mem.read_copy_in _ _ _ _ _ _ _ (by omega) (by omega), read_const]
        rfl
    · rw [Mem.read_copy_out _ _ _ _ _ _ _ (by omega), Mem.read_copy_out _ _ _ _ _ _ _ (by omega),
        Mem.read_copy_in _ _ _ _ _ _ _ (by omega) (by omega), read_const]
  · rw [Mem.read_copy_in _ _ _ _ _ _ _ (by omega) (by omega), Nat.sub_self, hx]

/-- The padded message, cut after its whole blocks. -/
theorem drop_pad {msg : List UInt8} (hlen : msg.length < 2 ^ 29) {nb : ℕ}
    (hnb : nb = if 55 < msg.length % 64 then 2 else 1) :
    (pad msg).drop (64 * (msg.length / 64)) =
      msg.drop (64 * (msg.length / 64)) ++ [0x80] ++
        List.replicate (64 * nb - 5 - msg.length % 64) 0 ++
        bytesBE (UInt32.ofNat (8 * msg.length)) := by
  have hz : 64 * nb - 5 - msg.length % 64 = (119 - msg.length % 64) % 64 + 4 := by
    split at hnb <;> omega
  have hhi : bytesBE (UInt32.ofNat (8 * msg.length / 2 ^ 32)) = List.replicate 4 0 := by
    rw [Nat.div_eq_of_lt (by omega)]
    rfl
  rw [hz, List.replicate_add, ← hhi]
  simp only [pad, List.append_assoc]
  rw [List.drop_append_of_le_length (by omega)]

end RCar.Bl2
