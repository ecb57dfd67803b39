import RCarM3N.Lib.Arm

/-! Blocks of a memory with 32-bit addresses, which go on from the last address at the first: loops that copy or fill a
block byte by byte upwards, and what they leave. -/

namespace RCar.Arm

open State

/-- A block copied to another. -/
def copied (m : Word → Byte) (d s : Word) (n : ℕ) : Word → Byte :=
  fun a => if (a - d).toNat < n then m (s + (a - d)) else m a

/-- A block filled with a byte. -/
def filled (m : Word → Byte) (d : Word) (b : Byte) (n : ℕ) : Word → Byte :=
  fun a => if (a - d).toNat < n then b else m a

/-- Two blocks of the same length have no address in common. -/
def Apart (d s : Word) (n : ℕ) : Prop := ∀ i < n, ∀ j < n, d + BitVec.ofNat 32 i ≠ s + BitVec.ofNat 32 j

/-- The loop that copies `n` bytes. -/
def copyUp (m : Word → Byte) (d s : Word) : ℕ → Word → Byte
  | 0 => m
  | n + 1 => copyUp (storeByte m d (m s)) (d + 1) (s + 1) n

/-- The loop that fills `n` bytes. -/
def fillUp (m : Word → Byte) (d : Word) (b : Byte) : ℕ → Word → Byte
  | 0 => m
  | n + 1 => fillUp (storeByte m d b) (d + 1) b n

variable {m : Word → Byte} {d s a : Word} {b : Byte} {n k : ℕ}

/-! ## Addresses -/

theorem add_ofNat_succ (a : Word) (n : ℕ) : a + 1 + BitVec.ofNat 32 n = a + BitVec.ofNat 32 (n + 1) := by
  rw [BitVec.ofNat_add, BitVec.add_assoc, BitVec.add_comm 1]
  rfl

/-- Places in a block that are less than the whole memory apart are different addresses. -/
theorem add_ofNat_inj (hn : n < 2 ^ 32) (hk : k < 2 ^ 32) : d + BitVec.ofNat 32 n = d + BitVec.ofNat 32 k ↔ n = k := by
  rw [BitVec.add_right_inj, ← BitVec.toNat_inj, BitVec.toNat_ofNat, BitVec.toNat_ofNat, Nat.mod_eq_of_lt hn,
    Nat.mod_eq_of_lt hk]

theorem exists_ofNat (d a : Word) : ∃ k < 2 ^ 32, a = d + BitVec.ofNat 32 k := by
  refine ⟨(a - d).toNat, (a - d).isLt, ?_⟩
  rw [BitVec.ofNat_toNat, BitVec.setWidth_eq, BitVec.add_comm, BitVec.sub_add_cancel]

theorem Apart.shift (h : Apart d s n) (hk : k ≤ n) :
    Apart (d + BitVec.ofNat 32 k) (s + BitVec.ofNat 32 k) (n - k) := by
  intro i hi j hj
  rw [BitVec.add_assoc, BitVec.add_assoc, ← BitVec.ofNat_add, ← BitVec.ofNat_add]
  exact h _ (by omega) _ (by omega)

/-! A counter of the turns that are left. -/

theorem ofNat_succ_sub_one (n : ℕ) : BitVec.ofNat 32 (n + 1) - 1 = BitVec.ofNat 32 n := by
  rw [BitVec.ofNat_add]
  exact BitVec.add_sub_cancel _ _

theorem ofNat_succ_eq_one_iff (hn : n < 2 ^ 32) : BitVec.ofNat 32 (n + 1) = 1 ↔ n = 0 := by
  rw [← BitVec.toNat_inj, BitVec.toNat_ofNat]
  change (n + 1) % 2 ^ 32 = 1 ↔ n = 0
  omega

/-! ## Copies -/

/-- The last byte of a copy. -/
theorem copyUp_succ (m : Word → Byte) (d s : Word) (n : ℕ) : copyUp m d s (n + 1) =
    storeByte (copyUp m d s n) (d + BitVec.ofNat 32 n) (copyUp m d s n (s + BitVec.ofNat 32 n)) := by
  induction n generalizing m d s with
  | zero => simp [copyUp]
  | succ n ih => rw [copyUp, ih, add_ofNat_succ, add_ofNat_succ, copyUp]

theorem copyUp_add (m : Word → Byte) (d s : Word) (n k : ℕ) : copyUp m d s (n + k) =
    copyUp (copyUp m d s n) (d + BitVec.ofNat 32 n) (s + BitVec.ofNat 32 n) k := by
  induction k with
  | zero => rfl
  | succ k ih =>
    rw [← Nat.add_assoc, copyUp_succ, ih, copyUp_succ, BitVec.ofNat_add, BitVec.add_assoc, BitVec.add_assoc]

theorem add_sub_self (d x : Word) : d + x - d = x := by
  rw [BitVec.add_comm, BitVec.add_sub_cancel]

theorem toNat_dist (d : Word) (hk : k < 2 ^ 32) : (d + BitVec.ofNat 32 k - d).toNat = k := by
  rw [add_sub_self, BitVec.toNat_ofNat, Nat.mod_eq_of_lt hk]

theorem copied_at (hk : k < 2 ^ 32) : copied m d s n (d + BitVec.ofNat 32 k) =
    if k < n then m (s + BitVec.ofNat 32 k) else m (d + BitVec.ofNat 32 k) := by
  rw [copied, toNat_dist d hk, add_sub_self]

theorem storeByte_at {x : Byte} (hn : n < 2 ^ 32) (hk : k < 2 ^ 32) :
    storeByte m (d + BitVec.ofNat 32 n) x (d + BitVec.ofNat 32 k) = if k = n then x else m (d + BitVec.ofNat 32 k) := by
  rw [storeByte, Function.update_apply]
  exact if_congr (add_ofNat_inj hk hn) rfl rfl

/-- The block that is read stays. -/
theorem copied_source (h : Apart d s n) (hk : k < n) {j : ℕ} (hj : j ≤ n) :
    copied m d s j (s + BitVec.ofNat 32 k) = m (s + BitVec.ofNat 32 k) := by
  obtain ⟨i, hi, hsrc⟩ := exists_ofNat d (s + BitVec.ofNat 32 k)
  have hout : ¬ i < j := fun hlt => h i (by omega) k hk hsrc.symm
  rw [hsrc, copied_at hi, if_neg hout]

theorem copied_succ (h : Apart d s (n + 1)) (hn : n < 2 ^ 32) : copied m d s (n + 1) =
    storeByte (copied m d s n) (d + BitVec.ofNat 32 n) (copied m d s n (s + BitVec.ofNat 32 n)) := by
  funext a
  obtain ⟨k, hk, rfl⟩ := exists_ofNat d a
  rw [copied_source h (Nat.lt_succ_self n) (Nat.le_succ n), copied_at hk, storeByte_at hn hk, copied_at hk]
  by_cases hkn : k = n
  · rw [hkn, if_pos (Nat.lt_succ_self n), if_pos rfl]
  · rw [if_neg hkn]
    exact if_congr (by omega) rfl rfl

@[simp] theorem copied_zero (m : Word → Byte) (d s : Word) : copied m d s 0 = m := by
  funext a
  exact if_neg (Nat.not_lt_zero _)

/-- A loop that copies between blocks apart copies the block. -/
theorem copyUp_eq (h : Apart d s n) (hn : n ≤ 2 ^ 32) : copyUp m d s n = copied m d s n := by
  induction n with
  | zero => simp [copyUp]
  | succ n ih =>
    rw [copyUp_succ, ih (fun i hi j hj => h i (by omega) j (by omega)) (by omega), copied_succ h (by omega)]

/-- Of a loop that goes on the bytes behind it stay. -/
theorem copyUp_at (hk : k < n) (hn : n ≤ 2 ^ 32) :
    copyUp m d s n (d + BitVec.ofNat 32 k) = copyUp m d s (k + 1) (d + BitVec.ofNat 32 k) := by
  induction n, hk using Nat.le_induction with
  | base => rfl
  | succ n hkn ih =>
    rw [copyUp_succ, storeByte_at (by omega) (by omega), if_neg (by omega), ih (by omega)]

theorem copyUp_same (h : ∀ a, m (d + a) = m (s + a)) (n : ℕ) : copyUp m d s n = m := by
  induction n with
  | zero => rfl
  | succ n ih =>
    rw [copyUp_succ, ih, ← h]
    exact Function.update_eq_self _ _

/-- A loop over the whole memory changes nothing only where nothing is to be changed. -/
theorem copyUp_all : copyUp m d s (2 ^ 32) = m ↔ ∀ a, m (d + a) = m (s + a) := by
  refine ⟨fun hsame => ?_, fun h => copyUp_same h _⟩
  have hkept : ∀ k ≤ 2 ^ 32, copyUp m d s k = m := by
    intro k hk
    induction k with
    | zero => rfl
    | succ k ih =>
      have hbyte : copyUp m d s (k + 1) (d + BitVec.ofNat 32 k) = m (d + BitVec.ofNat 32 k) := by
        rw [← copyUp_at hk le_rfl, hsame]
      rw [copyUp_succ, ih (by omega), storeByte_at hk hk, if_pos rfl] at hbyte
      rw [copyUp_succ, ih (by omega), hbyte]
      exact Function.update_eq_self _ _
  intro a
  obtain ⟨k, hk, rfl⟩ : ∃ k < 2 ^ 32, a = BitVec.ofNat 32 k := ⟨a.toNat, a.isLt, by simp⟩
  have hbyte := congrFun (hkept (k + 1) hk) (d + BitVec.ofNat 32 k)
  rw [copyUp_succ, hkept k hk.le, storeByte_at hk hk, if_pos rfl] at hbyte
  exact hbyte.symm

/-! ## Words -/

theorem extract_bytes (w x y z : Byte) : (w ++ x ++ y ++ z).extractLsb' 0 8 = z ∧ (w ++ x ++ y ++ z).extractLsb' 8 8 = y ∧
    (w ++ x ++ y ++ z).extractLsb' 16 8 = x ∧ (w ++ x ++ y ++ z).extractLsb' 24 8 = w := by
  have hlow : ∀ {v : ℕ} (u : BitVec v) (b : Byte), (u ++ b).extractLsb' 0 8 = b := fun u b => by
    rw [BitVec.extractLsb'_append_eq_of_add_le (Nat.zero_add 8).le, BitVec.extractLsb'_eq_self]
  have hhigh : ∀ {v : ℕ} (u : BitVec v) (b : Byte) (k : ℕ), (u ++ b).extractLsb' (k + 8) 8 = u.extractLsb' k 8 :=
    fun u b k => by rw [BitVec.extractLsb'_append_eq_of_le (Nat.le_add_left 8 k), Nat.add_sub_cancel]
  refine ⟨hlow _ _, ?_, ?_, ?_⟩
  · exact (hhigh _ _ 0).trans (hlow _ _)
  · exact (hhigh _ _ 8).trans ((hhigh _ _ 0).trans (hlow _ _))
  · exact (hhigh _ _ 16).trans ((hhigh _ _ 8).trans ((hhigh _ _ 0).trans BitVec.extractLsb'_eq_self))

/-- A word that is loaded and stored is four bytes copied. -/
theorem storeWord_loadWord (h : Apart d s 4) : storeWord m d (loadWord m s) = copyUp m d s 4 := by
  obtain ⟨h0, h1, h2, h3⟩ := extract_bytes (m (s + 3)) (m (s + 2)) (m (s + 1)) (m s)
  have hread : ∀ k < 4, copyUp m d s k (s + BitVec.ofNat 32 k) = m (s + BitVec.ofNat 32 k) := by
    intro k hk
    rw [copyUp_eq (fun i hi j hj => h i (by omega) j (by omega)) (by omega), copied_source h hk hk.le]
  rw [storeWord, loadWord, h0, h1, h2, h3, copyUp_succ, hread 3 (by decide), copyUp_succ, hread 2 (by decide), copyUp_succ,
    hread 1 (by decide)]
  rfl

/-! ## Fills -/

theorem fillUp_succ (m : Word → Byte) (d : Word) (b : Byte) (n : ℕ) :
    fillUp m d b (n + 1) = storeByte (fillUp m d b n) (d + BitVec.ofNat 32 n) b := by
  induction n generalizing m d with
  | zero => simp [fillUp]
  | succ n ih => rw [fillUp, ih, add_ofNat_succ, fillUp]

theorem filled_at (hk : k < 2 ^ 32) :
    filled m d b n (d + BitVec.ofNat 32 k) = if k < n then b else m (d + BitVec.ofNat 32 k) := by
  rw [filled, toNat_dist d hk]

@[simp] theorem filled_zero (m : Word → Byte) (d : Word) (b : Byte) : filled m d b 0 = m := by
  funext a
  exact if_neg (Nat.not_lt_zero _)

theorem fillUp_eq (hn : n ≤ 2 ^ 32) : fillUp m d b n = filled m d b n := by
  induction n with
  | zero => simp [fillUp]
  | succ n ih =>
    funext a
    obtain ⟨k, hk, rfl⟩ := exists_ofNat d a
    rw [fillUp_succ, ih (by omega), storeByte_at (by omega) hk, filled_at hk, filled_at hk]
    by_cases hkn : k = n
    · rw [hkn, if_pos rfl, if_pos (Nat.lt_succ_self n)]
    · rw [if_neg hkn]
      exact if_congr (by omega) rfl rfl

end RCar.Arm
