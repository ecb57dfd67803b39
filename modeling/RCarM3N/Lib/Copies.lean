import RCarM3N.Lib.Bytes

/-! Copies that go forward block by block, between ranges that may overlap: where the byte of each place comes
from. A copy that runs into its own source repeats the bytes in front. -/

namespace RCar

/-- Where the byte that a forward copy puts at `a` comes from. -/
def copySource (d s a : ℕ) : ℕ := if s < d then s + (a - d) % (d - s) else s + (a - d)

/-- Where the byte at `a` was before a forward copy of `n` bytes. -/
def moved (d s n a : ℕ) : ℕ := if d ≤ a ∧ a < d + n then copySource d s a else a

/-- `k` blocks of `w` bytes, one after the other. -/
def Mem.copyBlocks (w : ℕ) (m : Mem) (d s : ℕ) : ℕ → Mem
  | 0 => m
  | k + 1 => (copyBlocks w m d s k).copy (d + w * k) (copyBlocks w m d s k) (s + w * k) w

variable {d s n w a i : ℕ} {m : Mem}

theorem moved_in (h1 : d ≤ a) (h2 : a < d + n) : moved d s n a = copySource d s a := if_pos ⟨h1, h2⟩

theorem moved_out (h : a < d ∨ d + n ≤ a) : moved d s n a = a := if_neg (by omega)

@[simp] theorem moved_zero (d s a : ℕ) : moved d s 0 a = a := moved_out (by omega)

/-- A byte that is copied before the copy runs into its own source comes from its own place. -/
theorem moved_apart (h : i < d - s ∨ d ≤ s) (hi : i < n) : moved d s n (d + i) = s + i := by
  rw [moved_in (by omega) (by omega), copySource, Nat.add_sub_cancel_left]
  split_ifs with hlt
  · rw [Nat.mod_eq_of_lt (by omega)]
  · rfl

theorem moved_self (d n a : ℕ) : moved d d n a = a := by
  unfold moved copySource
  split_ifs with h
  · omega
  · omega
  · rfl

/-- The byte that the next block takes from the place behind those taken. -/
theorem moved_next (hw : s < d → w ≤ d - s) (h1 : d + n ≤ a) (h2 : a < d + n + w) :
    moved d s n (s + (a - d)) = copySource d s a := by
  by_cases hlt : s < d
  · have hw := hw hlt
    have hpos : 0 < d - s := by omega
    by_cases hback : d ≤ s + (a - d)
    · rw [moved_in hback (by omega), copySource, copySource, if_pos hlt, if_pos hlt]
      rw [show a - d = s + (a - d) - d + (d - s) by omega, Nat.add_mod_right]
      congr 3
      omega
    · rw [moved_out (by omega), copySource, if_pos hlt, Nat.mod_eq_of_lt (by omega)]
  · rw [moved_out (by omega), copySource, if_neg hlt]

/-- One more block, no wider than the way from the source to a destination behind it. -/
theorem copy_moved (hw : s < d → w ≤ d - s) (m : Mem) :
    Mem.copy (fun a => m (moved d s n a)) (d + n) (fun a => m (moved d s n a)) (s + n) w =
      fun a => m (moved d s (n + w) a) := by
  funext a
  by_cases hblock : d + n ≤ a ∧ a < d + n + w
  · obtain ⟨h1, h2⟩ := hblock
    rw [Mem.copy_in _ _ _ _ _ _ h1 h2, show s + n + (a - (d + n)) = s + (a - d) by omega, moved_next hw h1 h2,
      moved_in (by omega) (by omega)]
  · rw [Mem.copy_out _ _ _ _ _ _ (by omega)]
    by_cases hin : d ≤ a ∧ a < d + n
    · rw [moved_in hin.1 hin.2, moved_in hin.1 (by omega)]
    · rw [moved_out (by omega), moved_out (by omega)]

/-- Blocks that go on where `n` bytes have been copied. -/
theorem copyBlocks_moved (hw : s < d → w ≤ d - s) (m : Mem) (n k : ℕ) :
    Mem.copyBlocks w (fun a => m (moved d s n a)) (d + n) (s + n) k = fun a => m (moved d s (n + w * k) a) := by
  induction k with
  | zero => rfl
  | succ k ih =>
    rw [Mem.copyBlocks, ih, Nat.add_assoc, Nat.add_assoc, copy_moved hw, Nat.mul_succ, Nat.add_assoc]

theorem copyBlocks_eq (hw : s < d → w ≤ d - s) (m : Mem) (k : ℕ) :
    m.copyBlocks w d s k = fun a => m (moved d s (w * k) a) := by
  have h := copyBlocks_moved hw m 0 k
  simp only [moved_zero, Nat.add_zero, Nat.zero_add] at h
  exact h

end RCar
