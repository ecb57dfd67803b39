import Mathlib

/-! A ring of items with the position of the next one and the number of items that count: what is
read of it, and that pushing keeps the most recent items. -/

namespace RCar

structure Ring (α : Type) where
  data : ℕ → α
  index : ℕ
  size : ℕ

namespace Ring

variable {α : Type}

/-- How many items the ring holds. -/
def held (cap : ℕ) (r : Ring α) : ℕ := min r.size cap

/-- The item that was pushed so many items before the last one. -/
def back (cap : ℕ) (r : Ring α) (k : ℕ) : α := r.data ((r.index + cap - 1 - k) % cap)

/-- The items that the ring holds, oldest first: those that end at its position. -/
def recent (cap : ℕ) (r : Ring α) : List α := ((List.range (r.held cap)).map (r.back cap)).reverse

def push (cap : ℕ) (r : Ring α) (x : α) : Ring α where
  data := Function.update r.data r.index x
  index := if cap ≤ r.index + 1 then 0 else r.index + 1
  size := max r.size (r.index + 1)

/-- The position is in the ring, and the items before it count. -/
structure Sound (cap : ℕ) (r : Ring α) : Prop where
  index_lt : r.index < cap
  index_le : r.index ≤ r.size
  size_le : r.size ≤ cap

variable {cap : ℕ} {r : Ring α}

@[simp] theorem length_recent (cap : ℕ) (r : Ring α) : (r.recent cap).length = min r.size cap := by
  simp [recent, held]

theorem Sound.push (h : Sound cap r) (x : α) : Sound cap (r.push cap x) := by
  obtain ⟨hlt, hle, hsize⟩ := h
  refine ⟨?_, ?_, ?_⟩
  · change (if cap ≤ r.index + 1 then 0 else r.index + 1) < cap
    split <;> omega
  · change (if cap ≤ r.index + 1 then 0 else r.index + 1) ≤ max r.size (r.index + 1)
    split <;> omega
  · change max r.size (r.index + 1) ≤ cap
    omega

theorem back_push_zero (h : r.index < cap) (x : α) : (r.push cap x).back cap 0 = x := by
  have hpos : ((if cap ≤ r.index + 1 then 0 else r.index + 1) + cap - 1 - 0) % cap = r.index := by
    split
    · rw [show 0 + cap - 1 - 0 = r.index by omega]
      exact Nat.mod_eq_of_lt h
    · rw [show r.index + 1 + cap - 1 - 0 = r.index + cap by omega, Nat.add_mod_right]
      exact Nat.mod_eq_of_lt h
  simp only [back, push, hpos, Function.update_self]

/-- What was pushed earlier is one place further back, up to the item that is replaced. -/
theorem back_push_succ (h : r.index < cap) (x : α) {k : ℕ} (hk : k + 1 < cap) :
    (r.push cap x).back cap (k + 1) = r.back cap k := by
  have hpos : ((if cap ≤ r.index + 1 then 0 else r.index + 1) + cap - 1 - (k + 1)) % cap = (r.index + cap - 1 - k) % cap := by
    split
    · rw [show 0 + cap - 1 - (k + 1) = r.index - 1 - k by omega, show r.index + cap - 1 - k = r.index - 1 - k + cap by omega,
        Nat.add_mod_right]
    · congr 1
      omega
  have hne : (r.index + cap - 1 - k) % cap ≠ r.index := by
    intro heq
    by_cases hlow : k < r.index
    · rw [show r.index + cap - 1 - k = r.index - 1 - k + cap by omega, Nat.add_mod_right,
        Nat.mod_eq_of_lt (by omega)] at heq
      omega
    · rw [Nat.mod_eq_of_lt (by omega)] at heq
      omega
  simp only [back, push, hpos, Function.update_of_ne hne]

/-- A push keeps the most recent items, and adds one. -/
theorem recent_push (h : Sound cap r) (x : α) : (r.push cap x).recent cap <:+ r.recent cap ++ [x] := by
  obtain ⟨hlt, hle, hsize⟩ := h
  have hheld : (r.push cap x).held cap ≤ r.held cap + 1 := by
    simp only [held, push]
    omega
  have hcap : (r.push cap x).held cap ≤ cap := Nat.min_le_right _ _
  have hback : ∀ k ∈ List.range ((r.push cap x).held cap),
      (r.push cap x).back cap k = if k = 0 then x else r.back cap (k - 1) := by
    intro k hk
    rw [List.mem_range] at hk
    cases k with
    | zero => exact back_push_zero hlt x
    | succ k => exact back_push_succ hlt x (by omega)
  rw [← List.reverse_prefix, List.reverse_append, List.reverse_singleton]
  simp only [recent, List.reverse_reverse, List.singleton_append]
  rw [List.map_congr_left hback]
  have hwhole : x :: (List.range (r.held cap)).map (r.back cap) =
      (List.range (r.held cap + 1)).map fun k => if k = 0 then x else r.back cap (k - 1) := by
    rw [List.range_succ_eq_map, List.map_cons, List.map_map]
    rfl
  obtain ⟨d, hd⟩ := Nat.exists_eq_add_of_le hheld
  rw [hwhole, hd, List.range_add, List.map_append]
  exact List.prefix_append _ _

def pushAll (cap : ℕ) (r : Ring α) (xs : List α) : Ring α := xs.foldl (push cap) r

theorem pushAll_append_singleton (r : Ring α) (xs : List α) (x : α) :
    r.pushAll cap (xs ++ [x]) = (r.pushAll cap xs).push cap x := by
  simp [pushAll]

theorem Sound.pushAll (h : Sound cap r) (xs : List α) : Sound cap (r.pushAll cap xs) := by
  induction xs using List.reverseRecOn with
  | nil => exact h
  | append_singleton xs x ih =>
    rw [pushAll_append_singleton]
    exact ih.push x

/-- Any number of pushes leaves the most recent of all items. -/
theorem recent_pushAll (h : Sound cap r) (xs : List α) : (r.pushAll cap xs).recent cap <:+ r.recent cap ++ xs := by
  induction xs using List.reverseRecOn with
  | nil => simp [pushAll]
  | append_singleton xs x ih =>
    rw [pushAll_append_singleton, ← List.append_assoc]
    obtain ⟨front, hfront⟩ := ih
    refine (recent_push (h.pushAll xs) x).trans ⟨front, ?_⟩
    rw [← List.append_assoc, hfront]

end Ring

end RCar
