import Mathlib

/-! A stream of items that is sent in packets: what is appended goes out as a packet when it fills one, or when the
sender says that the packet ends there. With the rule for what is waited for: a measure that falls again and again
reaches zero. -/

namespace RCar

/-- The items of the packet that is being filled, and the packets that were sent. -/
structure Packetizer (α : Type) where
  pending : List α
  sent : List (List α)

namespace Packetizer

variable {α : Type}

/-- An item is appended; a full packet goes out. -/
def append (size : ℕ) (p : Packetizer α) (x : α) : Packetizer α :=
  if p.pending.length + 1 = size then ⟨[], p.sent ++ [p.pending ++ [x]]⟩ else { p with pending := p.pending ++ [x] }

def appendAll (size : ℕ) (p : Packetizer α) (l : List α) : Packetizer α := l.foldl (append size) p

/-- The packet ends here. -/
def flush (p : Packetizer α) : Packetizer α := ⟨[], p.sent ++ [p.pending]⟩

variable {size : ℕ} {p : Packetizer α} {x : α} {l : List α}

@[simp] theorem appendAll_nil : p.appendAll size [] = p := rfl

@[simp] theorem appendAll_append (l k : List α) :
    p.appendAll size (l ++ k) = (p.appendAll size l).appendAll size k := List.foldl_append

theorem appendAll_short (h : p.pending.length + l.length < size) :
    p.appendAll size l = { p with pending := p.pending ++ l } := by
  induction l generalizing p with
  | nil => simp
  | cons x l ih =>
    rw [List.length_cons] at h
    have hroom : p.append size x = { p with pending := p.pending ++ [x] } := by
      unfold append
      rw [if_neg (by omega)]
    change (p.append size x).appendAll size l = _
    rw [hroom, ih (by simp; omega)]
    simp

/-- What fills a packet sends it. -/
theorem appendAll_full (hl : l ≠ []) (h : p.pending.length + l.length = size) :
    p.appendAll size l = ⟨[], p.sent ++ [p.pending ++ l]⟩ := by
  obtain ⟨k, x, rfl⟩ := (List.eq_nil_or_concat' l).resolve_left hl
  rw [List.length_append, List.length_singleton] at h
  have hk : p.appendAll size k = { p with pending := p.pending ++ k } := appendAll_short (by omega)
  rw [appendAll_append, hk]
  change append size _ x = _
  unfold append
  rw [if_pos (by rw [List.length_append]; omega), List.append_assoc]

end Packetizer

/-- Packets that carry a stream: they are full but for the last one, and whether this is short. -/
structure Carries {α : Type} (size : ℕ) (short : Prop) (l : List α) (packets : List (List α)) : Prop where
  flatten : packets.flatten = l
  ne_nil : packets ≠ []
  full : ∀ p ∈ packets.dropLast, p.length = size
  last_le : ∀ p ∈ packets.getLast?, p.length ≤ size
  last_short : ∀ p ∈ packets.getLast?, p.length < size ↔ short

theorem Carries.concat {α : Type} {size : ℕ} {short : Prop} {packets : List (List α)} {p : List α}
    (hfull : ∀ q ∈ packets, q.length = size) (hle : p.length ≤ size) (hshort : p.length < size ↔ short) :
    Carries size short (packets.flatten ++ p) (packets ++ [p]) where
  flatten := by simp
  ne_nil := by simp
  full := by simpa using hfull
  last_le := by simpa using hle
  last_short := by simpa using hshort

/-- A measure that never rises, and falls in every turn before it is zero, is zero after enough turns. -/
theorem exists_zero (μ : ℕ → ℕ) {turn : ℕ → Prop} (hle : ∀ n, μ (n + 1) ≤ μ n)
    (hlt : ∀ n, turn n → μ n ≠ 0 → μ (n + 1) < μ n) (hturn : ∀ n, ∃ m ≥ n, turn m) : ∃ n, μ n = 0 := by
  by_contra hpos
  have hfall : ∀ k, ∃ n, μ n + k ≤ μ 0 := by
    intro k
    induction k with
    | zero => exact ⟨0, le_rfl⟩
    | succ k ih =>
      obtain ⟨n, hn⟩ := ih
      obtain ⟨m, hm, hm'⟩ := hturn n
      have hmn := antitone_nat_of_succ_le hle hm
      have hdrop := hlt m hm' fun h => hpos ⟨m, h⟩
      exact ⟨m + 1, by omega⟩
  obtain ⟨n, hn⟩ := hfall (μ 0 + 1)
  omega

end RCar
