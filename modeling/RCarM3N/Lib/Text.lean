import Mathlib

/-! Numbers as text in bytes, text that is cut to a buffer, and text taken apart at a delimiter. -/

namespace RCar

/-- The digits of a number, small letters above nine. -/
def numberText (base n : ℕ) : List UInt8 := (Nat.toDigits base n).map fun c => c.toNat.toUInt8

@[simp] theorem length_numberText (base n : ℕ) : (numberText base n).length = (Nat.toDigits base n).length := by
  simp [numberText]

theorem length_numberText_le_iff {base n k : ℕ} (hb : 1 < base) (hk : 0 < k) :
    (numberText base n).length ≤ k ↔ n < base ^ k := by
  rw [length_numberText, Nat.length_toDigits_le_iff hb hk]

theorem length_numberText_pos (base n : ℕ) : 0 < (numberText base n).length := by
  rw [length_numberText]
  exact Nat.length_toDigits_pos

/-- What `snprintf` leaves of a text in a buffer. -/
def snprintf (size : ℕ) (text : List UInt8) : List UInt8 := text.take (size - 1)

theorem snprintf_eq_self_iff {size : ℕ} {text : List UInt8} : snprintf size text = text ↔ text.length ≤ size - 1 := by
  rw [snprintf, List.take_eq_self_iff]

/-- A text that fits stands at the start of whatever is left of it and more. -/
theorem prefix_snprintf_append_iff {size : ℕ} {text rest : List UInt8} :
    text <+: snprintf size (text ++ rest) ↔ text.length ≤ size - 1 := by
  constructor
  · intro h
    have hlen := h.length_le
    rw [snprintf, List.length_take] at hlen
    omega
  · intro h
    rw [snprintf, List.take_append, List.take_of_length_le h]
    exact List.prefix_append _ _

/-! ## Tokens -/

/-- The runs between delimiters, with a run that has already begun. -/
def tokensFrom (delim : UInt8) : List UInt8 → List UInt8 → List (List UInt8)
  | [], run => if run = [] then [] else [run]
  | c :: s, run =>
    if c = delim then (if run = [] then [] else [run]) ++ tokensFrom delim s []
    else tokensFrom delim s (run ++ [c])

/-- What repeated calls of `strtok` return. -/
def tokens (delim : UInt8) (s : List UInt8) : List (List UInt8) := tokensFrom delim s []

/-- A text that can be a token. -/
structure IsToken (delim : UInt8) (t : List UInt8) : Prop where
  ne_nil : t ≠ []
  notMem : delim ∉ t

variable {delim : UInt8}

theorem tokensFrom_isToken {s run : List UInt8} (hrun : delim ∉ run) : ∀ t ∈ tokensFrom delim s run, IsToken delim t := by
  have hdone : ∀ run, delim ∉ run → ∀ t ∈ (if run = [] then [] else [run] : List (List UInt8)), IsToken delim t := by
    intro run hrun t ht
    split at ht
    · simp at ht
    · rename_i hne
      rw [List.mem_singleton.mp ht]
      exact ⟨hne, hrun⟩
  induction s generalizing run with
  | nil => exact hdone run hrun
  | cons c s ih =>
    intro t ht
    rw [tokensFrom] at ht
    split at ht
    · rcases List.mem_append.mp ht with ht | ht
      · exact hdone run hrun t ht
      · exact ih (by simp) t ht
    · rename_i hc
      refine ih ?_ t ht
      simp only [List.mem_append, List.mem_singleton, not_or]
      exact ⟨hrun, fun h => hc h.symm⟩

theorem isToken_of_mem {s t : List UInt8} (h : t ∈ tokens delim s) : IsToken delim t :=
  tokensFrom_isToken (by simp) t h

theorem tokensFrom_append {t s run : List UInt8} (h : delim ∉ t) :
    tokensFrom delim (t ++ s) run = tokensFrom delim s (run ++ t) := by
  induction t generalizing run with
  | nil => simp
  | cons c t ih =>
    obtain ⟨hc, ht⟩ := not_or.mp (mt List.mem_cons.mpr h)
    rw [List.cons_append, tokensFrom, if_neg (Ne.symm hc), ih ht, List.append_assoc]
    rfl

/-- Tokens that follow a delimiter each. -/
def joinTokens (delim : UInt8) (ts : List (List UInt8)) : List UInt8 := ts.flatMap fun t => delim :: t

theorem tokensFrom_joinTokens {ts : List (List UInt8)} {run : List UInt8} (h : ∀ t ∈ ts, IsToken delim t) :
    tokensFrom delim (joinTokens delim ts) run = (if run = [] then [] else [run]) ++ ts := by
  induction ts generalizing run with
  | nil => simp [joinTokens, tokensFrom]
  | cons t ts ih =>
    obtain ⟨hne, hmem⟩ := h t List.mem_cons_self
    rw [joinTokens, List.flatMap_cons, List.cons_append, tokensFrom, if_pos rfl, tokensFrom_append hmem, List.nil_append]
    change _ ++ tokensFrom delim (joinTokens delim ts) t = _
    rw [ih fun u hu => h u (List.mem_cons_of_mem _ hu), if_neg hne]
    rfl

/-- What was joined is taken apart again. -/
theorem tokens_joinTokens {ts : List (List UInt8)} (h : ∀ t ∈ ts, IsToken delim t) :
    tokens delim (joinTokens delim ts) = ts :=
  tokensFrom_joinTokens h

theorem tokens_cons_delim (s : List UInt8) : tokens delim (delim :: s) = tokens delim s := by
  rw [tokens, tokensFrom, if_pos rfl, if_pos rfl]
  rfl

end RCar
