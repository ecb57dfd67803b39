import RCarM3N.Model.VbMeta

/-! What `avb_validate_utf8` accepts: sequences of the right lengths, and so the encoding of every text. -/

namespace RCar.VbMeta

/-- How many continuation bytes a first byte asks for. -/
def continuations (c : UInt8) : Option ℕ :=
  if c < 0x80 then some 0 else if c < 0xC0 then none else if c < 0xE0 then some 1 else if c < 0xF0 then some 2
  else if c < 0xF8 then some 3 else none

def IsContinuation (c : UInt8) : Prop := 0x80 ≤ c ∧ c < 0xC0

instance (c : UInt8) : Decidable (IsContinuation c) := inferInstanceAs (Decidable (_ ∧ _))

/-- First bytes, each with as many continuation bytes as it asks for. -/
inductive Encoded : List UInt8 → Prop
  | nil : Encoded []
  | cons (c : UInt8) (cc rest : List UInt8) (hlead : continuations c = some cc.length) (hcc : ∀ b ∈ cc, IsContinuation b)
      (hrest : Encoded rest) : Encoded (c :: (cc ++ rest))

theorem forall_byte {P : UInt8 → Prop} (h : ∀ n < 256, P (UInt8.ofNat n)) (c : UInt8) : P c := by
  have := h c.toNat c.toNat_lt
  rwa [UInt8.ofNat_toNat] at this

set_option maxRecDepth 8000 in
theorem utf8From_lead (c : UInt8) (data : List UInt8) :
    utf8From 0 (c :: data) = (continuations c).elim false fun n => utf8From n data := by
  have hmask := forall_byte (P := fun c => continuations c =
    if c < 0x80 then some 0
    else if c &&& (0x80 ||| 0x40 ||| 0x20) = 0x80 ||| 0x40 then some 1
    else if c &&& (0x80 ||| 0x40 ||| 0x20 ||| 0x10) = 0x80 ||| 0x40 ||| 0x20 then some 2
    else if c &&& (0x80 ||| 0x40 ||| 0x20 ||| 0x10 ||| 0x08) = 0x80 ||| 0x40 ||| 0x20 ||| 0x10 then some 3
    else none) (by decide) c
  rw [hmask, utf8From]
  split_ifs <;> rfl

set_option maxRecDepth 8000 in
theorem utf8From_continuation (n : ℕ) (c : UInt8) (data : List UInt8) :
    utf8From (n + 1) (c :: data) = true ↔ IsContinuation c ∧ utf8From n data = true := by
  have hmask := forall_byte (P := fun c => c &&& (0x80 ||| 0x40) = 0x80 ↔ IsContinuation c) (by decide) c
  rw [utf8From, ← hmask]
  split_ifs with h <;> simp [h]

/-- The continuation bytes that are still to come, and then a text. -/
theorem utf8From_iff (n : ℕ) (data : List UInt8) : utf8From n data = true ↔
    ∃ cc rest, data = cc ++ rest ∧ cc.length = n ∧ (∀ b ∈ cc, IsContinuation b) ∧ utf8From 0 rest = true := by
  induction n generalizing data with
  | zero =>
    refine ⟨fun h => ⟨[], data, rfl, rfl, by simp, h⟩, fun h => ?_⟩
    obtain ⟨cc, rest, rfl, hlen, -, h⟩ := h
    rw [List.length_eq_zero_iff] at hlen
    subst hlen
    exact h
  | succ n ih =>
    cases data with
    | nil =>
      refine ⟨fun h => by simp [utf8From] at h, fun h => ?_⟩
      obtain ⟨cc, rest, hnil, hlen, -⟩ := h
      rw [(List.append_eq_nil_iff.mp hnil.symm).1] at hlen
      cases hlen
    | cons c data =>
      rw [utf8From_continuation, ih]
      constructor
      · intro h
        obtain ⟨hc, cc, rest, rfl, hlen, hcc, h⟩ := h
        refine ⟨c :: cc, rest, rfl, congrArg (· + 1) hlen, fun b hb => ?_, h⟩
        rcases List.mem_cons.mp hb with rfl | hb
        · exact hc
        · exact hcc b hb
      · intro h
        obtain ⟨cc, rest, heq, hlen, hcc, h⟩ := h
        obtain ⟨c', cc, rfl⟩ := List.exists_cons_of_length_eq_add_one hlen
        rw [List.cons_append, List.cons.injEq] at heq
        obtain ⟨rfl, rfl⟩ := heq
        exact ⟨hcc _ (by simp), cc, rest, rfl, by simpa using hlen, fun b hb => hcc b (by simp [hb]), h⟩

theorem encoded_of_validate (data : List UInt8) (h : utf8From 0 data = true) : Encoded data := by
  induction hn : data.length using Nat.strong_induction_on generalizing data with
  | _ n ih =>
    cases data with
    | nil => exact .nil
    | cons c data =>
      rw [utf8From_lead] at h
      rcases hlead : continuations c with - | k
      · rw [hlead] at h
        cases h
      · rw [hlead] at h
        obtain ⟨cc, rest, rfl, rfl, hcc, h⟩ := (utf8From_iff k data).mp h
        refine .cons c cc rest hlead hcc (ih rest.length ?_ rest h rfl)
        rw [← hn, List.length_cons, List.length_append]
        omega

theorem Encoded.validate {data : List UInt8} (h : Encoded data) : utf8From 0 data = true := by
  induction h with
  | nil => rfl
  | cons c cc rest hlead hcc hrest ih =>
    rw [utf8From_lead, hlead]
    exact (utf8From_iff _ _).mpr ⟨cc, rest, rfl, rfl, hcc, ih⟩

/-! ## Texts -/

theorem isContinuation_low (v : ℕ) : IsContinuation (UInt8.ofNat (v % 0x40 + 0x80)) := by
  have h : ∀ x < 0x40, IsContinuation (UInt8.ofNat (x + 0x80)) := by decide
  exact h _ (Nat.mod_lt _ (by decide))

theorem encoded_char (c : Char) {rest : List UInt8} (h : Encoded rest) : Encoded (String.utf8EncodeChar c ++ rest) := by
  have h1 : ∀ v < 0x80, continuations (UInt8.ofNat v) = some 0 := by decide
  have h2 : ∀ x < 0x20, continuations (UInt8.ofNat (x + 0xc0)) = some 1 := by decide
  have h3 : ∀ x < 0x10, continuations (UInt8.ofNat (x + 0xe0)) = some 2 := by decide
  have h4 : ∀ x < 0x08, continuations (UInt8.ofNat (x + 0xf0)) = some 3 := by decide
  unfold String.utf8EncodeChar
  simp only
  split_ifs with hv
  · exact .cons _ [] rest (h1 _ (Nat.lt_succ_of_le hv)) (by simp) h
  · exact .cons _ [_] rest (h2 _ (Nat.mod_lt _ (by decide))) (List.forall_mem_singleton.mpr (isContinuation_low _)) h
  · refine .cons _ [_, _] rest (h3 _ (Nat.mod_lt _ (by decide))) (List.forall_mem_cons.mpr ⟨isContinuation_low _, ?_⟩) h
    exact List.forall_mem_singleton.mpr (isContinuation_low _)
  · refine .cons _ [_, _, _] rest (h4 _ (Nat.mod_lt _ (by decide))) (List.forall_mem_cons.mpr ⟨isContinuation_low _, ?_⟩) h
    exact List.forall_mem_cons.mpr ⟨isContinuation_low _, List.forall_mem_singleton.mpr (isContinuation_low _)⟩

/-- Exactly the sequences of the right lengths are accepted. The encoding of every text is among them, and so are overlong
forms and surrogates. -/
theorem avbValidateUtf8_spec (data : List UInt8) (chars : List Char) :
    (avbValidateUtf8 data = true ↔ Encoded data) ∧ avbValidateUtf8 (chars.flatMap String.utf8EncodeChar) = true := by
  refine ⟨⟨encoded_of_validate data, Encoded.validate⟩, Encoded.validate ?_⟩
  induction chars with
  | nil => exact .nil
  | cons c chars ih =>
    rw [List.flatMap_cons]
    exact encoded_char c ih

end RCar.VbMeta
