import RCarM3N.Model.Srec

/-! Which buffers hold a record, and which end before `srec_decode` is done with them. -/

namespace RCar.Srec

variable {l cs rest bs : List UInt8} {n m : ℕ} {r : Record}

/-! ## Digits -/

/-- The digits of the bytes `bs`. -/
inductive HexOf : List UInt8 → List UInt8 → Prop
  | nil : HexOf [] []
  | cons {c d i j : UInt8} {cs bs : List UInt8} (hc : hex1Bin c = some i) (hd : hex1Bin d = some j)
      (h : HexOf cs bs) : HexOf (c :: d :: cs) ((i <<< 4 + j) :: bs)

/-- The buffer ends in digits before `n` bytes are complete. -/
def Short (n : ℕ) (l : List UInt8) : Prop := l.length < 2 * n ∧ ∀ c ∈ l, (hex1Bin c).isSome = true

theorem HexOf.length_eq (h : HexOf cs bs) : cs.length = 2 * bs.length := by
  induction h with
  | nil => rfl
  | cons hc hd h ih =>
    rw [List.length_cons, List.length_cons, List.length_cons, ih]
    omega

theorem HexOf.append {cs' bs' : List UInt8} (h : HexOf cs bs) (h' : HexOf cs' bs') :
    HexOf (cs ++ cs') (bs ++ bs') := by
  induction h with
  | nil => exact h'
  | cons hc hd _ ih => exact .cons hc hd ih

theorem hex2Bin_cons {c d i j : UInt8} (hc : hex1Bin c = some i) (hd : hex1Bin d = some j)
    (rest : List UInt8) : hex2Bin (c :: d :: rest) = .ok (i <<< 4 + j, rest) := by
  simp only [hex2Bin, hc, hd]

theorem hex2Bin_eq_ok {v : UInt8} :
    hex2Bin l = .ok (v, rest) ↔ ∃ cs, HexOf cs [v] ∧ l = cs ++ rest := by
  constructor
  · intro h
    unfold hex2Bin at h
    split at h
    · cases h
    · rename_i c input
      split at h
      · cases h
      · rename_i i hc
        split at h
        · cases h
        · rename_i d input
          split at h
          · cases h
          · rename_i j hd
            cases h
            exact ⟨[c, d], .cons hc hd .nil, rfl⟩
  · rintro ⟨cs, h, rfl⟩
    cases h with
    | cons hc hd h =>
      cases h
      exact hex2Bin_cons hc hd rest

theorem hex2Bin_eq_outside : hex2Bin l = .error .outside ↔ Short 1 l := by
  unfold Short
  rcases l with _ | ⟨c, _ | ⟨d, input⟩⟩
  · simp [hex2Bin]
  · cases hc : hex1Bin c <;> simp [hex2Bin, hc]
  · cases hc : hex1Bin c
    · simp [hex2Bin, hc]
    · cases hd : hex1Bin d <;> simp [hex2Bin, hc, hd]

/-- Digits are no error. -/
theorem hex2Bin_ne_error (h : ∀ c ∈ l, (hex1Bin c).isSome = true) (e : SrecError) :
    hex2Bin l ≠ .error (.error e) := by
  rcases l with _ | ⟨c, _ | ⟨d, input⟩⟩
  · simp [hex2Bin]
  · obtain ⟨i, hc⟩ := Option.isSome_iff_exists.mp (h c (by simp))
    simp [hex2Bin, hc]
  · obtain ⟨i, hc⟩ := Option.isSome_iff_exists.mp (h c (by simp))
    obtain ⟨j, hd⟩ := Option.isSome_iff_exists.mp (h d (by simp))
    simp [hex2Bin, hc, hd]

theorem hexBytes_succ (n : ℕ) (l : List UInt8) :
    hexBytes (n + 1) l = (hex2Bin l >>= fun p => hexBytes n p.2 >>= fun q => pure (p.1 :: q.1, q.2)) :=
  rfl

theorem hexBytes_eq_ok :
    hexBytes n l = .ok (bs, rest) ↔ bs.length = n ∧ ∃ cs, HexOf cs bs ∧ l = cs ++ rest := by
  induction n generalizing l bs with
  | zero =>
    constructor
    · intro h
      cases h
      exact ⟨rfl, [], .nil, rfl⟩
    · rintro ⟨hlen, cs, h, rfl⟩
      obtain rfl := List.eq_nil_of_length_eq_zero hlen
      cases h
      rfl
  | succ n ih =>
    rw [hexBytes_succ]
    constructor
    · intro h
      cases h2 : hex2Bin l with
      | error e =>
        rw [h2] at h
        cases h
      | ok p =>
        obtain ⟨v, l'⟩ := p
        rw [h2] at h
        cases hn : hexBytes n l' with
        | error e =>
          simp only [bind, Except.bind, hn] at h
          cases h
        | ok q =>
          obtain ⟨vs, rest'⟩ := q
          simp only [bind, Except.bind, hn] at h
          cases h
          obtain ⟨cs, hv, rfl⟩ := hex2Bin_eq_ok.mp h2
          obtain ⟨hlen, cs', hvs, rfl⟩ := ih.mp hn
          exact ⟨congrArg (· + 1) hlen, cs ++ cs', hv.append hvs, (List.append_assoc ..).symm⟩
    · rintro ⟨hlen, cs, h, rfl⟩
      cases h with
      | nil => cases hlen
      | @cons c d i j cs bs hc hd h =>
        have h2 : hex2Bin (c :: d :: cs ++ rest) = .ok (i <<< 4 + j, cs ++ rest) := hex2Bin_cons hc hd _
        have hn := ih.mpr ⟨Nat.succ.inj hlen, cs, h, rfl⟩
        rw [h2]
        simp only [bind, Except.bind, hn]
        rfl

theorem hexBytes_of_hexOf (h : HexOf cs bs) (rest : List UInt8) :
    hexBytes bs.length (cs ++ rest) = .ok (bs, rest) :=
  hexBytes_eq_ok.mpr ⟨rfl, cs, h, rfl⟩

theorem HexOf.digits (h : HexOf cs bs) : ∀ c ∈ cs, (hex1Bin c).isSome = true := by
  induction h with
  | nil => exact fun _ h => absurd h List.not_mem_nil
  | cons hc hd _ ih =>
    refine List.forall_mem_cons.mpr ⟨by rw [hc]; rfl, List.forall_mem_cons.mpr ⟨by rw [hd]; rfl, ih⟩⟩

theorem short_append (h : HexOf cs bs) (n : ℕ) (l : List UInt8) :
    Short (bs.length + n) (cs ++ l) ↔ Short n l := by
  have hlen := h.length_eq
  rw [Short, Short, List.length_append, hlen, List.forall_mem_append]
  constructor
  · rintro ⟨h1, -, h2⟩
    exact ⟨by omega, h2⟩
  · rintro ⟨h1, h2⟩
    exact ⟨by omega, h.digits, h2⟩

theorem Short.mono (h : Short n l) (hn : n ≤ m) : Short m l := ⟨by have := h.1; omega, h.2⟩

theorem hexBytes_eq_outside : hexBytes n l = .error .outside ↔ Short n l := by
  induction n generalizing l with
  | zero => simp [hexBytes, Short]
  | succ n ih =>
    rw [hexBytes_succ]
    cases h2 : hex2Bin l with
    | error e =>
      cases e with
      | outside =>
        obtain ⟨hlen, hdigits⟩ := hex2Bin_eq_outside.mp h2
        simp only [bind, Except.bind, true_iff]
        exact ⟨by omega, hdigits⟩
      | error e =>
        simp only [bind, Except.bind, Except.error.injEq, reduceCtorEq, false_iff]
        rintro ⟨-, hdigits⟩
        exact hex2Bin_ne_error hdigits e h2
    | ok p =>
      obtain ⟨v, l'⟩ := p
      obtain ⟨cs, hv, rfl⟩ := hex2Bin_eq_ok.mp h2
      have hrest : hexBytes n l' = .error .outside ↔
          (Except.ok (v, l') >>= fun p => hexBytes n p.2 >>= fun q => pure (p.1 :: q.1, q.2)) =
            (.error .outside : Except Stop (List UInt8 × List UInt8)) := by
        cases hn : hexBytes n l' with
        | error e => simp [bind, Except.bind, hn]
        | ok q => simp [bind, Except.bind, hn, pure, Except.pure]
      rw [← hrest, ih, Nat.add_comm n 1]
      exact (short_append hv n l').symm

theorem hexBytes_ne_error (h : ∀ c ∈ l, (hex1Bin c).isSome = true) (n : ℕ) (e : SrecError) :
    hexBytes n l ≠ .error (.error e) := by
  induction n generalizing l with
  | zero => exact fun h => nomatch h
  | succ n ih =>
    rw [hexBytes_succ]
    cases h2 : hex2Bin l with
    | error s =>
      intro hs
      cases hs
      exact hex2Bin_ne_error h e h2
    | ok p =>
      obtain ⟨v, l'⟩ := p
      obtain ⟨cs, hv, rfl⟩ := hex2Bin_eq_ok.mp h2
      have hl' := ih fun c hc => h c (List.mem_append_right _ hc)
      cases hn : hexBytes n l' with
      | error s =>
        simp only [bind, Except.bind, hn]
        intro hs
        cases hs
        exact hl' hn
      | ok q =>
        simp only [bind, Except.bind, hn]
        exact fun h => nomatch h

theorem HexOf.split {bs' : List UInt8} (h : HexOf cs (bs ++ bs')) :
    ∃ cs1 cs2, cs = cs1 ++ cs2 ∧ HexOf cs1 bs ∧ HexOf cs2 bs' := by
  induction bs generalizing cs with
  | nil => exact ⟨[], cs, rfl, .nil, h⟩
  | cons b bs ih =>
    cases h with
    | cons hc hd h =>
      obtain ⟨cs1, cs2, rfl, h1, h2⟩ := ih h
      exact ⟨_, cs2, rfl, .cons hc hd h1, h2⟩

/-! ## Records -/

/-- The number of bytes from the address on. -/
def fieldsLength (type : SrecType) (width : ℕ) (count : UInt8) : ℕ :=
  width + ((dataCount type width count).toNat + 1)

theorem decodeFields_outside (type : SrecType) (width : ℕ) (count : UInt8) :
    decodeFields type width count l = .error .outside ↔ Short (fieldsLength type width count) l := by
  unfold decodeFields fieldsLength
  cases hf : hexBytes width l with
  | error e =>
    cases e with
    | outside =>
      simp only [bind, Except.bind, true_iff]
      exact (hexBytes_eq_outside.mp hf).mono (by omega)
    | error e =>
      simp only [bind, Except.bind, Except.error.injEq, reduceCtorEq, false_iff]
      exact fun h => hexBytes_ne_error h.2 _ e hf
  | ok p =>
    obtain ⟨field, l1⟩ := p
    obtain ⟨rfl, cs, hfield, rfl⟩ := hexBytes_eq_ok.mp hf
    rw [short_append hfield]
    simp only [bind, Except.bind]
    cases hd : hexBytes (dataCount type field.length count).toNat l1 with
    | error e =>
      cases e with
      | outside =>
        simp only [true_iff]
        exact (hexBytes_eq_outside.mp hd).mono (by omega)
      | error e =>
        simp only [Except.error.injEq, reduceCtorEq, false_iff]
        exact fun h => hexBytes_ne_error h.2 _ e hd
    | ok p =>
      obtain ⟨data, l2⟩ := p
      obtain ⟨hlen, cs', hdata, rfl⟩ := hexBytes_eq_ok.mp hd
      rw [← hlen, short_append hdata, ← hex2Bin_eq_outside]
      cases hs : hex2Bin l2 with
      | error e => simp [hs]
      | ok p =>
        simp only [hs, reduceCtorEq, iff_false]
        split
        · intro h
          cases h
        · intro h
          cases h

/-- The checksum of a record. -/
def checksum (count : UInt8) (field data : List UInt8) : UInt8 := ~~~(count + field.sum + data.sum)

theorem decodeFields_ok (type : SrecType) (width : ℕ) (count : UInt8) :
    decodeFields type width count l = .ok r ↔
      ∃ field data cs rest, l = cs ++ rest ∧
        HexOf cs (field ++ data ++ [checksum count field data]) ∧ field.length = width ∧
          data.length = (dataCount type width count).toNat ∧
            r = ⟨type, dataCount type width count, address field, data⟩ := by
  constructor
  · intro h
    unfold decodeFields at h
    cases hf : hexBytes width l with
    | error e =>
      rw [hf] at h
      cases h
    | ok p =>
      obtain ⟨field, l1⟩ := p
      obtain ⟨hwidth, cs, hfield, rfl⟩ := hexBytes_eq_ok.mp hf
      simp only [hf, bind, Except.bind] at h
      cases hd : hexBytes (dataCount type width count).toNat l1 with
      | error e =>
        rw [hd] at h
        cases h
      | ok p =>
        obtain ⟨data, l2⟩ := p
        obtain ⟨hlen, cs', hdata, rfl⟩ := hexBytes_eq_ok.mp hd
        simp only [hd] at h
        cases hs : hex2Bin l2 with
        | error e =>
          rw [hs] at h
          cases h
        | ok p =>
          obtain ⟨sum, rest⟩ := p
          obtain ⟨cs'', hsum, rfl⟩ := hex2Bin_eq_ok.mp hs
          simp only [hs] at h
          split at h
          · rename_i hv
            subst hv
            cases h
            refine ⟨field, data, cs ++ cs' ++ cs'', rest, ?_, (hfield.append hdata).append hsum,
              hwidth, hlen, rfl⟩
            simp only [List.append_assoc]
          · cases h
  · rintro ⟨field, data, cs, rest, rfl, hcs, hwidth, hlen, rfl⟩
    obtain ⟨cs1, cs2, rfl, hcs, hsum⟩ := hcs.split
    obtain ⟨cs3, cs4, rfl, hfield, hdata⟩ := hcs.split
    have hf := hexBytes_of_hexOf hfield (cs4 ++ (cs2 ++ rest))
    have hd := hexBytes_of_hexOf hdata (cs2 ++ rest)
    have hs : hex2Bin (cs2 ++ rest) = .ok (checksum count field data, rest) :=
      hex2Bin_eq_ok.mpr ⟨cs2, hsum, rfl⟩
    rw [hwidth] at hf
    rw [hlen] at hd
    unfold decodeFields
    rw [List.append_assoc, List.append_assoc]
    simp only [hf, hd, hs, bind, Except.bind, checksum, if_true]
    rfl

/-- Text before a record: neither an `S` nor the end. -/
def Plain (pre : List UInt8) : Prop := ∀ c ∈ pre, c ≠ 0 ∧ c ≠ 0x53

/-- The buffer ends before the record does. -/
inductive Cut : List UInt8 → Prop
  | noStart {l : List UInt8} (h : Plain l) : Cut l
  | noType {pre : List UInt8} (h : Plain pre) : Cut (pre ++ [0x53])
  | noCount {pre s : List UInt8} {v : UInt8} (h : Plain pre) (hv : v ≠ 0) (hs : Short 1 s) :
      Cut (pre ++ 0x53 :: v :: s)
  | fields {pre cs s : List UInt8} {v count : UInt8} {type : SrecType} {width : ℕ} (h : Plain pre)
      (hv : recordType v = some (type, width)) (hcount : HexOf cs [count])
      (hs : Short (fieldsLength type width count) s) : Cut (pre ++ 0x53 :: v :: (cs ++ s))

/-- The text after its first `S` is a record with the right checksum. -/
inductive IsRecord : List UInt8 → Record → Prop
  | mk {pre cs rest field data : List UInt8} {v count : UInt8} {type : SrecType} {width : ℕ}
      (h : Plain pre) (hv : recordType v = some (type, width))
      (hcs : HexOf cs (count :: (field ++ data ++ [checksum count field data])))
      (hwidth : field.length = width) (hlen : data.length = (dataCount type width count).toNat) :
      IsRecord (pre ++ 0x53 :: v :: (cs ++ rest))
        ⟨type, dataCount type width count, address field, data⟩

section Skip

variable {pre : List UInt8} {v : UInt8}

theorem skipToS_append (h : Plain pre) (l : List UInt8) : skipToS (pre ++ l) = skipToS l := by
  induction pre with
  | nil => rfl
  | cons c pre ih =>
    obtain ⟨⟨h0, hS⟩, h⟩ := List.forall_mem_cons.mp h
    rw [List.cons_append, skipToS, if_neg h0, if_neg hS]
    exact ih h

theorem plain_or (l : List UInt8) :
    Plain l ∨ ∃ pre rest, Plain pre ∧ (l = pre ++ 0 :: rest ∨ l = pre ++ 0x53 :: rest) := by
  induction l with
  | nil => exact .inl fun c hc => absurd hc List.not_mem_nil
  | cons c l ih =>
    have hnil : Plain [] := fun c hc => absurd hc List.not_mem_nil
    by_cases h0 : c = 0
    · exact .inr ⟨[], l, hnil, .inl (by rw [h0]; rfl)⟩
    · by_cases hS : c = 0x53
      · exact .inr ⟨[], l, hnil, .inr (by rw [hS]; rfl)⟩
      · rcases ih with h | ⟨pre, rest, h, hl⟩
        · exact .inl (List.forall_mem_cons.mpr ⟨⟨h0, hS⟩, h⟩)
        · refine .inr ⟨c :: pre, rest, List.forall_mem_cons.mpr ⟨⟨h0, hS⟩, h⟩, ?_⟩
          rcases hl with rfl | rfl
          · exact .inl rfl
          · exact .inr rfl

theorem srecDecode_plain (h : Plain l) : srecDecode l = .error .outside := by
  have hskip := skipToS_append h []
  rw [List.append_nil] at hskip
  simp only [srecDecode, hskip]
  rfl

theorem srecDecode_nul (h : Plain pre) (l : List UInt8) :
    srecDecode (pre ++ 0 :: l) = .ok ⟨.empty, 0, 0, []⟩ := by
  simp only [srecDecode, skipToS_append h]
  rfl

theorem srecDecode_noType (h : Plain pre) : srecDecode (pre ++ [0x53]) = .error .outside := by
  simp only [srecDecode, skipToS_append h]
  rfl

theorem srecDecode_S_nul (h : Plain pre) (l : List UInt8) :
    srecDecode (pre ++ 0x53 :: 0 :: l) = .ok ⟨.empty, 0, 0, []⟩ := by
  simp only [srecDecode, skipToS_append h]
  rfl

theorem srecDecode_S (h : Plain pre) (hv : v ≠ 0) (l : List UInt8) :
    srecDecode (pre ++ 0x53 :: v :: l) = hex2Bin l >>= fun p =>
      match recordType v with
      | none => throw (.error .badType)
      | some (type, width) => decodeFields type width p.1 p.2 := by
  have hskip : skipToS (0x53 :: v :: l) = .ok (v :: l) := rfl
  have hfields : (hex2Bin l >>= fun p => match recordType v with
      | none => throw (.error .badType)
      | some (type, width) => decodeFields type width p.1 p.2) = srecDecode (0x53 :: v :: l) := by
    unfold srecDecode
    rw [hskip]
    change _ = if v = 0 then _ else _
    exact (if_neg hv).symm
  rw [hfields, srecDecode, srecDecode, skipToS_append h]

end Skip

theorem recordType_ne {v : UInt8} {x : SrecType × ℕ} (h : recordType v = some x) :
    v ≠ 0 ∧ x.1 ≠ .empty := by
  have hv : v ≠ 0 := by
    rintro rfl
    cases h
  refine ⟨hv, ?_⟩
  unfold recordType at h
  split_ifs at h <;> cases h <;> decide

theorem srecDecode_outside : srecDecode l = .error .outside ↔ Cut l := by
  constructor
  · intro h
    rcases plain_or l with hl | ⟨pre, rest, hpre, rfl | rfl⟩
    · exact .noStart hl
    · rw [srecDecode_nul hpre] at h
      cases h
    · rcases rest with _ | ⟨v, s⟩
      · exact .noType hpre
      · by_cases hv : v = 0
        · rw [hv, srecDecode_S_nul hpre] at h
          cases h
        · rw [srecDecode_S hpre hv] at h
          cases h2 : hex2Bin s with
          | error e =>
            rw [h2] at h
            cases h
            exact .noCount hpre hv (hex2Bin_eq_outside.mp h2)
          | ok p =>
            obtain ⟨count, s'⟩ := p
            obtain ⟨cs, hcount, rfl⟩ := hex2Bin_eq_ok.mp h2
            simp only [h2, bind, Except.bind] at h
            cases ht : recordType v with
            | none =>
              rw [ht] at h
              cases h
            | some x =>
              rw [ht] at h
              exact .fields hpre ht hcount ((decodeFields_outside _ _ _).mp h)
  · intro h
    cases h with
    | noStart h => exact srecDecode_plain h
    | noType h => exact srecDecode_noType h
    | noCount h hv hs =>
      rw [srecDecode_S h hv, hex2Bin_eq_outside.mpr hs]
      rfl
    | @fields pre cs s v count type width h hv hcount hs =>
      have h2 : hex2Bin (cs ++ s) = .ok (count, s) := hex2Bin_eq_ok.mpr ⟨cs, hcount, rfl⟩
      rw [srecDecode_S h (recordType_ne hv).1]
      simp only [h2, bind, Except.bind, hv]
      exact (decodeFields_outside _ _ _).mpr hs

/-- What is accepted is a record, or the end of the text. -/
theorem srecDecode_ok (h : srecDecode l = .ok r) : r = ⟨.empty, 0, 0, []⟩ ∨ IsRecord l r := by
  rcases plain_or l with hl | ⟨pre, rest, hpre, rfl | rfl⟩
  · rw [srecDecode_plain hl] at h
    cases h
  · rw [srecDecode_nul hpre] at h
    cases h
    exact .inl rfl
  · rcases rest with _ | ⟨v, s⟩
    · rw [srecDecode_noType hpre] at h
      cases h
    · by_cases hv : v = 0
      · rw [hv, srecDecode_S_nul hpre] at h
        cases h
        exact .inl rfl
      · rw [srecDecode_S hpre hv] at h
        cases h2 : hex2Bin s with
        | error e =>
          rw [h2] at h
          cases h
        | ok p =>
          obtain ⟨count, s'⟩ := p
          obtain ⟨cs, hcount, rfl⟩ := hex2Bin_eq_ok.mp h2
          simp only [h2, bind, Except.bind] at h
          cases ht : recordType v with
          | none =>
            rw [ht] at h
            cases h
          | some x =>
            rw [ht] at h
            obtain ⟨field, data, cs', rest, rfl, hcs', hwidth, hlen, rfl⟩ :=
              (decodeFields_ok _ _ _).mp h
            rw [← List.append_assoc]
            exact .inr (.mk hpre ht (hcount.append hcs') hwidth hlen)

theorem srecDecode_record (hr : r.type ≠ .empty) : srecDecode l = .ok r ↔ IsRecord l r := by
  constructor
  · intro h
    rcases srecDecode_ok h with rfl | h
    · exact absurd rfl hr
    · exact h
  · intro h
    cases h with
    | @mk pre cs rest field data v count type width h hv hcs hwidth hlen =>
      have hcs : HexOf cs ([count] ++ (field ++ data ++ [checksum count field data])) := hcs
      obtain ⟨cs1, cs2, rfl, hcount, hcs⟩ := hcs.split
      have h2 : hex2Bin (cs1 ++ (cs2 ++ rest)) = .ok (count, cs2 ++ rest) :=
        hex2Bin_eq_ok.mpr ⟨cs1, hcount, rfl⟩
      rw [srecDecode_S h (recordType_ne hv).1, List.append_assoc]
      simp only [h2, bind, Except.bind, hv]
      exact (decodeFields_ok _ _ _).mpr ⟨field, data, cs2, rest, rfl, hcs, hwidth, hlen, rfl⟩

/-! ## Lines -/

variable {line buf input : List UInt8} {k : ℕ} {maxbin : UInt32} {l l' : Loop}

/-- Characters that `read_record` stores. -/
def LineChar (c : UInt8) : Prop := c ≠ 0x0D ∧ c ≠ 0x0A ∧ c ≠ 0

theorem readChars_append (h : ∀ c ∈ line, LineChar c) (len : ℕ) (input : List UInt8) :
    readChars (line.length + len) (line ++ input) =
      (line ++ (readChars len input).1, (readChars len input).2) := by
  induction line with
  | nil => simp
  | cons c line ih =>
    obtain ⟨⟨hr, hn, h0⟩, h⟩ := List.forall_mem_cons.mp h
    rw [List.length_cons, Nat.add_right_comm, List.cons_append, readChars, if_neg (not_or.mpr ⟨hr, hn⟩),
      if_neg h0, ih h]
    rfl

/-- A line is read whole, up to its end. -/
theorem readRecord_line (h : ∀ c ∈ line, LineChar c) (hlen : line.length < SREC_MAXRECLEN) {e : UInt8}
    (he : e = 0x0D ∨ e = 0x0A) (buf input : List UInt8) :
    readRecord buf (line ++ e :: input) =
      .ok (some (line.length + 2, line ++ buf.drop line.length)) := by
  obtain ⟨len, hlen⟩ := Nat.exists_eq_add_of_lt hlen
  have hread := readChars_append h (len + 1) (e :: input)
  rw [readChars, if_pos he, List.append_nil] at hread
  rw [readRecord, hlen, Nat.add_assoc, hread]

theorem length_readChars (len : ℕ) (input : List UInt8) (h : (readChars len input).2 = .full) :
    (readChars len input).1.length = len := by
  induction len generalizing input with
  | zero => rfl
  | succ len ih =>
    cases input with
    | nil => cases h
    | cons c input =>
      unfold readChars at h ⊢
      split_ifs at h ⊢
      rw [List.length_cons, ih input h]

/-- Text with an end is not read beyond it. -/
theorem readChars_ne_outside (len : ℕ) (h : (0 : UInt8) ∈ input) : (readChars len input).2 ≠ .outside := by
  induction len generalizing input with
  | zero => exact fun h => nomatch h
  | succ len ih =>
    cases input with
    | nil => exact absurd h List.not_mem_nil
    | cons c input =>
      unfold readChars
      split_ifs with hline h0
      · exact fun h => nomatch h
      · exact fun h => nomatch h
      · exact ih ((List.mem_cons.mp h).resolve_left (Ne.symm h0))

/-- How the reading of the next line can end. -/
theorem readRecord_cases (buf input : List UInt8) :
    readRecord buf input = .error .outside ∨ readRecord buf input = .ok none ∨
      ∃ k record, 0 < k ∧ readRecord buf input = .ok (some (k, record)) := by
  unfold readRecord
  rcases hread : readChars SREC_MAXRECLEN input with ⟨line, _ | _ | _ | _⟩
  · exact .inr (.inr ⟨_, _, Nat.succ_pos _, rfl⟩)
  · exact .inr (.inl rfl)
  · refine .inr (.inr ⟨_, _, ?_, rfl⟩)
    have hlen := length_readChars SREC_MAXRECLEN input (by rw [hread])
    rw [hread] at hlen
    simp only at hlen
    rw [hlen]
    decide
  · exact .inl rfl

theorem readRecord_outside (h : readRecord buf input = .error .outside) : (0 : UInt8) ∉ input := by
  intro hmem
  have hne := readChars_ne_outside SREC_MAXRECLEN hmem
  unfold readRecord at h
  rcases hread : readChars SREC_MAXRECLEN input with ⟨line, _ | _ | _ | _⟩ <;> rw [hread] at h hne
  · cases h
  · cases h
  · cases h
  · exact hne rfl

/-! ## The loop -/

/-- An iteration goes on with `l'`. -/
def Next (maxbin : UInt32) (l l' : Loop) : Prop := iterate maxbin l = .next l'

/-- The loops that are reached from `l`. -/
def Reaches (maxbin : UInt32) : Loop → Loop → Prop := Relation.ReflTransGen (Next maxbin)

theorem ofInt_natCast (n : ℕ) : UInt32.ofInt n = UInt32.ofNat n := by
  rw [← UInt32.toNat_inj, UInt32.ofInt, UInt32.toNat_ofNat', UInt32.toNat_ofNat']
  omega

/-- The loop after a data record. -/
def stored (l : Loop) (r : Record) : Loop :=
  { l with
    out := l.out ++ List.replicate (gap l r.addr).toNat 0 ++ r.data
    outSize := l.outSize + gap l r.addr + UInt32.ofInt r.count
    firstDataLine := false
    prevAddr := r.addr.toUInt32
    prevBinlen := UInt32.ofInt r.count }

theorem storeData_eq (h : 0 ≤ r.count) : storeData maxbin l r =
    if maxbin < (stored l r).outSize then .done 0 (stored l r).out else .next (stored l r) :=
  if_neg (not_lt.mpr h)

theorem storeData_next {d : Loop} (h : storeData maxbin l r = .next d) :
    0 ≤ r.count ∧ d = stored l r ∧ d.outSize ≤ maxbin := by
  by_cases hcount : r.count < 0
  · rw [storeData, if_pos hcount] at h
    cases h
  · rw [storeData_eq (not_lt.mp hcount)] at h
    split_ifs at h with hsize
    cases h
    exact ⟨not_lt.mp hcount, rfl, UInt32.not_lt.mp hsize⟩

/-- The types that carry data. -/
def IsData (type : SrecType) : Prop := type = .data2 ∨ type = .data3 ∨ type = .data4

theorem iterate_data {record : List UInt8} (hread : readRecord l.record l.inbuf = .ok (some (k, record)))
    (hdec : srecDecode record = .ok r) (hr : IsData r.type) :
    iterate maxbin l = storeData maxbin { l with inbuf := l.inbuf.drop k, record := record } r := by
  unfold iterate
  rw [hread]
  simp only [hdec]
  rcases hr with h | h | h <;> rw [h]

/-- What an iteration that goes on has read and decoded. -/
theorem next_cases (h : Next maxbin l l') :
    ∃ k record r, 0 < k ∧ readRecord l.record l.inbuf = .ok (some (k, record)) ∧
      IsRecord record r ∧ l.inbuf ≠ [] ∧
      ((r.type = .start ∨ r.type = .count) ∧
          l' = { l with inbuf := l.inbuf.drop k, record := record } ∨
        IsData r.type ∧
          storeData maxbin { l with inbuf := l.inbuf.drop k, record := record } r = .next l') := by
  unfold Next iterate at h
  rcases readRecord_cases l.record l.inbuf with hread | hread | ⟨k, record, hk, hread⟩ <;> rw [hread] at h
  · cases h
  · cases h
  · have hne : l.inbuf ≠ [] := by
      intro hnil
      rw [hnil] at hread
      cases hread
    simp only at h
    cases hdec : srecDecode record with
    | error e =>
      rw [hdec] at h
      cases e <;> cases h
    | ok r =>
      rw [hdec] at h
      simp only at h
      have hrec : r.type ≠ .empty → IsRecord record r := fun hr => (srecDecode_record hr).mp hdec
      cases ht : r.type <;> rw [ht] at h hrec <;> simp only [reduceCtorEq] at h
      case start | count =>
        cases h
        exact ⟨k, record, r, hk, hread, hrec (by decide), hne, .inl ⟨by simp [ht], rfl⟩⟩
      case data2 | data3 | data4 =>
        exact ⟨k, record, r, hk, hread, hrec (by decide), hne, .inr ⟨by simp [ht, IsData], h⟩⟩

theorem Next.inbuf (h : Next maxbin l l') : ∃ k, 0 < k ∧ l.inbuf ≠ [] ∧ l'.inbuf = l.inbuf.drop k := by
  obtain ⟨k, record, r, hk, -, -, hne, ⟨-, rfl⟩ | ⟨-, hstore⟩⟩ := next_cases h
  · exact ⟨k, hk, hne, rfl⟩
  · exact ⟨k, hk, hne, congrArg (·.inbuf) (storeData_next hstore).2.1⟩

theorem Next.length_lt (h : Next maxbin l l') : l'.inbuf.length < l.inbuf.length := by
  obtain ⟨k, hk, hne, hl'⟩ := h.inbuf
  have := List.length_pos_iff.mpr hne
  rw [hl', List.length_drop]
  omega

/-- An iteration that is not followed by another one. -/
def Ends (maxbin : UInt32) (l : Loop) (i : Iteration) : Prop :=
  iterate maxbin l = i ∧ ∀ l', i ≠ .next l'

theorem ends_iff {j : Iteration} (hj : iterate maxbin l = j) (hend : ∀ l', j ≠ .next l') (i : Iteration) :
    j = i ↔ ∃ l', Reaches maxbin l l' ∧ Ends maxbin l' i := by
  constructor
  · rintro rfl
    exact ⟨l, .refl, hj, hend⟩
  · rintro ⟨l', hreach, hi, -⟩
    rcases Relation.ReflTransGen.cases_head hreach with rfl | ⟨d, hd, -⟩
    · exact hj.symm.trans hi
    · exact absurd (hj.symm.trans hd) (hend d)

/-- The loop ends, with the last of the iterations that are reached. -/
theorem iterations_eq (h : l.inbuf.length < n) (i : Iteration) :
    iterations maxbin n l = some i ↔ ∃ l', Reaches maxbin l l' ∧ Ends maxbin l' i := by
  induction n generalizing l with
  | zero => exact absurd h (Nat.not_lt_zero _)
  | succ n ih =>
    rw [iterations]
    cases hi : iterate maxbin l with
    | next d =>
      have hnext : Next maxbin l d := hi
      simp only
      rw [ih (by have := hnext.length_lt; omega)]
      constructor
      · rintro ⟨l', hreach, hend⟩
        exact ⟨l', hreach.head hnext, hend⟩
      · rintro ⟨l', hreach, hend⟩
        rcases Relation.ReflTransGen.cases_head hreach with rfl | ⟨d', hd', hreach⟩
        · exact absurd hi (hend.1 ▸ hend.2 d)
        · obtain rfl : d = d' := by
            have heq := hi.symm.trans hd'
            cases heq
            rfl
          exact ⟨l', hreach, hend⟩
    | done size out =>
      rw [Option.some.injEq]
      exact ends_iff hi (fun _ h => nomatch h) i
    | outside =>
      rw [Option.some.injEq]
      exact ends_iff hi (fun _ h => nomatch h) i

theorem iterations_returns (h : l.inbuf.length < n) : ∃ i, iterations maxbin n l = some i := by
  induction n generalizing l with
  | zero => exact absurd h (Nat.not_lt_zero _)
  | succ n ih =>
    rw [iterations]
    cases hi : iterate maxbin l with
    | next d =>
      have hnext : Next maxbin l d := hi
      exact ih (by have := hnext.length_lt; omega)
    | done size out => exact ⟨_, rfl⟩
    | outside => exact ⟨_, rfl⟩

/-- `srec_to_bin` ends with the last of its iterations. -/
theorem srecToBin_eq (maxbin : UInt32) (record inbuf : List UInt8) (i : Iteration) :
    srecToBin maxbin record inbuf = some i ↔
      ∃ l, Reaches maxbin (start record inbuf) l ∧ Ends maxbin l i :=
  iterations_eq (Nat.lt_succ_self _) i

/-! ## What follows the text -/

/-- The loop over a longer text. -/
def Loop.extend (l : Loop) (rest : List UInt8) : Loop := { l with inbuf := l.inbuf ++ rest }

theorem readChars_extend (len : ℕ) (input : List UInt8) (h : (readChars len input).2 ≠ .outside) :
    readChars len (input ++ rest) = readChars len input := by
  induction len generalizing input with
  | zero => rfl
  | succ len ih =>
    cases input with
    | nil => exact absurd rfl h
    | cons c input =>
      rw [List.cons_append, readChars, readChars]
      rw [readChars] at h
      split_ifs at h ⊢ with hline hnul
      · rfl
      · rfl
      · rw [ih input h]

theorem readRecord_extend {buf input : List UInt8} (h : readRecord buf input ≠ .error .outside) :
    readRecord buf (input ++ rest) = readRecord buf input := by
  unfold readRecord at h ⊢
  rw [readChars_extend]
  intro hout
  apply h
  rcases hread : readChars SREC_MAXRECLEN input with ⟨line, e⟩
  rw [hread] at hout
  obtain rfl : e = .outside := hout
  rfl

theorem iterate_empty (h : l.inbuf = []) : iterate maxbin l = .outside := by
  unfold iterate
  rw [h]
  rfl

theorem storeData_inbuf (x : List UInt8) (r : Record) : storeData maxbin { l with inbuf := x } r =
    match storeData maxbin l r with
    | .next l' => .next { l' with inbuf := x }
    | i => i := by
  unfold storeData
  split_ifs with hneg
  · rfl
  · simp only [gap]
    split_ifs <;> rfl

/-- A line that is read to its end makes the same iteration of a longer text. -/
theorem iterate_extend {k : ℕ} {record : List UInt8}
    (hread : readRecord l.record l.inbuf = .ok (some (k, record))) :
    iterate maxbin (l.extend rest) = match iterate maxbin l with
      | .next l' => .next { l' with inbuf := (l.inbuf ++ rest).drop k }
      | i => i := by
  have hext : readRecord l.record (l.inbuf ++ rest) = .ok (some (k, record)) :=
    (readRecord_extend (by rw [hread]; exact fun h => nomatch h)).trans hread
  cases hdec : srecDecode record with
  | error e => cases e <;> simp only [iterate, Loop.extend, hread, hext, hdec]
  | ok r =>
    cases ht : r.type <;> simp only [iterate, Loop.extend, hread, hext, hdec, ht]
    case data2 | data3 | data4 => exact storeData_inbuf (l := { l with inbuf := l.inbuf.drop k, record := record }) _ r

theorem iterate_done_extend {size : UInt32} {out : List UInt8} (h : iterate maxbin l = .done size out) :
    iterate maxbin (l.extend rest) = .done size out := by
  rcases readRecord_cases l.record l.inbuf with hread | hread | ⟨k, record, -, hread⟩
  · simp only [iterate, hread] at h
    exact nomatch h
  · have hext : readRecord l.record (l.inbuf ++ rest) = .ok none :=
      (readRecord_extend (by rw [hread]; exact fun h => nomatch h)).trans hread
    simp only [iterate, hread] at h
    simp only [iterate, Loop.extend, hext]
    exact h
  · rw [iterate_extend hread, h]

theorem Next.extend (h : Next maxbin l l') (hne : l'.inbuf ≠ []) :
    Next maxbin (l.extend rest) (l'.extend rest) := by
  obtain ⟨k, record, r, -, hread, -, -, hcase⟩ := next_cases h
  have hinbuf : l'.inbuf = l.inbuf.drop k := by
    rcases hcase with ⟨-, rfl⟩ | ⟨-, hstore⟩
    · rfl
    · exact congrArg (·.inbuf) (storeData_next hstore).2.1
  have hk : k ≤ l.inbuf.length := by
    by_contra hk
    exact hne (hinbuf.trans (List.drop_eq_nil_of_le (by omega)))
  unfold Next at h ⊢
  rw [iterate_extend hread, h]
  simp only [Loop.extend, hinbuf, List.drop_append_of_le_length hk]

/-- The conversion does not look beyond its last iteration. -/
theorem srecToBin_append {record inbuf : List UInt8} {size : UInt32} {out : List UInt8}
    (h : srecToBin maxbin record inbuf = some (.done size out)) (rest : List UInt8) :
    srecToBin maxbin record (inbuf ++ rest) = some (.done size out) := by
  rw [srecToBin_eq] at h ⊢
  obtain ⟨m, hreach, hend, -⟩ := h
  refine ⟨m.extend rest, ?_, iterate_done_extend hend, fun _ h => nomatch h⟩
  change Relation.ReflTransGen _ ((start record inbuf).extend rest) _
  generalize start record inbuf = l at hreach ⊢
  induction hreach using Relation.ReflTransGen.head_induction_on with
  | refl => exact .refl
  | head hnext hreach ih =>
    refine .head (hnext.extend fun hnil => ?_) ih
    rcases Relation.ReflTransGen.cases_head hreach with rfl | ⟨d, hd, -⟩
    · rw [iterate_empty hnil] at hend
      exact absurd hend (fun h => nomatch h)
    · exact absurd ((iterate_empty hnil).symm.trans hd) (fun h => nomatch h)

end RCar.Srec
