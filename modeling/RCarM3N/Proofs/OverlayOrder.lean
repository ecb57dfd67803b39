import RCarM3N.Proofs.Overlays

/-! The order of the overlays in the command line: what `assemble_dtbo_idx_string` writes is what
`get_overlay_order` reads, and what becomes of a command line in which `add_dtbo_index` puts it. -/

namespace RCar.DeviceTree

open Fastboot (CStr ascii isdigit isxdigit digitValue numeral simpleStrtoul)

variable {T : Type} {o : DtOverlays T}

/-! ## Numbers -/

/-- What `simple_strtoul` takes for a digit. -/
def isDecimal (c : UInt8) : Bool := isxdigit c && digitValue c < 10

/-- The character of a digit. -/
def digitByte (d : ℕ) : UInt8 := (Nat.digitChar d).toNat.toUInt8

theorem digitByte_decimal : ∀ d < 10, isDecimal (digitByte d) = true ∧ isdigit (digitByte d) = true ∧
    digitByte d ≠ 44 ∧ digitValue (digitByte d) = d := by
  decide

theorem numberText_digits {i : ℕ} (hi : i < 100) :
    numberText 10 i = if i < 10 then [digitByte i] else [digitByte (i / 10), digitByte (i % 10)] := by
  unfold numberText
  split
  · rw [Nat.toDigits_of_lt_base (by assumption)]
    rfl
  · rw [Nat.toDigits_of_base_le (by decide) (by omega), Nat.toDigits_of_lt_base (by omega)]
    rfl

theorem numberText_decimal (i : ℕ) (hi : i < 100) : (∀ c ∈ numberText 10 i, isDecimal c = true ∧ isdigit c = true ∧ c ≠ 44) ∧
    (numberText 10 i).foldl (fun (result : UInt64) c => result * 10 + UInt64.ofNat (digitValue c)) 0
      = UInt64.ofNat i ∧ (numberText 10 i).length ≤ 2 := by
  rw [numberText_digits hi]
  split
  · obtain ⟨hdecimal, hdigit, hcomma, hvalue⟩ := digitByte_decimal i (by assumption)
    refine ⟨?_, ?_, by simp⟩
    · simp only [List.mem_singleton]
      rintro c rfl
      exact ⟨hdecimal, hdigit, hcomma⟩
    · rw [List.foldl_cons, List.foldl_nil, hvalue, UInt64.zero_mul, UInt64.zero_add]
  · obtain ⟨hdecimal, hdigit, hcomma, hvalue⟩ := digitByte_decimal (i / 10) (by omega)
    obtain ⟨hdecimal', hdigit', hcomma', hvalue'⟩ := digitByte_decimal (i % 10) (by omega)
    refine ⟨?_, ?_, by simp⟩
    · simp only [List.mem_cons, List.not_mem_nil, or_false]
      rintro c (rfl | rfl)
      · exact ⟨hdecimal, hdigit, hcomma⟩
      · exact ⟨hdecimal', hdigit', hcomma'⟩
    · rw [List.foldl_cons, List.foldl_cons, List.foldl_nil, hvalue, hvalue', UInt64.zero_mul, UInt64.zero_add]
      apply UInt64.toNat_inj.mp
      simp
      omega
theorem indexList_cons (i : ℕ) (idxs : List ℕ) : indexList (i :: idxs) =
    numberText 10 i ++ if idxs = [] then [] else 44 :: indexList idxs := by
  cases idxs with
  | nil => simp [indexList]
  | cons j idxs => simp [indexList, List.intercalate]

/-- A number that ends at a comma or with the text. -/
theorem ustrtoul_number {i : ℕ} (hi : i < 100) {rest : CStr} (hrest : ∀ c ∈ rest.head?, c = 44) :
    ustrtoul (numberText 10 i ++ rest) = (UInt64.ofNat i, rest) := by
  obtain ⟨hdigits, hvalue, -⟩ := numberText_decimal i hi
  have hfix : ∀ cp : CStr, Fastboot.fixupRadix cp 10 = cp := by
    intro cp
    unfold Fastboot.fixupRadix
    split
    · rw [if_neg (by simp)]
    · rfl
  have hnumeral : numeral (numberText 10 i ++ rest) 10 = numberText 10 i := by
    have htake : numeral (numberText 10 i ++ rest) 10 = (numberText 10 i ++ rest).takeWhile isDecimal := by
      unfold numeral
      rw [hfix]
      rfl
    rw [htake, List.takeWhile_append_of_pos fun c hc => (hdigits c hc).1]
    cases rest with
    | nil => simp
    | cons c rest =>
      obtain rfl := hrest c rfl
      simp [isDecimal, isxdigit, isdigit]
  unfold ustrtoul simpleStrtoul
  rw [hnumeral, List.drop_left]
  cases rest with
  | nil => exact congrArg (·, []) hvalue
  | cons c rest =>
    obtain rfl := hrest c rfl
    exact congrArg (·, 44 :: rest) hvalue

/-- What is written is read. -/
theorem readOrder_indexList {maxSize n : ℕ} {idxs : List ℕ} (hlt : ∀ i ∈ idxs, i < maxSize ∧ i < 100)
    (hn : idxs.length ≤ n) : readOrder maxSize n (indexList idxs) = idxs := by
  induction idxs generalizing n with
  | nil => cases n <;> rfl
  | cons i idxs ih =>
    obtain ⟨hmax, hi⟩ := hlt i List.mem_cons_self
    obtain ⟨hdigits, -, -⟩ := numberText_decimal i hi
    obtain ⟨n, rfl⟩ : ∃ m, n = m + 1 := ⟨n - 1, by simp at hn; omega⟩
    have hstart : ((indexList (i :: idxs)).head?.any isdigit) = true := by
      rw [indexList_cons]
      cases htext : numberText 10 i with
      | nil =>
        have := length_numberText_pos 10 i
        simp [htext] at this
      | cons c text => exact (hdigits c (by simp [htext])).2.1
    have hnumber := @ustrtoul_number i hi (if idxs = [] then [] else 44 :: indexList idxs) (by split_ifs <;> simp)
    have hvalue : (UInt64.ofNat i).toNat = i := UInt64.toNat_ofNat_of_lt' (by simp [UInt64.size]; omega)
    rw [readOrder, if_neg (by simp [hstart])]
    simp only [indexList_cons, hnumber, hvalue]
    rw [if_neg (by omega)]
    congr 1
    split_ifs with hnil
    · exact hnil.symm
    · exact ih (fun j hj => hlt j (List.mem_cons_of_mem _ hj)) (by simp at hn; omega)

/-! ## The string -/

def DtOverlays.dtboText (o : DtOverlays T) : CStr := DTBO_IDX ++ 61 :: indexList o.orderIdx

theorem length_indexList {idxs : List ℕ} (h : ∀ i ∈ idxs, i < 100) :
    (indexList idxs).length ≤ 3 * idxs.length - 1 := by
  induction idxs with
  | nil => simp [indexList]
  | cons i idxs ih =>
    obtain ⟨-, -, hlen⟩ := numberText_decimal i (h i List.mem_cons_self)
    have hrest := ih fun j hj => h j (List.mem_cons_of_mem _ hj)
    rw [indexList_cons, List.length_append, List.length_cons]
    split_ifs with hnil
    · simp only [List.length_nil]
      omega
    · have := List.length_pos_iff.mpr hnil
      rw [List.length_cons]
      omega

/-- There are overlays to be applied, and their indexes have two digits at most. -/
def DtOverlays.Listable (o : DtOverlays T) : Prop := o.orderIdx ≠ [] ∧ ∀ i ∈ o.orderIdx, i < MAX_OVERLAYS

instance (o : DtOverlays T) : Decidable o.Listable := inferInstanceAs (Decidable (_ ∧ _))

/-- The buffer of the string is long enough. -/
theorem assembleDtboIdxString_eq (o : DtOverlays T) :
    assembleDtboIdxString o = some (if o.Listable then some o.dtboText else none) := by
  have hle := o.order_le
  have hany : (o.orderIdx.any (MAX_OVERLAYS ≤ ·)) = true ↔ ¬ ∀ i ∈ o.orderIdx, i < MAX_OVERLAYS := by simp
  unfold assembleDtboIdxString
  simp only [DtOverlays.idxs_eq, hany]
  cases hidx : o.orderIdx with
  | nil => simp [DtOverlays.Listable, hidx]
  | cons i order =>
    rw [← hidx]
    have hne : o.orderIdx ≠ [] := by simp [hidx]
    by_cases hall : ∀ i ∈ o.orderIdx, i < MAX_OVERLAYS
    · have hlen := length_indexList hall
      have := List.length_pos_iff.mpr hne
      have hroom : ¬ o.size * 3 + (DTBO_IDX ++ [61]).length <
          (DTBO_IDX ++ [61] ++ indexList o.orderIdx).length + 1 := by
        simp only [DtOverlays.size, List.length_append, List.length_singleton]
        omega
      rw [if_neg hne, if_neg (not_not.mpr hall), if_neg hroom, if_pos ⟨hne, hall⟩]
      simp [DtOverlays.dtboText]
    · rw [if_neg hne, if_pos hall, if_neg fun h => hall h.2]

/-- The list that is written is the list that is read, when there is one to be written. -/
theorem getOverlayOrder_dtboText (o : DtOverlays T) (nullText : CStr) (h : ∀ i ∈ o.orderIdx, i < MAX_OVERLAYS) :
    getOverlayOrder nullText (some o.dtboText) o.size = o.orderIdx := by
  have hbehind : behind o.dtboText DTBO_IDX = some (61 :: indexList o.orderIdx) := by
    have hbegins : DTBO_IDX.isPrefixOf o.dtboText = true :=
      List.isPrefixOf_iff_prefix.mpr (List.prefix_append _ _)
    have htails : o.dtboText.tails.find? DTBO_IDX.isPrefixOf = some o.dtboText := by
      cases htext : o.dtboText with
      | nil => simp [DtOverlays.dtboText] at htext
      | cons c text =>
        rw [htext] at hbegins
        rw [List.tails_cons, List.find?_cons, hbegins]
    rw [behind, htails]
    simp [DtOverlays.dtboText]
  unfold getOverlayOrder
  rw [Option.getD_some, hbehind]
  exact readOrder_indexList (fun i hi => ⟨o.order_lt i hi, h i hi⟩) o.order_le

/-! ## The words of a command line -/

/-- A quote begins or ends a text in quotes. -/
def toggle (q : Bool) (c : UInt8) : Bool := if c = 34 then !q else q

theorem scanWord_cons (q : Bool) (c : UInt8) (s : CStr) : scanWord q (c :: s) =
    if isspace c ∧ q = false then ([], c :: s)
    else (c :: (scanWord (toggle q c) s).1, (scanWord (toggle q c) s).2) := rfl

theorem even_count_cons (q : Bool) (c : UInt8) (s : CStr) :
    (q = true ↔ Even ((c :: s).count 34)) ↔ (toggle q c = true ↔ Even (s.count 34)) := by
  rw [List.count_cons, toggle]
  by_cases hc : c = 34
  · simp only [hc, beq_self_eq_true, if_true, Nat.even_add_one]
    cases q <;> simp
  · simp [hc]

theorem scanWord_append (q : Bool) (s : CStr) : (scanWord q s).1 ++ (scanWord q s).2 = s := by
  induction s generalizing q with
  | nil => rfl
  | cons c s ih =>
    rw [scanWord_cons]
    split_ifs with hend
    · rfl
    · exact congrArg (c :: ·) (ih _)

/-- A word that is ended by a blank is ended outside of quotes, whatever follows. -/
theorem scanWord_rest {q : Bool} {s : CStr} (h : (scanWord q s).2 ≠ []) (v : CStr) :
    (q = false ↔ Even ((scanWord q s).1.count 34)) ∧
      scanWord q (s ++ v) = ((scanWord q s).1, (scanWord q s).2 ++ v) := by
  induction s generalizing q with
  | nil => exact absurd rfl h
  | cons c s ih =>
    rw [List.cons_append, scanWord_cons, scanWord_cons]
    rw [scanWord_cons] at h
    split_ifs at h ⊢ with hend
    · exact ⟨by simp [hend.2], rfl⟩
    · obtain ⟨hparity, hscan⟩ := ih h
      refine ⟨?_, by rw [hscan]⟩
      have := even_count_cons (!q) c (scanWord (toggle q c) s).1
      have hnot : toggle (!q) c = !toggle q c := by
        unfold toggle
        split_ifs <;> rfl
      rw [hnot] at this
      simpa using this.mpr (by simpa using hparity)

/-- The blank that ends a word. -/
theorem scanWord_blank {q : Bool} {s t : CStr} {c : UInt8} (h : (scanWord q s).2 = c :: t) : isspace c = true := by
  induction s generalizing q with
  | nil => cases h
  | cons d s ih =>
    rw [scanWord_cons] at h
    split_ifs at h with hend
    · cases h
      exact hend.1
    · exact ih h

theorem scanWord_quoted {v : CStr} (h : (34 : UInt8) ∉ v) : scanWord true v = (v, []) := by
  induction v with
  | nil => rfl
  | cons c v ih =>
    obtain ⟨hc, hv⟩ := not_or.mp (mt List.mem_cons.mpr h)
    rw [scanWord_cons, if_neg (by simp), toggle, if_neg (Ne.symm hc), ih hv]

/-- A word that takes a blank at the end of the text is inside quotes there. -/
theorem scanWord_end {q : Bool} {s : CStr} (h : (scanWord q s).2 = []) (hlast : s.getLast? = some 32) {v : CStr}
    (hv : (34 : UInt8) ∉ v) : (q = true ↔ Even (s.count 34)) ∧ scanWord q (s ++ v) = (s ++ v, []) := by
  induction s generalizing q with
  | nil => simp at hlast
  | cons c s ih =>
    rw [List.cons_append, scanWord_cons]
    rw [scanWord_cons] at h
    split_ifs at h with hend
    rw [if_neg hend, even_count_cons]
    cases s with
    | nil =>
      obtain rfl : c = 32 := by simpa using hlast
      have hq : toggle q 32 = true := by
        cases q
        · exact absurd ⟨by decide, rfl⟩ hend
        · rfl
      rw [hq, List.nil_append, scanWord_quoted hv]
      exact ⟨by simp, rfl⟩
    | cons d s =>
      obtain ⟨hparity, hscan⟩ := ih h (by simpa using hlast)
      exact ⟨hparity, by rw [hscan]⟩

/-! ## The arguments -/

theorem length_skipSpaces_le (s : CStr) : (skipSpaces s).length ≤ s.length :=
  (List.dropWhile_sublist _).length_le

def isQuoted (s : CStr) : Bool := s.head? = some 34

/-- The text without a quote before it. -/
def unquoted (s : CStr) : CStr := if isQuoted s then s.tail else s

theorem nextArg_eq (s : CStr) : nextArg s =
    (wordArg (isQuoted s) (scanWord (isQuoted s) (unquoted s)).1,
      skipSpaces (scanWord (isQuoted s) (unquoted s)).2.tail) := rfl

theorem nextArg_length {s : CStr} (h : s ≠ []) : (nextArg s).2.length < s.length := by
  have hpos := List.length_pos_iff.mpr h
  have hunquoted : (unquoted s).length ≤ s.length := by
    unfold unquoted
    split_ifs
    · simp
    · exact le_refl _
  have hscan := congrArg List.length (scanWord_append (isQuoted s) (unquoted s))
  have hskip := length_skipSpaces_le (scanWord (isQuoted s) (unquoted s)).2.tail
  rw [List.length_append] at hscan
  rw [List.length_tail] at hskip
  rw [nextArg_eq]
  simp only
  omega

/-- The arguments of a text that begins with one. -/
def argsOf (s : CStr) : List Arg := argsUpTo s.length s

theorem argsUpTo_eq {n : ℕ} {s : CStr} (h : s.length ≤ n) : argsUpTo n s = argsOf s := by
  have hmore : ∀ n m s, s.length ≤ n → s.length ≤ m → argsUpTo n s = argsUpTo m s := by
    intro n
    induction n with
    | zero =>
      intro m s hn _
      obtain rfl := List.length_eq_zero_iff.mp (Nat.le_zero.mp hn)
      cases m <;> rfl
    | succ n ih =>
      intro m s hn hm
      by_cases hs : s = []
      · subst hs
        cases m <;> rfl
      · obtain ⟨m, rfl⟩ : ∃ k, m = k + 1 := ⟨m - 1, by have := List.length_pos_iff.mpr hs; omega⟩
        have := nextArg_length hs
        rw [argsUpTo, argsUpTo, if_neg hs, if_neg hs, ih m _ (by omega) (by omega)]
  exact hmore _ _ s h (le_refl _)

theorem argsOf_eq {s : CStr} (h : s ≠ []) : argsOf s = (nextArg s).1 :: argsOf (nextArg s).2 := by
  have hlt := nextArg_length h
  obtain ⟨n, hn⟩ : ∃ n, s.length = n + 1 := ⟨s.length - 1, by omega⟩
  rw [argsOf, hn, argsUpTo, if_neg h, argsUpTo_eq (by omega)]

theorem parseArgs_eq (s : CStr) : parseArgs s = argsOf (skipSpaces s) := argsUpTo_eq (length_skipSpaces_le s)

/-! ## A word behind a command line -/

/-- A word without blanks and quotes. -/
structure Plain (v : CStr) : Prop where
  ne_nil : v ≠ []
  noSpace : ∀ c ∈ v, isspace c = false
  noQuote : (34 : UInt8) ∉ v

theorem skipSpaces_plain {v : CStr} (hv : Plain v) : skipSpaces v = v := by
  cases v with
  | nil => rfl
  | cons c v => simp [skipSpaces, hv.noSpace c List.mem_cons_self]

theorem skipSpaces_append_plain {v : CStr} (hv : Plain v) (s : CStr) : skipSpaces (s ++ v) = skipSpaces s ++ v := by
  have h : skipSpaces (s ++ v) = if (skipSpaces s).isEmpty then skipSpaces v else skipSpaces s ++ v :=
    List.dropWhile_append
  rw [h]
  split_ifs with hnil
  · rw [skipSpaces_plain hv, List.isEmpty_iff.mp hnil, List.nil_append]
  · rfl

/-- What is left of a text that ends with a blank does so too. -/
theorem suffix_last {s t : CStr} (h : t <:+ s) (hs : s.getLast? = some 32) : t = [] ∨ t.getLast? = some 32 := by
  obtain ⟨u, rfl⟩ := h
  cases t with
  | nil => exact Or.inl rfl
  | cons c t =>
    rw [List.getLast?_append_cons] at hs
    exact Or.inr hs

theorem count_skipSpaces (s : CStr) : (skipSpaces s).count 34 = s.count 34 := by
  induction s with
  | nil => rfl
  | cons c s ih =>
    unfold skipSpaces at ih ⊢
    rw [List.dropWhile_cons]
    split_ifs with hc
    · rw [ih, List.count_cons_of_ne]
      rintro rfl
      revert hc
      decide
    · rfl

theorem unquoted_suffix (s : CStr) : unquoted s <:+ s := by
  unfold unquoted
  split_ifs
  · exact List.tail_suffix s
  · exact List.suffix_refl s

theorem even_count_unquoted (s : CStr) :
    Even (s.count 34) ↔ (isQuoted s = true ↔ ¬ Even ((unquoted s).count 34)) := by
  unfold unquoted isQuoted
  cases s with
  | nil => simp
  | cons c s =>
    by_cases hc : c = 34
    · simp [hc, Nat.even_add_one]
    · simp [hc]

/-- Behind an even number of quotes a word is read for itself; otherwise it belongs to the last word, with
the blank before it. -/
theorem argsOf_append {v : CStr} (hv : Plain v) {s : CStr} (hs : s = [] ∨ s.getLast? = some 32) :
    (Even (s.count 34) → argsOf (s ++ v) = argsOf s ++ argsOf v) ∧
    (¬ Even (s.count 34) → ∃ l q z, argsOf (s ++ v) = l ++ [wordArg q (z ++ v)] ∧ z.getLast? = some 32) := by
  induction hn : s.length using Nat.strong_induction_on generalizing s with
  | _ n ih =>
    rcases hs with rfl | hs
    · exact ⟨fun _ => rfl, fun h => absurd (by simp) h⟩
    have hne : s ≠ [] := by
      rintro rfl
      simp at hs
    have hquoted : isQuoted (s ++ v) = isQuoted s := by
      unfold isQuoted
      rw [List.head?_append_of_ne_nil _ hne]
    have hbody : unquoted (s ++ v) = unquoted s ++ v := by
      unfold unquoted
      rw [hquoted]
      split_ifs
      · rw [List.tail_append_of_ne_nil hne]
      · rfl
    rw [even_count_unquoted, argsOf_eq (by simp [hne]), argsOf_eq hne, nextArg_eq, nextArg_eq, hquoted, hbody]
    by_cases hrest : (scanWord (isQuoted s) (unquoted s)).2 = []
    · have hlast : (unquoted s).getLast? = some 32 := by
        rcases suffix_last (unquoted_suffix s) hs with hnil | hlast
        · rw [unquoted] at hnil
          split_ifs at hnil with hq
          · obtain ⟨c, rfl⟩ : ∃ c, s = [c] := by
              cases s with
              | nil => exact absurd rfl hne
              | cons c t => exact ⟨c, by rw [List.tail_cons] at hnil; rw [hnil]⟩
            simp [isQuoted] at hq hs
            rw [hq] at hs
            exact absurd hs (by decide)
          · exact absurd hnil hne
        · exact hlast
      obtain ⟨hparity, hscan⟩ := scanWord_end hrest hlast hv.noQuote
      refine ⟨fun h => ?_, fun _ => ⟨[], isQuoted s, unquoted s, ?_, hlast⟩⟩
      · rw [hparity] at h
        exact (iff_not_self h).elim
      · rw [hscan]
        rfl
    · obtain ⟨hparity, hscan⟩ := scanWord_rest hrest v
      obtain ⟨c, t, hct⟩ := List.exists_cons_of_ne_nil hrest
      have hblank := scanWord_blank hct
      have hsplit := scanWord_append (isQuoted s) (unquoted s)
      have hlt := nextArg_length hne
      rw [nextArg_eq] at hlt
      rw [hscan]
      generalize scanWord (isQuoted s) (unquoted s) = r at *
      obtain ⟨w, rest⟩ := r
      obtain rfl : rest = c :: t := hct
      simp only [List.tail_cons, List.cons_append] at *
      have hc : c ≠ 34 := by
        rintro rfl
        revert hblank
        decide
      have hnext : skipSpaces t = [] ∨ (skipSpaces t).getLast? = some 32 := by
        refine suffix_last ?_ hs
        refine (List.dropWhile_suffix _).trans (List.IsSuffix.trans ?_ (unquoted_suffix s))
        rw [← hsplit]
        exact (List.suffix_cons c t).trans (List.suffix_append _ _)
      obtain ⟨heven, hodd⟩ := ih _ (hn ▸ hlt) hnext rfl
      have hsame : (isQuoted s = true ↔ ¬ Even ((unquoted s).count 34)) ↔ Even ((skipSpaces t).count 34) := by
        rw [← hsplit, List.count_append, List.count_cons_of_ne hc, count_skipSpaces, Nat.even_add]
        have hquote : isQuoted s = true ↔ ¬ Even (w.count 34) := by
          rw [← hparity]
          simp
        by_cases hw : Even (w.count 34) <;> simp [hquote, hw]
      rw [hsame, skipSpaces_append_plain hv]
      refine ⟨fun h => by rw [heven h], fun h => ?_⟩
      obtain ⟨l, q, z, hargs, hz⟩ := hodd h
      exact ⟨_ :: l, q, z, by rw [hargs, List.cons_append], hz⟩

theorem parseArgs_append {v : CStr} (hv : Plain v) {s : CStr} (hs : s = [] ∨ s.getLast? = some 32) :
    (Even (s.count 34) → parseArgs (s ++ v) = parseArgs s ++ argsOf v) ∧
    (¬ Even (s.count 34) → ∃ l q z, parseArgs (s ++ v) = l ++ [wordArg q (z ++ v)] ∧ z.getLast? = some 32) := by
  rw [parseArgs_eq, parseArgs_eq, skipSpaces_append_plain hv, ← count_skipSpaces s]
  refine argsOf_append hv ?_
  rcases hs with rfl | hs
  · exact Or.inl rfl
  · exact suffix_last (List.dropWhile_suffix _) hs

/-! ## The token of the overlays -/

/-- The text with the value of the token: old lists and new indexes, with commas between them. -/
def joined (old : List CStr) (idxs : List ℕ) : CStr := [44].intercalate (old ++ idxs.map (numberText 10))

theorem joined_eq (old : List CStr) {idxs : List ℕ} (h : idxs ≠ []) :
    joined old idxs = old.flatMap (· ++ [44]) ++ indexList idxs := by
  induction old with
  | nil => rfl
  | cons t old ih =>
    obtain ⟨i, idxs, rfl⟩ := List.exists_cons_of_ne_nil h
    unfold joined at ih ⊢
    rw [List.flatMap_cons, List.append_assoc, ← ih]
    cases old <;> simp [List.intercalate]

theorem indexList_chars {idxs : List ℕ} (h : ∀ i ∈ idxs, i < 100) :
    ∀ c ∈ indexList idxs, isdigit c = true ∨ c = 44 := by
  induction idxs with
  | nil => simp [indexList]
  | cons i idxs ih =>
    intro c hc
    rw [indexList_cons, List.mem_append] at hc
    rcases hc with hc | hc
    · exact Or.inl ((numberText_decimal i (h i List.mem_cons_self)).1 c hc).2.1
    · split_ifs at hc
      · simp at hc
      · rcases List.mem_cons.mp hc with rfl | hc
        · exact Or.inr rfl
        · exact ih (fun j hj => h j (List.mem_cons_of_mem _ hj)) c hc

theorem indexList_ne_nil {idxs : List ℕ} (h : idxs ≠ []) : indexList idxs ≠ [] := by
  obtain ⟨i, idxs, rfl⟩ := List.exists_cons_of_ne_nil h
  have := length_numberText_pos 10 i
  intro hnil
  rw [indexList_cons] at hnil
  have hlen := congrArg List.length hnil
  rw [List.length_append, List.length_nil] at hlen
  omega

theorem dtboText_plain (h : ∀ i ∈ o.orderIdx, i < MAX_OVERLAYS) : Plain o.dtboText := by
  have hchars := indexList_chars h
  have hname : ∀ c ∈ DTBO_IDX ++ [61], isspace c = false ∧ c ≠ 34 := by decide +kernel
  have hlist : ∀ c ∈ indexList o.orderIdx, isspace c = false ∧ c ≠ 34 := by
    intro c hc
    rcases hchars c hc with hdigit | rfl
    · simp only [isdigit, Bool.and_eq_true, decide_eq_true_eq, UInt8.le_iff_toNat_le] at hdigit
      simp [isspace, UInt8.le_iff_toNat_le, ← UInt8.toNat_inj]
      simp at hdigit
      omega
    · decide
  have hall : ∀ c ∈ o.dtboText, isspace c = false ∧ c ≠ 34 := by
    intro c hc
    rw [DtOverlays.dtboText, ← List.singleton_append, ← List.append_assoc, List.mem_append] at hc
    exact hc.elim (hname c) (hlist c)
  exact ⟨by simp [DtOverlays.dtboText], fun c hc => (hall c hc).1, fun hc => (hall 34 hc).2 rfl⟩

theorem scanWord_plain {v : CStr} (hspace : ∀ c ∈ v, isspace c = false) (hquote : (34 : UInt8) ∉ v) :
    scanWord false v = (v, []) := by
  induction v with
  | nil => rfl
  | cons c v ih =>
    obtain ⟨hc, hv⟩ := not_or.mp (mt List.mem_cons.mpr hquote)
    rw [scanWord_cons, if_neg (by simp [hspace c List.mem_cons_self]), toggle, if_neg (Ne.symm hc),
      ih (fun d hd => hspace d (List.mem_cons_of_mem _ hd)) hv]

theorem splitEquals_append {c : UInt8} {p x : CStr} (hp : (61 : UInt8) ∉ p) :
    splitEquals (c :: p ++ 61 :: x) = (c :: p, some x) := by
  have hne : ∀ d ∈ p, (decide (d ≠ 61)) = true := fun d hd => by
    simp only [ne_eq, decide_not, Bool.not_eq_true', decide_eq_false_iff_not]
    rintro rfl
    exact hp hd
  rw [List.cons_append, splitEquals, List.dropWhile_append_of_pos hne, List.takeWhile_append_of_pos hne]
  simp

theorem splitEquals_some {w p x : CStr} (h : splitEquals w = (p, some x)) : w = p ++ 61 :: x := by
  cases w with
  | nil => cases h
  | cons c s =>
    rw [splitEquals] at h
    split at h
    · cases h
    · rename_i d value hdrop
      obtain ⟨rfl, hx⟩ := Prod.mk.inj h
      obtain rfl := Option.some.inj hx
      have hd : d = 61 := by
        have := List.head?_dropWhile_not (fun c : UInt8 => decide (c ≠ 61)) s
        rw [hdrop] at this
        simpa using this
      rw [hd] at hdrop
      rw [List.cons_append, ← hdrop, List.takeWhile_append_dropWhile]

/-- The last word of a line is the token with its value. -/
theorem argsOf_dtboText (hne : o.orderIdx ≠ []) (h : ∀ i ∈ o.orderIdx, i < MAX_OVERLAYS) :
    argsOf o.dtboText = [(DTBO_IDX, some (indexList o.orderIdx))] := by
  have hplain := dtboText_plain h
  have hquoted : isQuoted o.dtboText = false := rfl
  have hscan : scanWord (isQuoted o.dtboText) (unquoted o.dtboText) = (o.dtboText, []) := by
    rw [unquoted, hquoted]
    exact scanWord_plain hplain.noSpace hplain.noQuote
  rw [argsOf_eq hplain.ne_nil, nextArg_eq, hscan, hquoted]
  have hsplit : splitEquals o.dtboText = (DTBO_IDX, some (indexList o.orderIdx)) :=
    splitEquals_append (c := 97) (p := DTBO_IDX.tail) (by decide)
  obtain ⟨c, l, hlist⟩ := List.exists_cons_of_ne_nil (indexList_ne_nil hne)
  have hc : c ≠ 34 := by
    rintro rfl
    rcases indexList_chars h 34 (by simp [hlist]) with hdigit | hcomma
    · exact absurd hdigit (by decide)
    · exact absurd hcomma (by decide)
  have hword : wordArg false o.dtboText = (DTBO_IDX, some (indexList o.orderIdx)) := by
    unfold wordArg
    rw [hsplit, hlist]
    split
    · rename_i heq
      cases heq
    · rename_i heq
      cases heq
      exact absurd rfl hc
    · rename_i heq
      cases heq
      rfl
  rw [hword]
  rfl

theorem dropQuote_append {v : CStr} (hv : Plain v) (t : CStr) : dropQuote (t ++ v) = t ++ v := by
  have hlast : (t ++ v).getLast? ≠ some 34 := by
    rw [List.getLast?_append_of_ne_nil _ hv.ne_nil]
    intro h
    exact hv.noQuote (List.mem_of_getLast? h)
  rw [dropQuote, if_neg hlast]

/-- The blank does not stand in the name of the token. -/
theorem splitEquals_dtbo {z v x : CStr} (hz : z.getLast? = some 32) (h : splitEquals (z ++ v) = (DTBO_IDX, some x)) :
    ∃ t, x = t ++ 32 :: v := by
  obtain ⟨z, rfl⟩ := List.getLast?_eq_some_iff.mp hz
  have heq := splitEquals_some h
  rw [List.append_assoc, List.singleton_append] at heq
  rcases List.append_eq_append_iff.mp heq with ⟨l, hname, hl⟩ | ⟨l, rfl, hl⟩
  · have hblank : (32 : UInt8) ∉ DTBO_IDX := by decide
    cases l with
    | nil => cases hl
    | cons c l =>
      obtain rfl := (List.cons.inj hl).1
      exact absurd (by rw [hname]; simp) hblank
  · cases l with
    | nil => cases hl
    | cons c l => exact ⟨l, (List.cons.inj hl).2⟩

/-- A word in which the token stands behind a blank ends with the whole token. -/
theorem wordArg_append {v : CStr} (hv : Plain v) {q : Bool} {z y : CStr} (hz : z.getLast? = some 32)
    (h : wordArg q (z ++ v) = (DTBO_IDX, some y)) : ∃ t, y = t ++ v := by
  unfold wordArg at h
  split at h
  · exact absurd (Prod.mk.inj h).2 (by simp)
  · rename_i param value heq
    obtain ⟨rfl, hy⟩ := Prod.mk.inj h
    obtain ⟨t, ht⟩ := splitEquals_dtbo hz heq
    obtain rfl := Option.some.inj hy
    cases t with
    | nil => cases ht
    | cons c t =>
      obtain rfl : value = t ++ 32 :: v := (List.cons.inj ht).2
      refine ⟨t ++ [32], ?_⟩
      rw [List.append_cons, dropQuote_append hv]
  · rename_i param value hquote heq
    obtain ⟨rfl, hy⟩ := Prod.mk.inj h
    obtain ⟨t, rfl⟩ := splitEquals_dtbo hz heq
    obtain rfl := Option.some.inj hy
    refine ⟨t ++ [32], ?_⟩
    rw [List.append_cons, dropQuote_append hv]
    split_ifs <;> rfl

/-! ## What `add_dtbo_index` leaves -/

/-- The arguments that are not the token of the overlays, and those that are. -/
def others (args : List Arg) : List Arg := args.filter (·.1 ≠ DTBO_IDX)

def dtbos (args : List Arg) : List Arg := args.filter (·.1 = DTBO_IDX)

/-- The lists of indexes in a command line. -/
def oldLists (args : List Arg) : List CStr := ((dtbos args).filterMap (·.2)).filter (· ≠ [])

/-- The value that counts, and the text without the tokens of the overlays. -/
def dtboVals (args : List Arg) : Option CStr := (dtbos args).getLast?.bind (·.2)

def printed (args : List Arg) : CStr := (others args).flatMap printArg

/-- The arguments with the old lists and the new indexes in one token. -/
def merged (args : List Arg) (idxs : List ℕ) : List Arg :=
  if idxs = [] then args else others args ++ [(DTBO_IDX, some (joined (oldLists args) idxs))]

/-- The new command line has exactly one token, with the old indexes and then the new ones, and no other
argument has changed. -/
def OneToken (o : DtOverlays T) (bootargs : Option CStr) : Prop :=
  ∃ after, addDtboIndex o bootargs = some after ∧
    parseArgs (after.getD []) = merged (parseArgs (bootargs.getD [])) o.orderIdx ∧
    (dtbos (parseArgs (after.getD []))).length = 1

/-- The buffer of the new command line. -/
def cmdlineSize (o : DtOverlays T) (line : CStr) : ℕ := o.size * 3 + DTBO_IDX.length + line.length

theorem addDtboIndex_line (o : DtOverlays T) (line : CStr) : addDtboIndex o (some line) =
    if cmdlineSize o line < (printed (parseArgs line)).length + 1 then none
    else match dtboVals (parseArgs line), (if o.Listable then some o.dtboText else none) with
      | _, none => some (some line)
      | none, some value =>
        if cmdlineSize o line < (printed (parseArgs line) ++ value).length + 1 then none
        else some (some (printed (parseArgs line) ++ value))
      | some vals, some value =>
        if o.size * 3 + (DTBO_IDX ++ [61]).length < (value ++ [44] ++ vals).length + 1 then none
        else if cmdlineSize o line < (printed (parseArgs line) ++ (value ++ [44] ++ vals)).length + 1 then none
        else some (some line) := by
  unfold addDtboIndex
  rw [assembleDtboIdxString_eq]
  change (if cmdlineSize o line < (printed (parseArgs line)).length + 1 then _ else _) = _
  split
  · rfl
  · change (match dtboVals (parseArgs line), (if o.Listable then some o.dtboText else none) with
      | _, none => _
      | none, some value => _
      | some vals, some value => _) = _
    split
    · rfl
    · rename_i value _ _
      by_cases hroom : cmdlineSize o line < (printed (parseArgs line) ++ value).length + 1
      · exact (if_pos hroom).trans (if_pos hroom).symm
      · exact (if_neg hroom).trans (if_neg hroom).symm
    · rename_i vals value _ _
      by_cases hvalue : o.size * 3 + (DTBO_IDX ++ [61]).length < (value ++ [44] ++ vals).length + 1
      · exact (if_pos hvalue).trans (if_pos hvalue).symm
      · refine (if_neg hvalue).trans (Eq.trans ?_ (if_neg hvalue).symm)
        by_cases hroom : cmdlineSize o line < (printed (parseArgs line) ++ (value ++ [44] ++ vals)).length + 1
        · exact (if_pos hroom).trans (if_pos hroom).symm
        · exact (if_neg hroom).trans (if_neg hroom).symm

theorem addDtboIndex_kept {line : CStr} (h : ¬ o.Listable) : addDtboIndex o (some line) =
    if cmdlineSize o line < (printed (parseArgs line)).length + 1 then none else some (some line) := by
  rw [addDtboIndex_line, if_neg h]

theorem addDtboIndex_written {line : CStr} (h : o.Listable) (hvals : dtboVals (parseArgs line) = none) :
    addDtboIndex o (some line) = if cmdlineSize o line < (printed (parseArgs line) ++ o.dtboText).length + 1 then none
      else some (some (printed (parseArgs line) ++ o.dtboText)) := by
  rw [addDtboIndex_line, if_pos h, hvals]
  simp only [List.length_append]
  split_ifs with hprinted hall
  · rfl
  · omega
  · rfl
  · rfl

theorem addDtboIndex_old {line vals : CStr} (h : o.Listable) (hvals : dtboVals (parseArgs line) = some vals)
    {after : Option CStr} (hafter : addDtboIndex o (some line) = some after) : after = some line := by
  rw [addDtboIndex_line, if_pos h, hvals] at hafter
  simp only at hafter
  split_ifs at hafter
  exact (Option.some.inj hafter).symm

theorem printed_last (args : List Arg) : printed args = [] ∨ (printed args).getLast? = some 32 := by
  unfold printed
  rcases List.eq_nil_or_concat (others args) with hnil | ⟨l, a, hargs⟩
  · exact Or.inl (by rw [hnil]; rfl)
  · have hlast : (printArg a).getLast? = some 32 := by
      rw [List.getLast?_eq_some_iff]
      obtain ⟨param, _ | value⟩ := a
      · exact ⟨param, rfl⟩
      · simp only [printArg]
        split_ifs
        · exact ⟨param ++ [61, 34] ++ value ++ [34], by simp⟩
        · exact ⟨param ++ [61] ++ value, rfl⟩
    have hne : printArg a ≠ [] := by
      intro h
      rw [h] at hlast
      cases hlast
    right
    rw [hargs, List.concat_eq_append, List.flatMap_append, List.flatMap_singleton,
      List.getLast?_append_of_ne_nil _ hne, hlast]

theorem dtbos_others_append (args : List Arg) (value : Option CStr) :
    dtbos (others args ++ [(DTBO_IDX, value)]) = [(DTBO_IDX, value)] := by
  unfold dtbos others
  rw [List.filter_append, List.filter_filter]
  simp

/-- With new indexes a command line does not stay as it is. -/
theorem merged_ne (args : List Arg) {idxs : List ℕ} (h : idxs ≠ []) : args ≠ merged args idxs := by
  intro heq
  rw [merged, if_neg h, joined_eq _ h] at heq
  have hdtbos := congrArg dtbos heq
  rw [dtbos_others_append] at hdtbos
  have hlen := List.length_pos_iff.mpr (indexList_ne_nil h)
  have hold : oldLists args = [(oldLists args).flatMap (· ++ [44]) ++ indexList idxs] := by
    conv_lhs => rw [oldLists, hdtbos]
    simp [indexList_ne_nil h]
  have hlength := congrArg (fun l => (l.flatMap (· ++ [44])).length) hold
  simp only [List.flatMap_singleton, List.length_append, List.length_singleton] at hlength
  omega

/-- The token behind the printed arguments: the line is read as it should be if and only if the printed
arguments are. -/
theorem parseArgs_printed_iff (hlist : o.Listable) (args : List Arg) :
    parseArgs (printed args ++ o.dtboText) = merged args o.orderIdx ↔
      oldLists args = [] ∧ parseArgs (printed args) = others args ∧ Even ((printed args).count 34) := by
  obtain ⟨hne, hall⟩ := hlist
  have hplain := dtboText_plain hall
  obtain ⟨heven, hodd⟩ := parseArgs_append hplain (printed_last args)
  rw [argsOf_dtboText hne hall] at heven
  rw [merged, if_neg hne, joined_eq _ hne]
  constructor
  · intro h
    by_cases hparity : Even ((printed args).count 34)
    · rw [heven hparity] at h
      obtain ⟨hargs, htoken⟩ := List.append_inj' h rfl
      have hvalue : indexList o.orderIdx = (oldLists args).flatMap (· ++ [44]) ++ indexList o.orderIdx := by
        simpa using htoken
      have hnil : (oldLists args).flatMap (· ++ [44]) = [] := by
        have := congrArg List.length hvalue
        rw [List.length_append] at this
        exact List.length_eq_zero_iff.mp (by omega)
      refine ⟨?_, hargs, hparity⟩
      cases hold : oldLists args with
      | nil => rfl
      | cons t old => simp [hold] at hnil
    · obtain ⟨l, q, z, hargs, hz⟩ := hodd hparity
      rw [hargs] at h
      obtain ⟨-, htoken⟩ := List.append_inj' h rfl
      obtain ⟨t, ht⟩ := wordArg_append hplain hz (List.singleton_inj.mp htoken)
      -- the value would end with the name of the token, where a comma stands
      have hname : (oldLists args).flatMap (· ++ [44]) = t ++ DTBO_IDX ++ [61] := by
        have hsame : (oldLists args).flatMap (· ++ [44]) ++ indexList o.orderIdx =
            t ++ DTBO_IDX ++ [61] ++ indexList o.orderIdx := by
          rw [ht, DtOverlays.dtboText]
          simp
        exact List.append_cancel_right hsame
      rcases List.eq_nil_or_concat (oldLists args) with hold | ⟨old, u, hold⟩
      · rw [hold] at hname
        simp at hname
      · rw [hold, List.concat_eq_append, List.flatMap_append, List.flatMap_singleton, ← List.append_assoc] at hname
        have := (List.append_inj' hname rfl).2
        exact absurd this (by decide)
  · rintro ⟨hold, hargs, hparity⟩
    rw [heven hparity, hargs, hold]
    rfl

/-! ## Lines without quotes -/

theorem printArg_wordArg {w : CStr} (hw : Plain w) : printArg (wordArg false w) = w ++ [32] := by
  have hblank : (32 : UInt8) ∉ w := fun h => absurd (hw.noSpace 32 h) (by decide)
  unfold wordArg
  split
  · rfl
  · rename_i param value heq
    have := splitEquals_some heq
    exact absurd (by rw [this]; simp) hw.noQuote
  · rename_i param value _ heq
    have hsplit := splitEquals_some heq
    have hvalue : (32 : UInt8) ∉ value := fun h => hblank (by rw [hsplit]; simp [h])
    simp [printArg, hvalue, hsplit]

theorem scanWord_word {w : CStr} (hw : Plain w) (s : CStr) : scanWord false (w ++ 32 :: s) = (w, 32 :: s) := by
  have hspace := hw.noSpace
  have hquote := hw.noQuote
  clear hw
  induction w with
  | nil => rfl
  | cons c w ih =>
    obtain ⟨hc, hw⟩ := not_or.mp (mt List.mem_cons.mpr hquote)
    rw [List.cons_append, scanWord_cons, if_neg (by simp [hspace c List.mem_cons_self]), toggle,
      if_neg (Ne.symm hc), ih (fun d hd => hspace d (List.mem_cons_of_mem _ hd)) hw]

theorem argsOf_word {w : CStr} (hw : Plain w) (s : CStr) :
    argsOf (w ++ 32 :: s) = wordArg false w :: argsOf (skipSpaces s) := by
  have hquoted : isQuoted (w ++ 32 :: s) = false := by
    obtain ⟨c, w, rfl⟩ := List.exists_cons_of_ne_nil hw.ne_nil
    have := hw.noQuote
    simp only [List.mem_cons, not_or] at this
    simpa [isQuoted] using Ne.symm this.1
  have hscan : scanWord (isQuoted (w ++ 32 :: s)) (unquoted (w ++ 32 :: s)) = (w, 32 :: s) := by
    rw [unquoted, hquoted]
    exact scanWord_word hw s
  rw [argsOf_eq (by simp), nextArg_eq, hscan, hquoted]
  rfl

theorem skipSpaces_word {w : CStr} (hw : Plain w) (s : CStr) : skipSpaces (w ++ s) = w ++ s := by
  obtain ⟨c, w, rfl⟩ := List.exists_cons_of_ne_nil hw.ne_nil
  simp [skipSpaces, hw.noSpace c List.mem_cons_self]

/-- Words with a blank behind each of them. -/
theorem parseArgs_words {ws : List CStr} (h : ∀ w ∈ ws, Plain w) :
    parseArgs (ws.flatMap (· ++ [32])) = ws.map (wordArg false) := by
  rw [parseArgs_eq]
  induction ws with
  | nil => rfl
  | cons w ws ih =>
    have hw := h w List.mem_cons_self
    rw [List.flatMap_cons, List.append_assoc, skipSpaces_word hw, List.singleton_append, argsOf_word hw,
      ih fun v hv => h v (List.mem_cons_of_mem _ hv)]
    rfl

theorem scanWord_noSpace {s : CStr} (h : (34 : UInt8) ∉ s) : ∀ c ∈ (scanWord false s).1, isspace c = false := by
  induction s with
  | nil => simp [scanWord]
  | cons c s ih =>
    obtain ⟨hc, hs⟩ := not_or.mp (mt List.mem_cons.mpr h)
    rw [scanWord_cons, toggle, if_neg (Ne.symm hc)]
    split_ifs with hend
    · simp
    · intro d hd
      rcases List.mem_cons.mp hd with rfl | hd
      · simpa using hend
      · exact ih hs d hd

/-- Without quotes, a line is a list of words. -/
theorem exists_words {line : CStr} (h : (34 : UInt8) ∉ line) :
    ∃ ws : List CStr, (∀ w ∈ ws, Plain w) ∧ parseArgs line = ws.map (wordArg false) := by
  rw [parseArgs_eq]
  induction hn : line.length using Nat.strong_induction_on generalizing line with
  | _ n ih =>
    cases hskip : skipSpaces line with
    | nil => exact ⟨[], by simp, rfl⟩
    | cons c s =>
      have hc : isspace c = false := by
        have := List.head?_dropWhile_not isspace line
        rw [show line.dropWhile isspace = c :: s from hskip] at this
        simpa using this
      have hquote : (34 : UInt8) ∉ c :: s := by
        rw [← hskip]
        exact fun hmem => h ((List.dropWhile_sublist _).subset hmem)
      have hquoted : isQuoted (c :: s) = false := by
        simpa [isQuoted] using Ne.symm (not_or.mp (mt List.mem_cons.mpr hquote)).1
      have hscan := scanWord_append false (c :: s)
      have hspace := scanWord_noSpace hquote
      have hword : (scanWord false (c :: s)).1 ≠ [] := by
        rw [scanWord_cons, if_neg (by simp [hc])]
        simp
      have hle := length_skipSpaces_le line
      rw [argsOf_eq (by simp), nextArg_eq, unquoted, hquoted, if_neg Bool.false_ne_true]
      generalize scanWord false (c :: s) = r at hscan hspace hword
      have hsub : ∀ d ∈ r.1 ++ r.2, d ≠ 34 := by
        rw [hscan]
        exact fun d hd hd34 => hquote (hd34 ▸ hd)
      have hlength : r.2.tail.length < n := by
        have := congrArg List.length hscan
        have := List.length_pos_iff.mpr hword
        rw [List.length_append] at *
        rw [hskip] at hle
        rw [List.length_tail]
        omega
      obtain ⟨ws, hws, hargs⟩ := ih _ hlength
        (fun hmem => hsub 34 (List.mem_append_right _ (List.mem_of_mem_tail hmem)) rfl) rfl
      refine ⟨r.1 :: ws, ?_, by rw [List.map_cons, ← hargs]⟩
      intro w hw
      rcases List.mem_cons.mp hw with rfl | hw
      · exact ⟨hword, hspace, fun hmem => hsub 34 (List.mem_append_left _ hmem) rfl⟩
      · exact hws w hw

/-- A line without quotes is printed as it is read. -/
theorem printed_noQuote {line : CStr} (h : (34 : UInt8) ∉ line) :
    parseArgs (printed (parseArgs line)) = others (parseArgs line) ∧ (printed (parseArgs line)).count 34 = 0 := by
  obtain ⟨ws, hws, hargs⟩ := exists_words h
  let kept := ws.filter fun w => (wordArg false w).1 ≠ DTBO_IDX
  have hkept : ∀ w ∈ kept, Plain w := fun w hw => hws w (List.mem_of_mem_filter hw)
  have hothers : others (parseArgs line) = kept.map (wordArg false) := by
    rw [hargs, others, List.filter_map]
    rfl
  have hprinted : printed (parseArgs line) = kept.flatMap (· ++ [32]) := by
    rw [printed, hothers, List.flatMap_map]
    exact List.flatMap_congr fun w hw => printArg_wordArg (hkept w hw)
  refine ⟨by rw [hprinted, hothers, parseArgs_words hkept], ?_⟩
  rw [hprinted, List.count_eq_zero]
  intro hmem
  obtain ⟨w, hw, hmem⟩ := List.mem_flatMap.mp hmem
  rcases List.mem_append.mp hmem with hmem | hmem
  · exact (hkept w hw).noQuote hmem
  · simp at hmem

/-- When one token with all the indexes results. -/
def Mergeable (o : DtOverlays T) : Option CStr → Prop
  | none => o.Listable
  | some line =>
    (o.orderIdx = [] ∧ (dtbos (parseArgs line)).length = 1 ∧
        (printed (parseArgs line)).length + 1 ≤ cmdlineSize o line) ∨
      (o.Listable ∧ dtboVals (parseArgs line) = none ∧ oldLists (parseArgs line) = [] ∧
        parseArgs (printed (parseArgs line)) = others (parseArgs line) ∧
        Even ((printed (parseArgs line)).count 34) ∧
        (printed (parseArgs line) ++ o.dtboText).length + 1 ≤ cmdlineSize o line)

theorem oneToken_none (o : DtOverlays T) : OneToken o none ↔ o.Listable := by
  have hadd : addDtboIndex o none = assembleDtboIdxString o := rfl
  unfold OneToken
  rw [hadd, assembleDtboIdxString_eq]
  constructor
  · rintro ⟨after, hafter, -, hone⟩
    by_contra hnot
    rw [if_neg hnot] at hafter
    cases hafter
    exact absurd hone (by decide)
  · intro h
    have hplain := dtboText_plain h.2
    have hargs : parseArgs o.dtboText = [(DTBO_IDX, some (indexList o.orderIdx))] := by
      rw [parseArgs_eq, skipSpaces_plain hplain, argsOf_dtboText h.1 h.2]
    refine ⟨some o.dtboText, by rw [if_pos h], ?_, ?_⟩
    · rw [Option.getD_some, hargs, merged, if_neg h.1]
      rfl
    · rw [Option.getD_some, hargs]
      rfl

theorem oneToken_some (o : DtOverlays T) (line : CStr) : OneToken o (some line) ↔ Mergeable o (some line) := by
  unfold OneToken Mergeable
  rw [Option.getD_some]
  by_cases hlist : o.Listable
  · cases hvals : dtboVals (parseArgs line) with
    | none =>
      rw [addDtboIndex_written hlist hvals]
      constructor
      · rintro ⟨after, hafter, hargs, -⟩
        split_ifs at hafter with hroom
        cases hafter
        obtain ⟨hold, hothers, heven⟩ := (parseArgs_printed_iff hlist _).mp hargs
        exact Or.inr ⟨hlist, hvals, hold, hothers, heven, by omega⟩
      · rintro (⟨hnil, -⟩ | ⟨-, -, hold, hothers, heven, hroom⟩)
        · exact absurd hnil hlist.1
        · have hargs := (parseArgs_printed_iff hlist _).mpr ⟨hold, hothers, heven⟩
          refine ⟨_, if_neg (by omega), hargs, ?_⟩
          rw [Option.getD_some, hargs, merged, if_neg hlist.1, dtbos_others_append]
          rfl
    | some vals =>
      constructor
      · rintro ⟨after, hafter, hargs, -⟩
        obtain rfl := addDtboIndex_old hlist hvals hafter
        exact absurd hargs (merged_ne _ hlist.1)
      · rintro (⟨hnil, -⟩ | ⟨-, hnone, -⟩)
        · exact absurd hnil hlist.1
        · exact absurd (hvals.symm.trans hnone) (by simp)
  · rw [addDtboIndex_kept hlist]
    constructor
    · rintro ⟨after, hafter, hargs, hone⟩
      split_ifs at hafter with hroom
      cases hafter
      by_cases hnil : o.orderIdx = []
      · exact Or.inl ⟨hnil, hone, by omega⟩
      · exact absurd hargs (merged_ne _ hnil)
    · rintro (⟨hnil, hone, hroom⟩ | ⟨hlist', -⟩)
      · refine ⟨_, if_neg (by omega), ?_, hone⟩
        rw [Option.getD_some, merged, if_pos hnil]
      · exact absurd hlist' hlist

end RCar.DeviceTree
