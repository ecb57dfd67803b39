import RCarM3N.Lib.Text
import RCarM3N.Model.Cr7Printf

/-! Both formatters of the CR7 loader give what the format says, except for a format that ends with a percent sign that
begins a conversion: there they go on behind the end of the format. -/

namespace RCar.Cr7Printf

/-! ## What is to be printed -/

def decimalText (z : ℤ) : List UInt8 :=
  if z < 0 then char '-' :: numberText 10 z.natAbs else numberText 10 z.natAbs

/-- Eight hexadecimal digits. -/
def hexText (n : ℕ) : List UInt8 := (numberText 16 n).leftpad 8 (char '0')

/-- The characters that take an argument: a word, or a string. -/
def takesWord (c : UInt8) : Prop := c = char 'i' ∨ c = char 'd' ∨ c = char 'x' ∨ c = char 'u'

instance (c : UInt8) : Decidable (takesWord c) := inferInstanceAs (Decidable (_ ∨ _))

def argText (c : UInt8) : List Arg → List UInt8
  | .word w :: _ =>
    if c = char 'i' ∨ c = char 'd' then decimalText w.toInt32.toInt
    else if c = char 'x' then hexText w.toNat
    else if c = char 'u' then numberText 10 w.toNat
    else []
  | .str s :: _ => if c = char 's' then s else []
  | [] => []

/-- The arguments behind a conversion. -/
def argRest (c : UInt8) (args : List Arg) : List Arg := if takesWord c ∨ c = char 's' then args.tail else args

/-- The next argument has the type of the conversion. -/
def ArgFits (c : UInt8) (args : List Arg) : Prop :=
  (takesWord c → ∃ w rest, args = .word w :: rest) ∧ (c = char 's' → ∃ s rest, args = .str s :: rest)

/-- What a format gives with its arguments; a percent sign at its end gives nothing. -/
def formatted : List UInt8 → List Arg → List UInt8
  | [], _ => []
  | [c], _ => if c = char '%' then [] else [c]
  | c :: k :: l, args =>
    if c = char '%' then argText k args ++ formatted l (argRest k args) else c :: formatted (k :: l) args

/-- The arguments match the format. -/
def Matching : List UInt8 → List Arg → Prop
  | [], _ => True
  | [_], _ => True
  | c :: k :: l, args =>
    if c = char '%' then ArgFits k args ∧ Matching l (argRest k args) else Matching (k :: l) args

/-- The format ends with a percent sign that begins a conversion. -/
def dangling : List UInt8 → Bool
  | [] => false
  | [c] => c = char '%'
  | c :: k :: l => if c = char '%' then dangling l else dangling (k :: l)

/-- A string with its end at an address. -/
def CString (mem : Mem) (a : ℕ) : List UInt8 → Prop
  | [] => mem a = 0
  | c :: l => mem a = c ∧ c ≠ 0 ∧ CString mem (a + 1) l

variable {room i dst : ℕ} {num : UInt32} {c : UInt8} {l : List UInt8} {args : List Arg} {buf mem : Mem} {console : List UInt8}

theorem formatted_char (h : c ≠ char '%') : formatted (c :: l) args = c :: formatted l args := by
  cases l with
  | nil => simp [formatted, h]
  | cons k l => rw [formatted, if_neg h]

theorem matching_char (h : c ≠ char '%') : Matching (c :: l) args ↔ Matching l args := by
  cases l with
  | nil => exact Iff.rfl
  | cons k l => rw [Matching, if_neg h]

theorem dangling_char (h : c ≠ char '%') : dangling (c :: l) = dangling l := by
  cases l with
  | nil => simp [dangling, h]
  | cons k l => rw [dangling, if_neg h]

/-! ## Digits -/

theorem digitChar_toUInt8 {d : ℕ} (h : d < 16) :
    (Nat.digitChar d).toNat.toUInt8 = if 10 ≤ d then (d + 87).toUInt8 else (d + 48).toUInt8 := by
  interval_cases d <;> rfl

theorem numberText_step {base n : ℕ} (hb : 1 < base) : numberText base n =
    (if n < base then [] else numberText base (n / base)) ++ [(Nat.digitChar (n % base)).toNat.toUInt8] := by
  unfold numberText
  rw [Nat.toDigits_eq_if hb]
  split_ifs with h
  · simp [Nat.mod_eq_of_lt h]
  · simp

/-- The loop leaves the digits, the last one first, and ten places are enough for them. -/
theorem numBuf_eq (hroom : 0 < room) (h : num.toNat < 10 ^ room) : numBuf room num = some (numberText 10 num.toNat).reverse := by
  induction room generalizing num with
  | zero => exact absurd hroom (lt_irrefl 0)
  | succ room ih =>
    have hmod : (num % 10).toNat = num.toNat % 10 := UInt32.toNat_mod num 10
    have hdiv : (num / 10).toNat = num.toNat / 10 := UInt32.toNat_div num 10
    have hdigit : (48 + num % 10).toUInt8 = (Nat.digitChar (num.toNat % 10)).toNat.toUInt8 := by
      rw [digitChar_toUInt8 (by omega), if_neg (by omega)]
      apply UInt8.toNat_inj.mp
      rw [UInt32.toNat_toUInt8, UInt32.toNat_add, hmod, Nat.toUInt8, UInt8.toNat_ofNat']
      change (48 + num.toNat % 10) % 2 ^ 32 % 2 ^ 8 = _
      omega
    have hless : num / 10 < 1 ↔ num.toNat < 10 := by
      rw [UInt32.lt_iff_toNat_lt, hdiv]
      change num.toNat / 10 < 1 ↔ _
      omega
    rw [numBuf, hdigit, numberText_step (by decide)]
    by_cases hlast : num.toNat < 10
    · rw [if_pos (hless.mpr hlast), if_pos hlast]
      rfl
    · rw [if_neg (mt hless.mp hlast), if_neg hlast, ih ?_ ?_, hdiv]
      · simp
      · rw [Nat.pos_iff_ne_zero]
        rintro rfl
        exact hlast (by simpa using h)
      · rw [hdiv]
        rw [Nat.pow_succ] at h
        omega

theorem numBuf_ten (num : UInt32) : numBuf 10 num = some (numberText 10 num.toNat).reverse :=
  numBuf_eq (by decide) (num.toNat_lt.trans (by decide))

/-- A number in `k + 1` digits is its number of all but the last in `k` digits, and the last. -/
theorem leftpad_step {base n k : ℕ} (hb : 1 < base) (hk : 0 < k) :
    (numberText base n).leftpad (k + 1) (char '0') =
      (numberText base (n / base)).leftpad k (char '0') ++ [(Nat.digitChar (n % base)).toNat.toUInt8] := by
  rw [numberText_step hb]
  split_ifs with h
  · have hzero : numberText base 0 = [char '0'] := by
      rw [numberText, Nat.toDigits_of_lt_base (by omega)]
      rfl
    rw [Nat.div_eq_of_lt h, hzero]
    obtain ⟨j, rfl⟩ := Nat.exists_eq_succ_of_ne_zero hk.ne'
    simp [List.leftpad, List.replicate_succ']
  · simp [List.leftpad]

theorem hexText_eq {k n : ℕ} (hk : 0 < k) (h : n < 16 ^ k) : (numberText 16 n).leftpad k (char '0') =
    (List.range k).map fun i => (Nat.digitChar (n / 16 ^ (k - 1 - i) % 16)).toNat.toUInt8 := by
  induction k generalizing n with
  | zero => exact absurd hk (lt_irrefl 0)
  | succ k ih =>
    by_cases hk0 : k = 0
    · subst hk0
      have hlt : n < 16 := by simpa using h
      rw [numberText, Nat.toDigits_of_lt_base hlt]
      simp [List.leftpad, Nat.mod_eq_of_lt hlt]
    · rw [leftpad_step (by decide) (Nat.pos_of_ne_zero hk0), ih (Nat.pos_of_ne_zero hk0) (by rw [Nat.pow_succ] at h; omega),
        List.range_succ, List.map_append, List.map_singleton]
      congr 1
      · apply List.map_congr_left
        intro i hi
        have hi := List.mem_range.mp hi
        rw [Nat.div_div_eq_div_mul, ← Nat.pow_succ', show k + 1 - 1 - i = (k - 1 - i).succ by omega]
      · simp

theorem hexChar_eq (num : UInt32) (hi : i < 8) :
    hexChar num i = (Nat.digitChar (num.toNat / 16 ^ (7 - i) % 16)).toNat.toUInt8 := by
  have hshift : (UInt32.ofNat ((7 - i) * 4)).toNat % 32 = (7 - i) * 4 := by
    rw [UInt32.toNat_ofNat']
    omega
  have hnibble : ((num >>> UInt32.ofNat ((7 - i) * 4) &&& 0x0F).toUInt8).toNat = num.toNat / 16 ^ (7 - i) % 16 := by
    rw [UInt32.toNat_toUInt8, UInt32.toNat_and, UInt32.toNat_shiftRight, hshift, Nat.shiftRight_eq_div_pow, Nat.mul_comm,
      Nat.pow_mul]
    change (_ &&& 2 ^ 4 - 1) % 2 ^ 8 = _
    rw [Nat.and_two_pow_sub_one_eq_mod]
    exact Nat.mod_eq_of_lt ((Nat.mod_lt _ (by decide)).trans (by decide))
  have hlt : num.toNat / 16 ^ (7 - i) % 16 < 16 := Nat.mod_lt _ (by decide)
  unfold hexChar
  generalize (num >>> UInt32.ofNat ((7 - i) * 4) &&& 0x0F).toUInt8 = c at *
  obtain rfl : c = UInt8.ofNat (num.toNat / 16 ^ (7 - i) % 16) := by rw [← hnibble, UInt8.ofNat_toNat]
  generalize num.toNat / 16 ^ (7 - i) % 16 = d at *
  interval_cases d <;> rfl

theorem hexChars_eq (num : UInt32) : (List.range 8).map (hexChar num) = hexText num.toNat := by
  rw [hexText, hexText_eq (by decide) (show num.toNat < 16 ^ 8 from num.toNat_lt)]
  exact List.map_congr_left fun i hi => hexChar_eq num (List.mem_range.mp hi)

theorem neg_iff {num : Int32} : num < 0 ↔ num.toInt < 0 := Int32.lt_iff_toInt_lt

/-- The negation of the most negative number is itself, and right as an unsigned word. -/
theorem toNat_neg_toUInt32 {num : Int32} (h : num < 0) : (-num).toUInt32.toNat = num.toInt.natAbs := by
  have hneg : num.toBitVec.toInt < 0 := neg_iff.mp h
  change (-num.toBitVec).toNat = num.toBitVec.toInt.natAbs
  rw [BitVec.toInt_eq_toNat_cond] at hneg ⊢
  rw [BitVec.toNat_neg]
  have hlt := num.toBitVec.isLt
  split_ifs at hneg ⊢
  · omega
  · omega

theorem toNat_toUInt32_of_not_neg {num : Int32} (h : ¬ num < 0) : num.toUInt32.toNat = num.toInt.natAbs := by
  have hpos : ¬ num.toBitVec.toInt < 0 := mt neg_iff.mpr h
  change num.toBitVec.toNat = num.toBitVec.toInt.natAbs
  rw [BitVec.toInt_eq_toNat_cond] at hpos ⊢
  split_ifs at hpos ⊢
  · omega
  · omega

theorem ofNat_succ (n : ℕ) : 1 + UInt32.ofNat n = UInt32.ofNat (n + 1) := by
  rw [UInt32.ofNat_add]
  exact UInt32.add_comm _ _

/-! ## Characters to the console -/

theorem foldl_putc (l : List UInt8) (s : UInt32 × List UInt8) :
    l.foldl putc s = (s.1 + UInt32.ofNat l.length, s.2 ++ l) := by
  induction l generalizing s with
  | nil => simp
  | cons c l ih =>
    rw [List.foldl_cons, ih, putc, UInt32.add_assoc, ofNat_succ]
    simp

theorem uint32Print_eq (num : UInt32) (console : List UInt8) : uint32Print num console =
    some (UInt32.ofNat (numberText 10 num.toNat).length, console ++ numberText 10 num.toNat) := by
  rw [uint32Print, numBuf_ten, Option.map_some, List.reverse_reverse, foldl_putc]
  simp

theorem int32Print_eq (num : Int32) (console : List UInt8) : int32Print num console =
    some (UInt32.ofNat (decimalText num.toInt).length, console ++ decimalText num.toInt) := by
  unfold int32Print decimalText
  by_cases h : num < 0
  · rw [if_pos h, if_pos (neg_iff.mp h)]
    simp only [uint32Print_eq, toNat_neg_toUInt32 h, Option.map_some]
    simp [ofNat_succ]
  · rw [if_neg h, if_neg (mt neg_iff.mpr h)]
    simp only [uint32Print_eq, toNat_toUInt32_of_not_neg h, Option.map_some]
    simp

theorem uint32HexPrint_eq (num : UInt32) (console : List UInt8) : uint32HexPrint num console =
    (UInt32.ofNat (hexText num.toNat).length, console ++ hexText num.toNat) := by
  rw [uint32HexPrint, ← List.foldl_map (f := hexChar num) (g := putc), hexChars_eq, foldl_putc]
  simp

theorem strPrint_eq (str console : List UInt8) : strPrint str console = (UInt32.ofNat str.length, console ++ str) := by
  rw [strPrint, foldl_putc]
  simp

/-! ## Characters to a buffer -/

theorem foldl_put (dst : ℕ) (l : List UInt8) (s : UInt32 × Mem) (h : s.1.toNat + l.length < 2 ^ 32) :
    l.foldl (put dst) s = (s.1 + UInt32.ofNat l.length, s.2.put (dst + s.1.toNat) l) := by
  induction l generalizing s with
  | nil => simp
  | cons c l ih =>
    rw [List.length_cons] at h
    have hnext : (s.1 + 1).toNat = s.1.toNat + 1 := by
      rw [UInt32.toNat_add]
      exact Nat.mod_eq_of_lt (by change s.1.toNat + 1 < _; omega)
    have hput : Mem.put (Function.update s.2 (dst + s.1.toNat) c) (dst + s.1.toNat + 1) l =
        s.2.put (dst + s.1.toNat) (c :: l) := by
      rw [← Mem.put_singleton]
      exact Mem.put_append s.2 (dst + s.1.toNat) [c] l
    rw [List.foldl_cons, put, ih _ (by rw [hnext]; omega), hnext, ← Nat.add_assoc, hput, UInt32.add_assoc, ofNat_succ]
    rfl

theorem length_numberText_lt (num : UInt32) : (numberText 10 num.toNat).length ≤ 10 :=
  (length_numberText_le_iff (by decide) (by decide)).mpr (num.toNat_lt.trans (by decide))

theorem uint32Sprint_eq (num : UInt32) (dst : ℕ) (buf : Mem) : uint32Sprint num dst buf =
    some (UInt32.ofNat (numberText 10 num.toNat).length, buf.put dst (numberText 10 num.toNat)) := by
  have hlen := length_numberText_lt num
  rw [uint32Sprint, numBuf_ten, Option.map_some, List.reverse_reverse,
    foldl_put _ _ _ (by rw [UInt32.toNat_zero]; omega)]
  simp

theorem int32Sprint_eq (num : Int32) (dst : ℕ) (buf : Mem) : int32Sprint num dst buf =
    some (UInt32.ofNat (decimalText num.toInt).length, buf.put dst (decimalText num.toInt)) := by
  unfold int32Sprint decimalText
  by_cases h : num < 0
  · rw [if_pos h, if_pos (neg_iff.mp h)]
    simp only [uint32Sprint_eq, toNat_neg_toUInt32 h, Option.map_some, ofNat_succ]
    rw [← Mem.put_singleton]
    exact congrArg some (Prod.ext rfl (Mem.put_append buf dst [char '-'] _))
  · rw [if_neg h, if_neg (mt neg_iff.mpr h)]
    simp only [uint32Sprint_eq, toNat_toUInt32_of_not_neg h, Option.map_some]
    simp

theorem uint32HexSprint_eq (num : UInt32) (dst : ℕ) (buf : Mem) : uint32HexSprint num dst buf =
    (UInt32.ofNat (hexText num.toNat).length, buf.put dst (hexText num.toNat)) := by
  have hlen : (hexText num.toNat).length = 8 := by rw [← hexChars_eq, List.length_map, List.length_range]
  rw [uint32HexSprint, ← List.foldl_map (f := hexChar num) (g := put dst), hexChars_eq, foldl_put _ _ _ (by simp [hlen])]
  simp

theorem strSprint_eq (str : List UInt8) (dst : ℕ) (buf : Mem) (h : str.length < 2 ^ 32) :
    strSprint str dst buf = (UInt32.ofNat str.length, buf.put dst str) := by
  rw [strSprint, foldl_put _ _ _ (by simpa using h)]
  simp

/-! ## Conversions -/

/-- The cases of the switch, with the argument and the text of each. -/
theorem conversion_cases (h : ArgFits c args) :
    ((c = char 'i' ∨ c = char 'd') ∧ ∃ w rest, args = .word w :: rest ∧ argRest c args = rest ∧
      argText c args = decimalText w.toInt32.toInt) ∨
    (c = char 's' ∧ ∃ str rest, args = .str str :: rest ∧ argRest c args = rest ∧ argText c args = str) ∨
    (c = char 'x' ∧ ∃ w rest, args = .word w :: rest ∧ argRest c args = rest ∧ argText c args = hexText w.toNat) ∨
    (c = char 'u' ∧ ∃ w rest, args = .word w :: rest ∧ argRest c args = rest ∧ argText c args = numberText 10 w.toNat) ∨
    (¬ takesWord c ∧ c ≠ char 's' ∧ argRest c args = args ∧ argText c args = []) := by
  by_cases hint : c = char 'i' ∨ c = char 'd'
  · have htakes : takesWord c := hint.imp_right Or.inl
    obtain ⟨w, rest, rfl⟩ := h.1 htakes
    exact Or.inl ⟨hint, w, rest, rfl, if_pos (Or.inl htakes), if_pos hint⟩
  by_cases hstr : c = char 's'
  · obtain ⟨str, rest, rfl⟩ := h.2 hstr
    exact Or.inr (Or.inl ⟨hstr, str, rest, rfl, if_pos (Or.inr hstr), if_pos hstr⟩)
  by_cases hhex : c = char 'x'
  · have htakes : takesWord c := Or.inr (Or.inr (Or.inl hhex))
    obtain ⟨w, rest, rfl⟩ := h.1 htakes
    refine Or.inr (Or.inr (Or.inl ⟨hhex, w, rest, rfl, if_pos (Or.inl htakes), ?_⟩))
    rw [argText, if_neg hint, if_pos hhex]
  by_cases huint : c = char 'u'
  · have htakes : takesWord c := Or.inr (Or.inr (Or.inr huint))
    obtain ⟨w, rest, rfl⟩ := h.1 htakes
    refine Or.inr (Or.inr (Or.inr (Or.inl ⟨huint, w, rest, rfl, if_pos (Or.inl htakes), ?_⟩)))
    rw [argText, if_neg hint, if_neg hhex, if_pos huint]
  · have htakes : ¬ takesWord c := by
      unfold takesWord
      rw [← or_assoc]
      simp [hint, hhex, huint]
    refine Or.inr (Or.inr (Or.inr (Or.inr ⟨htakes, hstr, if_neg (by simp [htakes, hstr]), ?_⟩)))
    match args with
    | [] => rfl
    | .word w :: rest => rw [argText, if_neg hint, if_neg hhex, if_neg huint]
    | .str str :: rest => exact if_neg hstr

theorem not_takesWord (h : ¬ takesWord c) : ¬ (c = char 'i' ∨ c = char 'd') ∧ c ≠ char 'x' ∧ c ≠ char 'u' := by
  unfold takesWord at h
  rw [← or_assoc] at h
  simpa [not_or] using h

namespace TfPrintf

theorem convert_eq (s : TfPrintf) (h : ArgFits c s.args) : s.convert c =
    some { s with
      args := argRest c s.args
      count := s.count + UInt32.ofNat (argText c s.args).length
      console := s.console ++ argText c s.args } := by
  unfold convert
  rcases conversion_cases h with ⟨hc, w, rest, hargs, hrest, htext⟩ | ⟨rfl, str, rest, hargs, hrest, htext⟩ |
    ⟨rfl, w, rest, hargs, hrest, htext⟩ | ⟨rfl, w, rest, hargs, hrest, htext⟩ | ⟨htakes, hstr, hrest, htext⟩
  · rw [if_pos hc, hrest, htext, hargs]
    simp only [int32Print_eq, Option.map_some, printed]
  · rw [if_neg (by decide), if_pos rfl, hrest, htext, hargs]
    simp only [strPrint_eq, printed]
  · rw [if_neg (by decide), if_neg (by decide), if_pos rfl, hrest, htext, hargs]
    simp only [uint32HexPrint_eq, printed]
  · rw [if_neg (by decide), if_neg (by decide), if_neg (by decide), if_pos rfl, hrest, htext, hargs]
    simp only [uint32Print_eq, Option.map_some, printed]
  · obtain ⟨hint, hhex, huint⟩ := not_takesWord htakes
    rw [if_neg hint, if_neg hstr, if_neg hhex, if_neg huint, hrest, htext]
    simp

theorem loop_nul {turns : ℕ} {s : TfPrintf} (h : mem s.fmt = 0) :
    loop mem (turns + 1) s = some { s with reads := s.reads ++ [s.fmt] } := by
  rw [loop]
  exact if_pos h

theorem loop_percent {turns : ℕ} {s : TfPrintf} (h : mem s.fmt = char '%') (hfits : ArgFits (mem (s.fmt + 1)) s.args) :
    loop mem (turns + 1) s = loop mem turns ⟨s.fmt + 2, argRest (mem (s.fmt + 1)) s.args,
      s.count + UInt32.ofNat (argText (mem (s.fmt + 1)) s.args).length,
      s.console ++ argText (mem (s.fmt + 1)) s.args, s.reads ++ [s.fmt, s.fmt + 1]⟩ := by
  have hconvert := convert_eq ⟨s.fmt + 1, s.args, s.count, s.console, s.reads ++ [s.fmt, s.fmt + 1]⟩ hfits
  rw [loop]
  simp only [h, List.append_assoc, List.singleton_append, if_true]
  rw [if_neg (by decide), hconvert]

theorem loop_char {turns : ℕ} {s : TfPrintf} (h : mem s.fmt ≠ 0) (hc : mem s.fmt ≠ char '%') : loop mem (turns + 1) s =
    loop mem turns ⟨s.fmt + 1, s.args, s.count + 1, s.console ++ [mem s.fmt], s.reads ++ [s.fmt]⟩ := by
  rw [loop]
  simp only [if_neg h, if_neg hc]

/-- A format that ends well is printed, and read up to its end alone. -/
theorem loop_spec {turns : ℕ} (s : TfPrintf) (hl : CString mem s.fmt l) (hend : dangling l = false)
    (hargs : Matching l s.args) (hturns : l.length < turns) : ∃ s', loop mem turns s = some s' ∧
      s'.console = s.console ++ formatted l s.args ∧ ∀ r ∈ s'.reads, r ∈ s.reads ∨ r ≤ s.fmt + l.length := by
  induction turns generalizing s l with
  | zero => exact absurd hturns (Nat.not_lt_zero _)
  | succ turns ih =>
    match l with
    | [] =>
      refine ⟨_, loop_nul hl, by simp [formatted], ?_⟩
      simp +contextual [or_imp]
    | c :: l =>
      obtain ⟨rfl, hc, hl⟩ := hl
      by_cases hpct : mem s.fmt = char '%'
      · rw [hpct] at hend hargs ⊢
        match l with
        | [] => cases hend
        | k :: l =>
          obtain ⟨rfl, hk, hl⟩ := hl
          obtain ⟨hfits, hargs⟩ := hargs
          rw [loop_percent hpct hfits]
          obtain ⟨s', hs', hconsole, hreads⟩ := ih ⟨s.fmt + 2, argRest (mem (s.fmt + 1)) s.args, _, _, _⟩ hl hend hargs
            (by simp at hturns; omega)
          refine ⟨s', hs', by rw [hconsole]; simp [formatted], ?_⟩
          intro r hr
          have hread := hreads r hr
          simp at hread ⊢
          grind
      · obtain ⟨s', hs', hconsole, hreads⟩ := ih ⟨s.fmt + 1, s.args, _, _, _⟩ hl (dangling_char hpct ▸ hend)
          ((matching_char hpct).mp hargs) (by simp at hturns; omega)
        rw [loop_char hc hpct, formatted_char hpct]
        refine ⟨s', hs', by rw [hconsole]; simp, ?_⟩
        intro r hr
        have hread := hreads r hr
        simp at hread ⊢
        grind

end TfPrintf

namespace Sprintf

theorem convert_eq (dst : ℕ) (s : Sprintf) (h : ArgFits c s.args)
    (hroom : s.count.toNat + (argText c s.args).length < 2 ^ 32) : s.convert dst c =
    some { s with
      args := argRest c s.args
      count := s.count + UInt32.ofNat (argText c s.args).length
      buf := s.buf.put (dst + s.count.toNat) (argText c s.args) } := by
  unfold convert
  rcases conversion_cases h with ⟨hc, w, rest, hargs, hrest, htext⟩ | ⟨rfl, str, rest, hargs, hrest, htext⟩ |
    ⟨rfl, w, rest, hargs, hrest, htext⟩ | ⟨rfl, w, rest, hargs, hrest, htext⟩ | ⟨htakes, hstr, hrest, htext⟩
  · rw [if_pos hc, hrest, htext, hargs]
    simp only [int32Sprint_eq, Option.map_some, written]
  · rw [htext] at hroom
    rw [if_neg (by decide), if_pos rfl, hrest, htext, hargs]
    simp only [strSprint_eq str _ _ (by omega), written]
  · rw [if_neg (by decide), if_neg (by decide), if_pos rfl, hrest, htext, hargs]
    simp only [uint32HexSprint_eq, written]
  · rw [if_neg (by decide), if_neg (by decide), if_neg (by decide), if_pos rfl, hrest, htext, hargs]
    simp only [uint32Sprint_eq, Option.map_some, written]
  · obtain ⟨hint, hhex, huint⟩ := not_takesWord htakes
    rw [if_neg hint, if_neg hstr, if_neg hhex, if_neg huint, hrest, htext]
    simp

theorem loop_nul {turns : ℕ} {s : Sprintf} (h : mem s.fmt = 0) :
    loop dst mem (turns + 1) s = some { s with reads := s.reads ++ [s.fmt] } := by
  rw [loop]
  exact if_pos h

theorem loop_percent {turns : ℕ} {s : Sprintf} (h : mem s.fmt = char '%') (hfits : ArgFits (mem (s.fmt + 1)) s.args)
    (hroom : s.count.toNat + (argText (mem (s.fmt + 1)) s.args).length < 2 ^ 32) :
    loop dst mem (turns + 1) s = loop dst mem turns ⟨s.fmt + 2, argRest (mem (s.fmt + 1)) s.args,
      s.count + UInt32.ofNat (argText (mem (s.fmt + 1)) s.args).length,
      s.buf.put (dst + s.count.toNat) (argText (mem (s.fmt + 1)) s.args), s.reads ++ [s.fmt, s.fmt + 1]⟩ := by
  have hconvert := convert_eq dst ⟨s.fmt + 1, s.args, s.count, s.buf, s.reads ++ [s.fmt, s.fmt + 1]⟩ hfits hroom
  rw [loop]
  simp only [h, List.append_assoc, List.singleton_append, if_true]
  rw [if_neg (by decide), hconvert]

theorem loop_char {turns : ℕ} {s : Sprintf} (h : mem s.fmt ≠ 0) (hc : mem s.fmt ≠ char '%') : loop dst mem (turns + 1) s =
    loop dst mem turns ⟨s.fmt + 1, s.args, s.count + UInt32.ofNat 1, s.buf.put (dst + s.count.toNat) [mem s.fmt],
      s.reads ++ [s.fmt]⟩ := by
  rw [loop, Mem.put_singleton]
  simp only [if_neg h, if_neg hc]
  rfl

/-- The count when `n` more characters are written. -/
theorem toNat_count {count : UInt32} {n : ℕ} (h : count.toNat + n < 2 ^ 32) :
    (count + UInt32.ofNat n).toNat = count.toNat + n := by
  rw [UInt32.toNat_add, UInt32.toNat_ofNat_of_lt' (by change n < 2 ^ 32; omega)]
  exact Nat.mod_eq_of_lt h

/-- A format that ends well is written, and read up to its end alone. -/
theorem loop_spec {turns : ℕ} (dst : ℕ) (s : Sprintf) (hl : CString mem s.fmt l) (hend : dangling l = false)
    (hargs : Matching l s.args) (hturns : l.length < turns)
    (hroom : s.count.toNat + (formatted l s.args).length < 2 ^ 32) : ∃ s', loop dst mem turns s = some s' ∧
      s'.count.toNat = s.count.toNat + (formatted l s.args).length ∧
      s'.buf = s.buf.put (dst + s.count.toNat) (formatted l s.args) ∧
      ∀ r ∈ s'.reads, r ∈ s.reads ∨ r ≤ s.fmt + l.length := by
  induction turns generalizing s l with
  | zero => exact absurd hturns (Nat.not_lt_zero _)
  | succ turns ih =>
    match l with
    | [] =>
      refine ⟨_, loop_nul hl, by simp [formatted], by simp [formatted], ?_⟩
      simp +contextual [or_imp]
    | c :: l =>
      obtain ⟨rfl, hc, hl⟩ := hl
      by_cases hpct : mem s.fmt = char '%'
      · rw [hpct] at hend hargs hroom ⊢
        match l with
        | [] => cases hend
        | k :: l =>
          obtain ⟨rfl, hk, hl⟩ := hl
          obtain ⟨hfits, hargs⟩ := hargs
          rw [formatted, if_pos rfl, List.length_append] at hroom
          have hcount : (s.count + UInt32.ofNat (argText (mem (s.fmt + 1)) s.args).length).toNat = _ :=
            toNat_count (by omega)
          have hroom : (s.count + UInt32.ofNat (argText (mem (s.fmt + 1)) s.args).length).toNat +
              (formatted l (argRest (mem (s.fmt + 1)) s.args)).length < 2 ^ 32 := by omega
          rw [loop_percent hpct hfits (by omega)]
          obtain ⟨s', hs', hcount', hbuf, hreads⟩ := ih ⟨s.fmt + 2, argRest (mem (s.fmt + 1)) s.args, _, _, _⟩ hl hend
            hargs (by simp at hturns; omega) hroom
          refine ⟨s', hs', ?_, ?_, ?_⟩
          · rw [hcount', hcount, formatted, if_pos rfl, List.length_append, Nat.add_assoc]
          · rw [hbuf, hcount, formatted, if_pos rfl, ← Nat.add_assoc, Mem.put_append]
          · intro r hr
            have hread := hreads r hr
            simp at hread ⊢
            grind
      · rw [formatted_char hpct, List.length_cons] at hroom
        have hcount : (s.count + UInt32.ofNat 1).toNat = _ := toNat_count (by omega)
        have hroom : (s.count + UInt32.ofNat 1).toNat + (formatted l s.args).length < 2 ^ 32 := by omega
        rw [loop_char hc hpct, formatted_char hpct]
        obtain ⟨s', hs', hcount', hbuf, hreads⟩ := ih ⟨s.fmt + 1, s.args, _, _, _⟩ hl (dangling_char hpct ▸ hend)
          ((matching_char hpct).mp hargs) (by simp at hturns; omega) hroom
        refine ⟨s', hs', ?_, ?_, ?_⟩
        · simp only [hcount', hcount, List.length_cons]
          omega
        · rw [hbuf, hcount, ← Nat.add_assoc]
          exact Mem.put_append s.buf (dst + s.count.toNat) [mem s.fmt] _
        · intro r hr
          have hread := hreads r hr
          simp at hread ⊢
          grind

end Sprintf

/-! ## Behind the end of the format -/

namespace TfPrintf

theorem convert_reads {s s' : TfPrintf} (h : s.convert c = some s') : s'.reads = s.reads := by
  unfold convert printed at h
  grind [Option.map_eq_some_iff]

/-- Every run reads the character where it begins. -/
theorem mem_reads {turns : ℕ} {s s' : TfPrintf} (h : loop mem turns s = some s') : ∀ r ∈ s.reads ++ [s.fmt], r ∈ s'.reads := by
  induction turns generalizing s with
  | zero => cases h
  | succ turns ih =>
    rw [loop] at h
    simp only at h
    split_ifs at h with hnul hpct
    · obtain rfl := Option.some.inj h
      exact fun r hr => hr
    · split at h
      · cases h
      · rename_i t ht
        intro r hr
        apply ih h r
        rw [convert_reads ht]
        grind
    · intro r hr
      exact ih h r (List.mem_append_left _ hr)

theorem argFits_nul : ArgFits 0 args := by
  refine ⟨fun h => absurd h (by decide), fun h => absurd h (by decide)⟩

/-- A percent sign at the end steps over the end, and the character behind it is read. -/
theorem reads_behind {turns : ℕ} {s s' : TfPrintf} (hl : CString mem s.fmt l) (hend : dangling l)
    (hargs : Matching l s.args) (h : loop mem turns s = some s') : s.fmt + l.length + 1 ∈ s'.reads := by
  induction turns generalizing s l with
  | zero => cases h
  | succ turns ih =>
    match l with
    | [] => cases hend
    | c :: l =>
      obtain ⟨rfl, hc, hl⟩ := hl
      by_cases hpct : mem s.fmt = char '%'
      · rw [hpct] at hend hargs
        match l with
        | [] =>
          have hnul : mem (s.fmt + 1) = 0 := hl
          rw [loop_percent hpct (hnul ▸ argFits_nul)] at h
          apply mem_reads h
          simp
        | k :: l =>
          obtain ⟨rfl, hk, hl⟩ := hl
          obtain ⟨hfits, hargs⟩ := hargs
          rw [loop_percent hpct hfits] at h
          have hread := ih (s := ⟨s.fmt + 2, argRest (mem (s.fmt + 1)) s.args, _, _, _⟩) hl hend hargs h
          convert hread using 1
          simp
          omega
      · rw [loop_char hc hpct] at h
        have hread := ih (s := ⟨s.fmt + 1, s.args, _, _, _⟩) hl (dangling_char hpct ▸ hend) ((matching_char hpct).mp hargs) h
        convert hread using 1
        simp
        omega

end TfPrintf

/-! ## The two formatters -/

/-- Both formatters end and read the format up to its end alone, the console gets what the format gives, and `sprintf`
writes the same characters with a NUL and returns their number. -/
structure Agree (mem : Mem) (l : List UInt8) (args : List Arg) (dst : ℕ) (buf : Mem) (p : TfPrintf) (q : SprintfResult) :
    Prop where
  console : p.console = formatted l args
  reads : ∀ r ∈ p.reads ++ q.reads, r ≤ l.length
  buf : q.buf = buf.put dst (p.console ++ [0])
  ret : q.ret = p.console.length

theorem ret_lt {fmt : Option Mem} {turns : ℕ} {q : SprintfResult} (h : sprintf dst buf fmt args turns = some q) :
    q.ret < 2 ^ 31 := by
  obtain ⟨s, hs, rfl⟩ := Option.map_eq_some_iff.mp h
  exact Int32.toInt_lt _

theorem toInt_toInt32 {n : UInt32} (h : n.toNat < 2 ^ 31) : n.toInt32.toInt = n.toNat :=
  BitVec.toInt_eq_toNat_of_lt (by change 2 * n.toNat < 2 ^ 32; omega)

theorem tfPrintf_spec (hl : CString mem 0 l) (hend : dangling l = false) (hargs : Matching l args) :
    ∃ p, tfPrintf mem args (l.length + 1) = some p ∧ p.console = formatted l args ∧ ∀ r ∈ p.reads, r ≤ l.length := by
  have hrun := TfPrintf.loop_spec ⟨0, args, 0, [], []⟩ hl hend hargs (Nat.lt_succ_self l.length)
  simpa only [tfPrintf, List.nil_append, List.not_mem_nil, false_or, Nat.zero_add] using hrun

theorem sprintf_spec (dst : ℕ) (buf : Mem) (hl : CString mem 0 l) (hend : dangling l = false) (hargs : Matching l args)
    (hlen : (formatted l args).length < 2 ^ 31) : ∃ q, sprintf dst buf (some mem) args (l.length + 1) = some q ∧
      q.buf = buf.put dst (formatted l args ++ [0]) ∧ q.ret = (formatted l args).length ∧ ∀ r ∈ q.reads, r ≤ l.length := by
  have hroom : (0 : UInt32).toNat + (formatted l args).length < 2 ^ 32 := by
    rw [UInt32.toNat_zero]
    omega
  have hrun := Sprintf.loop_spec dst ⟨0, args, 0, buf, []⟩ hl hend hargs (Nat.lt_succ_self l.length) hroom
  simp only [List.not_mem_nil, false_or, Nat.zero_add, UInt32.toNat_zero, Nat.add_zero] at hrun
  obtain ⟨s, hs, hcount, hbuf, hreads⟩ := hrun
  refine ⟨_, congrArg (Option.map _) hs, ?_, ?_, hreads⟩
  · change Function.update s.buf (dst + s.count.toNat) 0 = _
    rw [hbuf, hcount, ← Mem.put_singleton, Mem.put_append]
  · change s.count.toInt32.toInt = _
    rw [toInt_toInt32 (by omega), hcount]

theorem not_agree {turns : ℕ} {p : TfPrintf} {q : SprintfResult} (hl : CString mem 0 l) (hend : dangling l)
    (hargs : Matching l args) (hp : tfPrintf mem args turns = some p) : ¬ Agree mem l args dst buf p q := by
  intro hagree
  have hread := TfPrintf.reads_behind (s := ⟨0, args, 0, [], []⟩) hl hend hargs hp
  have hle := hagree.reads _ (List.mem_append_left _ hread)
  simp at hle

/-- The formatters agree unless the format ends in the middle of a conversion, or the number does not fit in an `int`. -/
theorem formatters_agree_iff (mem : Mem) (l : List UInt8) (args : List Arg) (dst : ℕ) (buf : Mem) (hl : CString mem 0 l)
    (hargs : Matching l args) :
    (∃ turns p q, tfPrintf mem args turns = some p ∧ sprintf dst buf (some mem) args turns = some q ∧
      Agree mem l args dst buf p q) ↔ dangling l = false ∧ (formatted l args).length < 2 ^ 31 := by
  refine ⟨?_, ?_⟩
  · rintro ⟨turns, p, q, hp, hq, hagree⟩
    refine ⟨?_, ?_⟩
    · by_contra hend
      exact not_agree hl (by simpa using hend) hargs hp hagree
    · have hret := ret_lt hq
      rw [hagree.ret, hagree.console] at hret
      exact_mod_cast hret
  · rintro ⟨hend, hlen⟩
    obtain ⟨p, hp, hconsole, hpreads⟩ := tfPrintf_spec hl hend hargs
    obtain ⟨q, hq, hbuf, hret, hqreads⟩ := sprintf_spec dst buf hl hend hargs hlen
    refine ⟨l.length + 1, p, q, hp, hq, hconsole, ?_, by rw [hconsole, hbuf], by rw [hret, hconsole]⟩
    intro r hr
    rcases List.mem_append.mp hr with hr | hr
    · exact hpreads r hr
    · exact hqreads r hr

theorem formatters_agree_minus : (∃ turns p q, tfPrintf (Mem.ofList [char 'a', char '%', char 'd']) [.word 0x80000000] turns =
      some p ∧ sprintf 0 (Mem.ofList []) (some (Mem.ofList [char 'a', char '%', char 'd'])) [.word 0x80000000] turns = some q ∧
      Agree (Mem.ofList [char 'a', char '%', char 'd']) [char 'a', char '%', char 'd'] [.word 0x80000000] 0 (Mem.ofList []) p q) ↔
    dangling [char 'a', char '%', char 'd'] = false ∧
      (formatted [char 'a', char '%', char 'd'] [.word 0x80000000]).length < 2 ^ 31 :=
  formatters_agree_iff _ _ _ _ _ ⟨rfl, by decide, rfl, by decide, rfl, by decide, rfl⟩
    ⟨⟨fun _ => ⟨0x80000000, [], rfl⟩, fun h => absurd h (by decide)⟩, trivial⟩

/-- A format that ends with a percent sign is read behind its end. -/
theorem formatters_overrun : ¬ ∃ turns p q, tfPrintf (Mem.ofList [char 'a', char '%']) [] turns = some p ∧
    sprintf 0 (Mem.ofList []) (some (Mem.ofList [char 'a', char '%'])) [] turns = some q ∧
    Agree (Mem.ofList [char 'a', char '%']) [char 'a', char '%'] [] 0 (Mem.ofList []) p q := by
  rintro ⟨turns, p, q, hp, -, hagree⟩
  have hl : CString (Mem.ofList [char 'a', char '%']) 0 [char 'a', char '%'] := ⟨rfl, by decide, rfl, by decide, rfl⟩
  have hargs : Matching [char 'a', char '%'] [] := (matching_char (by decide)).mpr trivial
  exact not_agree hl rfl hargs hp hagree

end RCar.Cr7Printf
