import RCarM3N.Model.AvbRsa

/-! The Montgomery arithmetic of `avb_rsa.c` computes the 65537th power modulo the key, and a signature is accepted exactly
when that power is the padded hash. -/

namespace RCar.AvbRsa

open Montgomery

/-! ## Comparison and subtraction -/

/-- The borrow as `subM` holds it. -/
def borrow (w : Bool) : Int64 := if w then -1 else 0

theorem toNat_borrow (w : Bool) : (borrow w).toUInt64.toNat = (2 ^ 64 - 1) * w.toNat := by
  cases w <;> rfl

theorem shiftRight_eq (T : Int64) : T >>> (32 : Int64) = borrow (decide (2 ^ 63 ≤ T.toUInt64.toNat)) ∨
    ¬ (T.toUInt64.toNat < 2 ^ 32 ∨ 2 ^ 64 - 2 ^ 32 ≤ T.toUInt64.toNat) := by
  by_cases h : T.toUInt64.toNat < 2 ^ 32 ∨ 2 ^ 64 - 2 ^ 32 ≤ T.toUInt64.toNat
  · left
    have hshift : (T >>> (32 : Int64)).toInt = T.toInt >>> (32 : ℕ) := BitVec.toInt_sshiftRight
    have hT : T.toInt = if 2 * T.toUInt64.toNat < 2 ^ 64 then (T.toUInt64.toNat : ℤ) else T.toUInt64.toNat - 2 ^ 64 :=
      BitVec.toInt_eq_toNat_cond _
    apply Int64.toInt_inj.mp
    rw [hshift, hT, Int.shiftRight_eq_div_pow]
    unfold borrow
    rcases h with h | h
    · rw [if_pos (by omega), decide_eq_false (by omega)]
      simp only [Bool.false_eq_true, if_false, Int64.toInt_zero]
      omega
    · rw [if_neg (by omega), decide_eq_true (by omega)]
      have hlt := T.toUInt64.toNat_lt
      have hone : (-1 : Int64).toInt = -1 := rfl
      simp only [if_true, hone]
      omega
  · exact .inr h

/-- One word of the subtraction. -/
theorem sub_step (w : Bool) (a n : UInt32) :
    ((borrow w).toUInt64 + (a.toUInt64 - n.toUInt64)).toInt64 >>> (32 : Int64) = borrow (decide (a.toNat < n.toNat + w.toNat)) ∧
      ((borrow w).toUInt64 + (a.toUInt64 - n.toUInt64)).toInt64.toUInt64.toUInt32.toNat + n.toNat + w.toNat =
        a.toNat + 2 ^ 32 * (decide (a.toNat < n.toNat + w.toNat)).toNat := by
  have ha := a.toNat_lt
  have hn := n.toNat_lt
  have hw := Bool.toNat_le w
  set T := ((borrow w).toUInt64 + (a.toUInt64 - n.toUInt64)).toInt64 with hTdef
  have hT : T.toUInt64.toNat =
      if a.toNat < n.toNat + w.toNat then 2 ^ 64 + a.toNat - n.toNat - w.toNat else a.toNat - n.toNat - w.toNat := by
    rw [hTdef, UInt64.toUInt64_toInt64, UInt64.toNat_add, UInt64.toNat_sub, toNat_borrow, UInt32.toNat_toUInt64,
      UInt32.toNat_toUInt64]
    split <;> omega
  have hshift := shiftRight_eq T
  have hlow : T.toUInt64.toUInt32.toNat = T.toUInt64.toNat % 2 ^ 32 := UInt64.toNat_toUInt32 _
  rw [hlow]
  by_cases hlt : a.toNat < n.toNat + w.toNat
  · rw [if_pos hlt] at hT
    rw [hT] at hshift ⊢
    rw [decide_eq_true hlt]
    refine ⟨?_, by simp only [Bool.toNat_true]; omega⟩
    rcases hshift with hshift | hshift
    · rw [hshift, decide_eq_true (by omega)]
    · exact absurd (.inr (by omega)) hshift
  · rw [if_neg hlt] at hT
    rw [hT] at hshift ⊢
    rw [decide_eq_false hlt]
    refine ⟨?_, by simp only [Bool.toNat_false]; omega⟩
    rcases hshift with hshift | hshift
    · rw [hshift, decide_eq_false (by omega)]
    · exact absurd (.inl (by omega)) hshift

theorem subFrom_spec (w : Bool) {as ns : List UInt32} (h : as.length = ns.length) :
    (subFrom (borrow w) as ns).length = as.length ∧ ∃ w' : Bool,
      wordsVal (subFrom (borrow w) as ns) + wordsVal ns + w.toNat = wordsVal as + (2 ^ 32) ^ as.length * w'.toNat := by
  induction as generalizing w ns with
  | nil =>
    rw [List.length_nil, eq_comm, List.length_eq_zero_iff] at h
    subst h
    exact ⟨rfl, w, by simp [subFrom]⟩
  | cons a as ih =>
    cases ns with
    | nil => simp at h
    | cons n ns =>
      obtain ⟨hshift, hword⟩ := sub_step w a n
      obtain ⟨hlen, w', hval⟩ := ih (decide (a.toNat < n.toNat + w.toNat)) (Nat.succ_injective h)
      rw [← hshift] at hlen hval
      refine ⟨congrArg Nat.succ hlen, w', ?_⟩
      change wordsVal (_ :: subFrom (_ >>> (32 : Int64)) as ns) + _ + _ = _
      rw [wordsVal_cons, wordsVal_cons, wordsVal_cons, List.length_cons, pow_succ]
      linear_combination hword + 2 ^ 32 * hval

variable {key : IAvbKey}

/-- A number that is less than R too large for its words, and not less than the modulus with that. -/
theorem subM_spec {a : List UInt32} (h : a.length = key.len) :
    (subM key a).length = key.len ∧
      (wordsVal key.n ≤ wordsVal a → wordsVal (subM key a) + wordsVal key.n = wordsVal a) ∧
      (wordsVal a < wordsVal key.n → wordsVal (subM key a) + wordsVal key.n = wordsVal a + (2 ^ 32) ^ key.len) := by
  obtain ⟨hlen, w, hval⟩ := subFrom_spec false h
  have hsub : subM key a = subFrom (borrow false) a key.n := rfl
  rw [← hsub] at hlen hval
  have hlt := wordsVal_lt (subM key a)
  have hn := wordsVal_lt key.n
  rw [hlen, h] at hlt
  rw [h] at hval
  refine ⟨hlen.trans h, fun hle => ?_, fun hlt' => ?_⟩
  · cases w with
    | false => simpa using hval
    | true => simp only [Bool.toNat_false, Bool.toNat_true, Nat.mul_one] at hval; change _ < (2 ^ 32) ^ key.len at hn; omega
  · cases w with
    | false => simp only [Bool.toNat_false, Nat.mul_zero] at hval; omega
    | true => simpa using hval

theorem geFrom_iff {as ns : List UInt32} (h : as.length = ns.length) :
    geFrom as ns = true ↔ wordsVal ns.reverse ≤ wordsVal as.reverse := by
  induction as generalizing ns with
  | nil =>
    rw [List.length_nil, eq_comm, List.length_eq_zero_iff] at h
    subst h
    exact iff_of_true rfl le_rfl
  | cons a as ih =>
    cases ns with
    | nil => simp at h
    | cons n ns =>
      have hlen : as.length = ns.length := Nat.succ_injective h
      have hval : ∀ x (l : List UInt32), wordsVal (x :: l).reverse = wordsVal l.reverse + (2 ^ 32) ^ l.length * x.toNat := by
        intro x l
        rw [List.reverse_cons, wordsVal_append, List.length_reverse, wordsVal_cons, wordsVal_nil, Nat.mul_zero, Nat.add_zero]
      have ha := wordsVal_lt as.reverse
      have hn := wordsVal_lt ns.reverse
      rw [List.length_reverse] at ha hn
      rw [geFrom, hval, hval, ← hlen]
      rw [← hlen] at hn
      rcases lt_trichotomy a.toNat n.toNat with hlt | heq | hgt
      · have hmul := Nat.mul_le_mul_left ((2 ^ 32) ^ as.length) (Nat.succ_le_of_lt hlt)
        rw [if_pos (UInt32.lt_iff_toNat_lt.mpr hlt)]
        refine iff_of_false Bool.false_ne_true ?_
        rw [Nat.mul_succ] at hmul
        omega
      · have hnot : ¬ a < n := fun hlt => absurd (UInt32.lt_iff_toNat_lt.mp hlt) (by omega)
        have hnot' : ¬ a > n := fun hlt => absurd (UInt32.lt_iff_toNat_lt.mp hlt) (by omega)
        rw [if_neg hnot, if_neg hnot', ih hlen, heq]
        omega
      · have hmul := Nat.mul_le_mul_left ((2 ^ 32) ^ as.length) (Nat.succ_le_of_lt hgt)
        have hnot : ¬ a < n := fun hlt => absurd (UInt32.lt_iff_toNat_lt.mp hlt) (by omega)
        rw [if_neg hnot, if_pos (UInt32.lt_iff_toNat_lt.mpr hgt)]
        refine iff_of_true rfl ?_
        rw [Nat.mul_succ] at hmul
        omega

theorem geM_iff {a : List UInt32} (h : a.length = key.len) : geM key a = true ↔ wordsVal key.n ≤ wordsVal a := by
  have hlen : a.reverse.length = key.n.reverse.length := by simpa [IAvbKey.len] using h
  have hiff := geFrom_iff hlen
  rwa [List.reverse_reverse, List.reverse_reverse] at hiff

/-! ## Multiplication -/

/-- A product of words with two more words fits. -/
theorem toNat_mulAdd (x y : UInt32) {u v : ℕ} (hu : u < 2 ^ 32) (hv : v < 2 ^ 32) : u + x.toNat * y.toNat + v < 2 ^ 64 := by
  have hmul : x.toNat * y.toNat ≤ (2 ^ 32 - 1) * (2 ^ 32 - 1) :=
    Nat.mul_le_mul (Nat.le_pred_of_lt x.toNat_lt) (Nat.le_pred_of_lt y.toNat_lt)
  omega

theorem toNat_high (A : UInt64) : (A >>> 32).toNat = A.toNat / 2 ^ 32 := by
  rw [UInt64.toNat_shiftRight, Nat.shiftRight_eq_div_pow]
  rfl

/-- What both sums of the loop of `montMulAdd` come to. -/
theorem montLoop_spec (a d0 : UInt32) (A B : UInt64) {bs ns cs : List UInt32} (hb : bs.length = ns.length)
    (hc : cs.length = ns.length) :
    (montLoop a d0 A B bs ns cs).1.length = ns.length + 1 ∧
      wordsVal (montLoop a d0 A B bs ns cs).1 + (2 ^ 32) ^ (ns.length + 1) * (montLoop a d0 A B bs ns cs).2.toNat =
        A.toNat / 2 ^ 32 + B.toNat / 2 ^ 32 + (wordsVal cs + a.toNat * wordsVal bs + d0.toNat * wordsVal ns) := by
  induction ns generalizing A B bs cs with
  | nil =>
    obtain rfl := List.length_eq_zero_iff.mp hb
    obtain rfl := List.length_eq_zero_iff.mp hc
    refine ⟨rfl, ?_⟩
    have hA := A.toNat_lt
    have hB := B.toNat_lt
    have hsum : ((A >>> 32) + (B >>> 32)).toNat = A.toNat / 2 ^ 32 + B.toNat / 2 ^ 32 := by
      rw [UInt64.toNat_add, toNat_high, toNat_high, Nat.mod_eq_of_lt (by omega)]
    simp only [montLoop, wordsVal_cons, wordsVal_nil, toNat_high, UInt64.toNat_toUInt32, hsum, List.length_nil]
    omega
  | cons n ns ih =>
    cases bs with
    | nil => simp at hb
    | cons b bs =>
      cases cs with
      | nil => simp at hc
      | cons c cs =>
        have hA := A.toNat_lt
        have hB := B.toNat_lt
        have hhA : A.toNat / 2 ^ 32 < 2 ^ 32 := by omega
        have hhB : B.toNat / 2 ^ 32 < 2 ^ 32 := by omega
        set A' := (A >>> 32) + a.toUInt64 * b.toUInt64 + c.toUInt64 with hA'
        set B' := (B >>> 32) + d0.toUInt64 * n.toUInt64 + A'.toUInt32.toUInt64 with hB'
        have hvalA : A'.toNat = A.toNat / 2 ^ 32 + a.toNat * b.toNat + c.toNat := by
          have hfit := toNat_mulAdd a b hhA c.toNat_lt
          rw [hA', UInt64.toNat_add, UInt64.toNat_add, UInt64.toNat_mul, toNat_high, UInt32.toNat_toUInt64,
            UInt32.toNat_toUInt64, UInt32.toNat_toUInt64, Nat.add_mod_mod, Nat.mod_add_mod, Nat.mod_eq_of_lt hfit]
        have hlow : A'.toUInt32.toNat = A'.toNat % 2 ^ 32 := UInt64.toNat_toUInt32 _
        have hvalB : B'.toNat = B.toNat / 2 ^ 32 + d0.toNat * n.toNat + A'.toNat % 2 ^ 32 := by
          have hfit := toNat_mulAdd d0 n hhB A'.toUInt32.toNat_lt
          rw [hB', UInt64.toNat_add, UInt64.toNat_add, UInt64.toNat_mul, toNat_high, UInt32.toNat_toUInt64,
            UInt32.toNat_toUInt64, UInt32.toNat_toUInt64, Nat.add_mod_mod, Nat.mod_add_mod, Nat.mod_eq_of_lt hfit, hlow]
        obtain ⟨hlen, hval⟩ := ih A' B' (Nat.succ_injective hb) (Nat.succ_injective hc)
        have hloop : montLoop a d0 A B (b :: bs) (n :: ns) (c :: cs) =
            (B'.toUInt32 :: (montLoop a d0 A' B' bs ns cs).1, (montLoop a d0 A' B' bs ns cs).2) := rfl
        rw [hloop]
        refine ⟨congrArg Nat.succ hlen, ?_⟩
        have hword : B'.toUInt32.toNat = B'.toNat % 2 ^ 32 := UInt64.toNat_toUInt32 _
        have hdivA := Nat.mod_add_div A'.toNat (2 ^ 32)
        have hdivB := Nat.mod_add_div B'.toNat (2 ^ 32)
        rw [List.length_cons, pow_succ]
        simp only [wordsVal_cons, hword]
        linear_combination 2 ^ 32 * hval + hdivA + hdivB + hvalA + hvalB

theorem length_montMulAdd {c b : List UInt32} (a : UInt32) (hc : c.length = key.len) (hb : b.length = key.len) :
    (montMulAdd key c a b).length = key.len := by
  unfold montMulAdd
  have hlen : key.len = key.n.length := rfl
  rcases hn : key.n with - | ⟨n0, ns⟩
  · exact (by cases b <;> exact hc)
  · rw [hlen, hn] at hc hb
    rcases b with - | ⟨b0, bs⟩
    · simp at hb
    rcases c with - | ⟨c0, cs⟩
    · simp at hc
    simp only
    have hkey : key.len = ns.length + 1 := by rw [hlen, hn]; rfl
    have hloop := (montLoop_spec a ((a.toUInt64 * b0.toUInt64 + c0.toUInt64).toUInt32 * key.n0inv)
      (a.toUInt64 * b0.toUInt64 + c0.toUInt64) (((a.toUInt64 * b0.toUInt64 + c0.toUInt64).toUInt32 * key.n0inv).toUInt64 *
        n0.toUInt64 + (a.toUInt64 * b0.toUInt64 + c0.toUInt64).toUInt32.toUInt64)
      (Nat.succ_injective hb) (Nat.succ_injective hc)).1
    split
    · exact (subM_spec (hloop.trans hkey.symm)).1
    · exact hloop.trans hkey.symm

/-- `n0inv` is -1 / n[0] mod 2^32. -/
def IAvbKey.Inverse (key : IAvbKey) : Prop := (wordsVal key.n * key.n0inv.toNat + 1) % 2 ^ 32 = 0

/-- One word of the multiplication, for any modulus. -/
theorem montMulAdd_spec (hinv : key.Inverse) {c b : List UInt32} (a : UInt32) (hc : c.length = key.len)
    (hb : b.length = key.len) :
    2 ^ 32 * wordsVal (montMulAdd key c a b) ≡ wordsVal c + a.toNat * wordsVal b [MOD wordsVal key.n] := by
  unfold montMulAdd
  have hlen : key.len = key.n.length := rfl
  rcases hn : key.n with - | ⟨n0, ns⟩
  · -- a key without words has no inverse
    rw [IAvbKey.Inverse, hn] at hinv
    simp at hinv
  · rw [hlen, hn] at hc hb
    rcases b with - | ⟨b0, bs⟩
    · simp at hb
    rcases c with - | ⟨c0, cs⟩
    · simp at hc
    simp only
    set A := a.toUInt64 * b0.toUInt64 + c0.toUInt64 with hA
    set d0 := A.toUInt32 * key.n0inv with hd0
    set B := d0.toUInt64 * n0.toUInt64 + A.toUInt32.toUInt64 with hB
    have hvalA : A.toNat = a.toNat * b0.toNat + c0.toNat := by
      have hfit := toNat_mulAdd a b0 (u := 0) (by norm_num) c0.toNat_lt
      rw [hA, UInt64.toNat_add, UInt64.toNat_mul, UInt32.toNat_toUInt64, UInt32.toNat_toUInt64, UInt32.toNat_toUInt64,
        Nat.mod_add_mod, Nat.mod_eq_of_lt (by omega)]
    have hlow : A.toUInt32.toNat = A.toNat % 2 ^ 32 := UInt64.toNat_toUInt32 _
    have hvalB : B.toNat = d0.toNat * n0.toNat + A.toNat % 2 ^ 32 := by
      have hfit := toNat_mulAdd d0 n0 (u := 0) (by norm_num) A.toUInt32.toNat_lt
      rw [hB, UInt64.toNat_add, UInt64.toNat_mul, UInt32.toNat_toUInt64, UInt32.toNat_toUInt64, UInt32.toNat_toUInt64,
        Nat.mod_add_mod, Nat.mod_eq_of_lt (by omega), hlow]
    obtain ⟨hloopLen, hloop⟩ := montLoop_spec a d0 A B (Nat.succ_injective hb) (Nat.succ_injective hc)
    set r := montLoop a d0 A B bs ns cs with hr
    set n := wordsVal (n0 :: ns) with hnval
    set β : ℕ := 2 ^ 32 with hβ
    set T := wordsVal (c0 :: cs) + a.toNat * wordsVal (b0 :: bs) with hT
    -- the choice of `d0` clears the lowest word
    have hTlow : T % β = A.toNat % β := by
      have hsplit : T = A.toNat + β * (wordsVal cs + a.toNat * wordsVal bs) := by
        rw [hT, hvalA, wordsVal_cons, wordsVal_cons]
        ring
      rw [hsplit, Nat.add_mul_mod_self_left]
    have hd0val : d0.toNat = T * key.n0inv.toNat % β := by
      rw [hd0, UInt32.toNat_mul, hlow, ← hTlow, Nat.mod_mul_mod]
    have hdvd : β ∣ T + d0.toNat * n := by
      rw [hd0val]
      rw [IAvbKey.Inverse, hn] at hinv
      exact dvd_add_mul hinv T
    have hdiv : wordsVal r.1 + β ^ (ns.length + 1) * r.2.toNat = (T + d0.toNat * n) / β := by
      refine Nat.eq_div_of_mul_eq_right (by norm_num) ?_
      have hBlow : B.toNat % β = 0 := by
        have hmod : (T + d0.toNat * n) % β = B.toNat % β := by
          rw [hvalB, hnval, wordsVal_cons, Nat.add_mod, hTlow, ← Nat.add_mod, Nat.mul_add, ← Nat.add_assoc,
            show d0.toNat * (2 ^ 32 * wordsVal ns) = β * (d0.toNat * wordsVal ns) by ring, Nat.add_mul_mod_self_left,
            Nat.add_comm, Nat.add_mod, ← Nat.add_mod_mod]
          simp
        rw [← hmod]
        exact Nat.mod_eq_zero_of_dvd hdvd
      have hdivA := Nat.mod_add_div A.toNat β
      have hdivB := Nat.mod_add_div B.toNat β
      rw [hBlow] at hdivB
      rw [hT, hnval, wordsVal_cons, wordsVal_cons, wordsVal_cons]
      linear_combination β * hloop + hdivA + hdivB + hvalA + hvalB
    have hmod : β * ((T + d0.toNat * n) / β) ≡ T [MOD n] := reduce_modEq hdvd
    have hlt : (T + d0.toNat * n) / β < β ^ (ns.length + 1) + n := by
      have hbLt := wordsVal_lt (b0 :: bs)
      have hcLt := wordsVal_lt (c0 :: cs)
      rw [hb] at hbLt
      rw [hc] at hcLt
      exact reduce_lt a.toNat_lt hbLt hcLt d0.toNat_lt
    have hnLt : n < β ^ (ns.length + 1) := wordsVal_lt (n0 :: ns)
    by_cases htop : r.2 = 0
    · rw [if_neg (not_not.mpr htop)]
      rw [htop, UInt64.toNat_zero, Nat.mul_zero, Nat.add_zero] at hdiv
      rwa [hdiv]
    · -- the word above is one, and the subtraction takes it away
      have hone : r.2.toNat = 1 := by
        have hpos : r.2.toNat ≠ 0 := fun hzero => htop (UInt64.toNat_inj.mp hzero)
        have hle : r.2.toNat < 2 := by
          by_contra hge
          have hmul := Nat.mul_le_mul_left (β ^ (ns.length + 1)) (not_lt.mp hge)
          omega
        omega
      rw [hone, Nat.mul_one] at hdiv
      rw [if_pos htop]
      have hkey : key.len = ns.length + 1 := by rw [hlen, hn]; rfl
      have hkeyn : wordsVal key.n = n := by rw [hn]
      obtain ⟨-, -, hsub⟩ := subM_spec (hloopLen.trans hkey.symm)
      rw [hkeyn, hkey] at hsub
      have hval := hsub (by omega)
      calc β * wordsVal (subM key r.1) ≡ β * (wordsVal (subM key r.1) + n) [MOD n] := by
            rw [Nat.mul_add]
            exact (Nat.modEq_iff_dvd.mpr ⟨β, by push_cast; ring⟩)
        _ = β * ((T + d0.toNat * n) / β) := by rw [hval, hdiv]
        _ ≡ T [MOD n] := hmod

theorem length_montMul (a : List UInt32) {b : List UInt32} (hb : b.length = key.len) :
    (montMul key a b).length = key.len := by
  have hrun : ∀ as c : List UInt32, c.length = key.len → (as.foldl (fun c a => montMulAdd key c a b) c).length = key.len := by
    intro as
    induction as with
    | nil => exact fun c hc => hc
    | cons x as ih => exact fun c hc => ih _ (length_montMulAdd x hc hb)
  exact hrun a _ (by simp)

/-- Montgomery multiplication: the product divided by R, in the words of the key, for any modulus and any operands. -/
theorem montMul_spec (hinv : key.Inverse) {a b : List UInt32} (ha : a.length = key.len) (hb : b.length = key.len) :
    (2 ^ 32) ^ key.len * wordsVal (montMul key a b) ≡ wordsVal a * wordsVal b [MOD wordsVal key.n] := by
  have hrun : ∀ as c : List UInt32, c.length = key.len →
      (2 ^ 32) ^ as.length * wordsVal (as.foldl (fun c a => montMulAdd key c a b) c) ≡
        wordsVal c + wordsVal as * wordsVal b [MOD wordsVal key.n] := by
    intro as
    induction as with
    | nil =>
      intro c hc
      simp [Nat.ModEq]
    | cons x as ih =>
      intro c hc
      have hstep := montMulAdd_spec hinv x hc hb
      have hrest := ih _ (length_montMulAdd x hc hb)
      rw [List.foldl_cons, List.length_cons, wordsVal_cons]
      calc (2 ^ 32) ^ (as.length + 1) * wordsVal (as.foldl (fun c a => montMulAdd key c a b) (montMulAdd key c x b))
          = 2 ^ 32 * ((2 ^ 32) ^ as.length *
              wordsVal (as.foldl (fun c a => montMulAdd key c a b) (montMulAdd key c x b))) := by ring
        _ ≡ 2 ^ 32 * (wordsVal (montMulAdd key c x b) + wordsVal as * wordsVal b) [MOD wordsVal key.n] := hrest.mul_left _
        _ = 2 ^ 32 * wordsVal (montMulAdd key c x b) + 2 ^ 32 * (wordsVal as * wordsVal b) := by ring
        _ ≡ wordsVal c + x.toNat * wordsVal b + 2 ^ 32 * (wordsVal as * wordsVal b) [MOD wordsVal key.n] :=
          hstep.add_right _
        _ = wordsVal c + (x.toNat + 2 ^ 32 * wordsVal as) * wordsVal b := by ring
  have hval := hrun a (List.replicate key.len 0) (by simp)
  rwa [wordsVal_zero, Nat.zero_add, ha] at hval

/-- The modulus 2^32 - 1 in one word, for which R is one. -/
def wordKey : IAvbKey := ⟨1, [0xFFFFFFFF], [1], rfl⟩

theorem montMul_spec_word : (2 ^ 32) ^ wordKey.len * wordsVal (montMul wordKey [5] [7]) ≡
    wordsVal [5] * wordsVal [7] [MOD wordsVal wordKey.n] :=
  montMul_spec (rfl : (_ + 1) % 2 ^ 32 = 0) rfl rfl

/-! ## Exponentiation -/

/-- The modulus is odd, as it has an inverse. -/
theorem IAvbKey.Inverse.coprime (hinv : key.Inverse) (k : ℕ) : (wordsVal key.n).Coprime ((2 ^ 32) ^ k) := by
  apply Nat.Coprime.pow_right
  apply Nat.Coprime.pow_right
  rw [Nat.coprime_two_right, ← Nat.not_even_iff_odd]
  intro heven
  have hdvd : 2 ∣ wordsVal key.n * key.n0inv.toNat + 1 :=
    dvd_trans (by norm_num) (Nat.dvd_of_mod_eq_zero hinv)
  have htwo : 2 ∣ wordsVal key.n * key.n0inv.toNat := heven.two_dvd.mul_right _
  omega

/-- A key as `avb_crypto.h` has it: the two pre-processed values are right. -/
structure IAvbKey.WellFormed (key : IAvbKey) : Prop where
  inverse : key.Inverse
  square : wordsVal key.rr ≡ ((2 ^ 32) ^ key.len) ^ 2 [MOD wordsVal key.n]

theorem squareTwice_spec (hk : key.WellFormed) {s : List UInt32} (hs : s.length = key.len) {x : ℕ}
    (hx : Form (wordsVal key.n) ((2 ^ 32) ^ key.len) (wordsVal s) x) (k : ℕ) :
    ((squareTwice key)^[k] s).length = key.len ∧
      Form (wordsVal key.n) ((2 ^ 32) ^ key.len) (wordsVal ((squareTwice key)^[k] s)) (x ^ 2 ^ (2 * k)) := by
  have htwice : (squareTwice key)^[k] s = (fun s => montMul key s s)^[2 * k] s := by
    rw [Function.iterate_mul]
    rfl
  rw [htwice]
  exact Form.iterate (P := fun s : List UInt32 => s.length = key.len) (hk.inverse.coprime _)
    (fun s hs => ⟨length_montMul s hs, montMul_spec hk.inverse hs hs⟩) hs hx (2 * k)

/-- The fourth Fermat number, the public exponent. -/
def F4 : ℕ := 65537

/-- The words that `modpowF4` comes to before they are written out. -/
theorem montPow_spec (hk : key.WellFormed) {a : List UInt32} (ha : a.length = key.len) :
    wordsVal (montMul key ((squareTwice key)^[8] (montMul key a key.rr)) a) ≡ wordsVal a ^ F4 [MOD wordsVal key.n] := by
  have hcop := hk.inverse.coprime key.len
  have henter := montMul_spec hk.inverse ha key.lenEq
  have hform : Form (wordsVal key.n) ((2 ^ 32) ^ key.len) (wordsVal (montMul key a key.rr)) (wordsVal a) :=
    Form.enter hcop hk.square henter
  obtain ⟨hlen, hsquare⟩ := squareTwice_spec hk (length_montMul a key.lenEq) hform 8
  have hleave := montMul_spec hk.inverse hlen ha
  have hfinal := Form.leave hcop hsquare hleave
  have hF4 : F4 = 2 ^ (2 * 8) + 1 := rfl
  rw [hF4, pow_succ]
  exact hfinal


/-- After the last subtraction the number is below the modulus, where that has its highest bit. -/
theorem reduce_spec {a : List UInt32} (ha : a.length = key.len) (htop : (2 ^ 32) ^ key.len ≤ 2 * wordsVal key.n) :
    wordsVal (if geM key a then subM key a else a) = wordsVal a % wordsVal key.n := by
  obtain ⟨-, hsub, -⟩ := subM_spec ha
  have hlt := wordsVal_lt a
  rw [ha] at hlt
  by_cases hge : geM key a = true
  · have hle := (geM_iff ha).mp hge
    have hval := hsub hle
    rw [if_pos hge, ← hval, Nat.add_mod_right, Nat.mod_eq_of_lt (by omega)]
  · have hlt' : wordsVal a < wordsVal key.n := not_le.mp fun hle => hge ((geM_iff ha).mpr hle)
    rw [if_neg hge]
    exact (Nat.mod_eq_of_lt hlt').symm

theorem read_ofList (l : List UInt8) : (Mem.ofList l).read 0 l.length = l := by
  have h := Mem.read_copy_ofList (fun _ => 0) 0 l
  rw [Mem.read_copy_in _ _ _ _ _ _ _ le_rfl (by omega)] at h
  simpa using h

theorem length_modpowF4 (allocated : Bool) {inout : List UInt8} (h : inout.length = 4 * key.len) :
    (modpowF4 key allocated inout).length = inout.length := by
  cases allocated with
  | false => rfl
  | true =>
    have hwords : (wordsOfBytes (Mem.ofList inout) 0 key.len).length = key.len := by simp [wordsOfBytes]
    have hlen := length_montMul ((squareTwice key)^[8] (montMul key (wordsOfBytes (Mem.ofList inout) 0 key.len) key.rr)) hwords
    unfold modpowF4
    simp only [if_true]
    rw [length_of_words, List.length_reverse, h]
    split
    · rw [(subM_spec hlen).1]
    · rw [hlen]

/-- Raising to the public exponent: a buffer of the size of the modulus becomes its 65537th power, whatever it holds. -/
theorem modpowF4_spec (hk : key.WellFormed) (htop : (2 ^ 32) ^ key.len ≤ 2 * wordsVal key.n) {inout : List UInt8}
    (h : inout.length = 4 * key.len) : bytesVal (modpowF4 key true inout) = bytesVal inout ^ F4 % wordsVal key.n := by
  set a := wordsOfBytes (Mem.ofList inout) 0 key.len with ha
  have hlen : a.length = key.len := by simp [ha, wordsOfBytes]
  have hval : wordsVal a = bytesVal inout := by
    rw [ha, wordsOfBytes, wordsVal_of_bytes, ← h, read_ofList]
  have hpow := montPow_spec hk hlen
  have hred := reduce_spec (length_montMul ((squareTwice key)^[8] (montMul key a key.rr)) hlen) htop
  unfold modpowF4
  simp only [if_true]
  rw [← ha, bytesVal_of_words, hred, hpow, hval]

theorem modpowF4_spec_word :
    bytesVal (modpowF4 wordKey true [0, 0, 0, 2]) = bytesVal [0, 0, 0, 2] ^ F4 % wordsVal wordKey.n :=
  modpowF4_spec ⟨(rfl : (_ + 1) % 2 ^ 32 = 0), by decide⟩ (by decide) rfl

/-! ## Verification -/

theorem foldl_or_eq_zero (l : List (UInt8 × UInt8)) (r : UInt32) :
    l.foldl (fun result x => result ||| (x.1 ^^^ x.2).toUInt32) r = 0 ↔ r = 0 ∧ ∀ x ∈ l, x.1 = x.2 := by
  induction l generalizing r with
  | nil => simp
  | cons x l ih =>
    have hx : (x.1 ^^^ x.2).toUInt32 = 0 ↔ x.1 = x.2 := by
      rw [← UInt8.xor_eq_zero_iff (a := x.1), ← UInt32.toNat_inj, ← UInt8.toNat_inj]
      rfl
    rw [List.foldl_cons, ih, UInt32.or_eq_zero_iff, hx, List.forall_mem_cons, and_assoc]

/-- The comparison that takes the same time for all bytes finds every difference. -/
theorem avbSafeMemcmp_iff {s1 s2 : List UInt8} (h : s1.length = s2.length) : avbSafeMemcmp s1 s2 = false ↔ s1 = s2 := by
  unfold avbSafeMemcmp
  rw [decide_eq_false_iff_not, not_not, foldl_or_eq_zero]
  induction s1 generalizing s2 with
  | nil =>
    rw [List.length_nil, eq_comm, List.length_eq_zero_iff] at h
    simp [h]
  | cons x s1 ih =>
    cases s2 with
    | nil => simp at h
    | cons y s2 =>
      have hrest := ih (Nat.succ_injective h)
      simp only [true_and] at hrest ⊢
      rw [List.zip_cons_cons, List.forall_mem_cons, hrest, List.cons.injEq]

variable {m : Mem} {pubkey keyNumBytes sig sigNumBytes hash hashNumBytes : ℕ} {padding : List UInt8}

/-- The size of a serialized key. -/
def keyNumBits (m : Mem) (pubkey : ℕ) : ℕ := (be32 m pubkey).toNat

/-- The modulus of a serialized key. -/
def modulus (m : Mem) (pubkey : ℕ) : ℕ := bytesVal (m.read (pubkey + 8) (keyNumBits m pubkey / 8))

/-- A serialized key as `avb_crypto.h` has it, with a modulus of the size that it names. -/
structure PublicKey (m : Mem) (pubkey : ℕ) : Prop where
  inverse : (modulus m pubkey * (be32 m (pubkey + 4)).toNat + 1) % 2 ^ 32 = 0
  square : bytesVal (m.read (pubkey + 8 + keyNumBits m pubkey / 8) (keyNumBits m pubkey / 8)) ≡
    (2 ^ keyNumBits m pubkey) ^ 2 [MOD modulus m pubkey]
  top : 2 ^ keyNumBits m pubkey ≤ 2 * modulus m pubkey

/-- The sizes fit together. -/
structure Sizes (m : Mem) (pubkey keyNumBytes sigNumBytes hashNumBytes : ℕ) (padding : List UInt8) : Prop where
  bits : keyNumBits m pubkey = 2048 ∨ keyNumBits m pubkey = 4096 ∨ keyNumBits m pubkey = 8192
  key : keyNumBytes = 8 + 2 * keyNumBits m pubkey / 8
  sig : sigNumBytes = keyNumBits m pubkey / 8
  padding : padding.length + hashNumBytes = sigNumBytes

theorem parse_iff {k : IAvbKey} : iavbParseKeyData m true pubkey keyNumBytes = some k ↔
    (keyNumBits m pubkey = 2048 ∨ keyNumBits m pubkey = 4096 ∨ keyNumBits m pubkey = 8192) ∧
      keyNumBytes = 8 + 2 * keyNumBits m pubkey / 8 ∧ k.n0inv = be32 m (pubkey + 4) ∧
      k.n = wordsOfBytes m (pubkey + 8) (keyNumBits m pubkey / 32) ∧
      k.rr = wordsOfBytes m (pubkey + 8 + keyNumBits m pubkey / 8) (keyNumBits m pubkey / 32) := by
  unfold iavbParseKeyData
  simp only [← keyNumBits.eq_def, sizeofAvbRSAPublicKeyHeader]
  by_cases hbits : keyNumBits m pubkey = 2048 ∨ keyNumBits m pubkey = 4096 ∨ keyNumBits m pubkey = 8192
  · rw [if_neg (not_not.mpr hbits)]
    by_cases hlen : keyNumBytes = 8 + 2 * keyNumBits m pubkey / 8
    · rw [if_neg (not_not.mpr hlen)]
      simp only [Bool.not_true, Bool.false_eq_true, if_false, Option.some.injEq]
      constructor
      · rintro rfl
        exact ⟨hbits, hlen, rfl, rfl, rfl⟩
      · rintro ⟨-, -, hinv, hn, hrr⟩
        cases k
        simp_all
    · rw [if_pos hlen]
      simp [hlen]
  · rw [if_pos hbits]
    simp [hbits]

/-- What the words of a parsed key are. -/
theorem parse_key {k : IAvbKey} (h : iavbParseKeyData m true pubkey keyNumBytes = some k) :
    4 * k.len = keyNumBits m pubkey / 8 ∧ wordsVal k.n = modulus m pubkey ∧ (PublicKey m pubkey → k.WellFormed) ∧
      (2 ^ 32) ^ k.len = 2 ^ keyNumBits m pubkey := by
  obtain ⟨hbits, -, hinv, hn, hrr⟩ := parse_iff.mp h
  have hfour : 4 * (keyNumBits m pubkey / 32) = keyNumBits m pubkey / 8 := by omega
  have hlen : k.len = keyNumBits m pubkey / 32 := by rw [IAvbKey.len, hn]; simp [wordsOfBytes]
  have hmod : wordsVal k.n = modulus m pubkey := by rw [hn, wordsOfBytes, wordsVal_of_bytes, hfour, modulus]
  have hpow : (2 ^ 32) ^ k.len = 2 ^ keyNumBits m pubkey := by
    rw [hlen, ← pow_mul]
    congr 1
    omega
  refine ⟨by rw [hlen, hfour], hmod, fun hk => ⟨?_, ?_⟩, hpow⟩
  · rw [IAvbKey.Inverse, hmod, hinv]
    exact hk.inverse
  · rw [hmod, hpow, hrr, wordsOfBytes, wordsVal_of_bytes, hfour]
    exact hk.square

theorem parse_of_sizes (h : Sizes m pubkey keyNumBytes sigNumBytes hashNumBytes padding) :
    ∃ k, iavbParseKeyData m true pubkey keyNumBytes = some k :=
  ⟨⟨be32 m (pubkey + 4), wordsOfBytes m (pubkey + 8) (keyNumBits m pubkey / 32),
    wordsOfBytes m (pubkey + 8 + keyNumBits m pubkey / 8) (keyNumBits m pubkey / 32), by simp [wordsOfBytes]⟩,
    parse_iff.mpr ⟨h.bits, h.key, rfl, rfl, rfl⟩⟩

/-- A signature is accepted when the sizes fit and the buffer has become the padded hash. -/
theorem avbRsaVerify_eq_true (hfit : padding.length + hashNumBytes < 2 ^ 64) (modpow : Bool) :
    avbRsaVerify m ⟨true, true, modpow⟩ pubkey keyNumBytes sig sigNumBytes hash hashNumBytes padding = true ↔
      Sizes m pubkey keyNumBytes sigNumBytes hashNumBytes padding ∧
        ∀ k, iavbParseKeyData m true pubkey keyNumBytes = some k →
          modpowF4 k modpow (m.read sig sigNumBytes) = padding ++ m.read hash hashNumBytes := by
  unfold avbRsaVerify
  rcases hk : iavbParseKeyData m true pubkey keyNumBytes with - | k
  · refine iff_of_false Bool.false_ne_true ?_
    rintro ⟨hsizes, -⟩
    obtain ⟨k, hk'⟩ := parse_of_sizes hsizes
    rw [hk] at hk'
    cases hk'
  · obtain ⟨hfour, -, -, -⟩ := parse_key hk
    obtain ⟨hbits, hkeyLen, -⟩ := parse_iff.mp hk
    simp only [Option.some.injEq, forall_eq']
    by_cases hsig : sigNumBytes = 4 * k.len
    · rw [if_neg (not_not.mpr hsig)]
      by_cases hpad : padding.length + hashNumBytes = sigNumBytes
      · have hpad' : padding.length = (sigNumBytes + 2 ^ 64 - hashNumBytes) % 2 ^ 64 := by omega
        rw [if_neg (not_not.mpr hpad')]
        simp only [Bool.not_true, Bool.false_eq_true, if_false]
        have hbuf : (modpowF4 k modpow (m.read sig sigNumBytes)).length = padding.length + hashNumBytes := by
          rw [length_modpowF4 modpow (by simpa using hsig), Mem.length_read, hpad]
        generalize modpowF4 k modpow (m.read sig sigNumBytes) = buf at hbuf ⊢
        have htake : (buf.take padding.length).length = padding.length := by rw [List.length_take]; omega
        have hdrop : ((buf.drop padding.length).take hashNumBytes).length = (m.read hash hashNumBytes).length := by
          rw [List.length_take, List.length_drop, Mem.length_read]
          omega
        have hall : (buf.drop padding.length).take hashNumBytes = buf.drop padding.length :=
          List.take_of_length_le (by rw [List.length_drop]; omega)
        have hsizes : Sizes m pubkey keyNumBytes sigNumBytes hashNumBytes padding :=
          ⟨hbits, hkeyLen, hsig.trans hfour, hpad⟩
        have hfirst := avbSafeMemcmp_iff htake
        have hsecond := avbSafeMemcmp_iff hdrop
        constructor
        · intro hok
          split at hok
          · cases hok
          · rename_i hne
            have hpadding := hfirst.mp (Bool.eq_false_iff.mpr hne)
            have hhash := hsecond.mp (by simpa using hok)
            refine ⟨hsizes, ?_⟩
            calc buf = buf.take padding.length ++ buf.drop padding.length := (List.take_append_drop _ _).symm
              _ = padding ++ m.read hash hashNumBytes := by rw [hpadding, ← hhash, hall]
        · rintro ⟨-, rfl⟩
          rw [hfirst.mpr (List.take_left' rfl), hsecond.mpr (by rw [hall, List.drop_left' rfl])]
          rfl
      · have hpad' : padding.length ≠ (sigNumBytes + 2 ^ 64 - hashNumBytes) % 2 ^ 64 := by omega
        rw [if_pos hpad']
        exact iff_of_false Bool.false_ne_true fun h => hpad h.1.padding
    · rw [if_pos hsig]
      exact iff_of_false Bool.false_ne_true fun h => hsig (h.1.sig.trans hfour.symm)

/-- Whatever becomes of the allocations, a signature is only accepted under a key of at least 2048 bits. -/
theorem keyNumBytes_of_verify {alloc : Mallocs}
    (h : avbRsaVerify m alloc pubkey keyNumBytes sig sigNumBytes hash hashNumBytes padding = true) : 520 ≤ keyNumBytes := by
  unfold avbRsaVerify at h
  rcases hk : iavbParseKeyData m alloc.key pubkey keyNumBytes with - | k
  · rw [hk] at h
    cases h
  · rcases halloc : alloc.key with - | -
    · rw [halloc, iavbParseKeyData] at hk
      simp only [Bool.not_false, if_true] at hk
      split at hk
      · cases hk
      · split at hk <;> cases hk
    · rw [halloc] at hk
      obtain ⟨hbits, hlen, -⟩ := parse_iff.mp hk
      omega

/-- Where an allocation of the exponentiation fails, the signature itself is compared: the padded hash is accepted as its
own signature, under every key. -/
theorem avbRsaVerify_unallocated (hfit : padding.length + hashNumBytes < 2 ^ 64) :
    avbRsaVerify m ⟨true, true, false⟩ pubkey keyNumBytes sig sigNumBytes hash hashNumBytes padding = true ↔
      Sizes m pubkey keyNumBytes sigNumBytes hashNumBytes padding ∧
        m.read sig sigNumBytes = padding ++ m.read hash hashNumBytes := by
  rw [avbRsaVerify_eq_true hfit]
  refine and_congr_right fun hsizes => ?_
  obtain ⟨k, hparse⟩ := parse_of_sizes hsizes
  exact ⟨fun h => h k hparse, fun h _ _ => h⟩

/-! ## Only the bytes named are read -/

theorem be32_congr {m m' : Mem} {off off' : ℕ} (h : ∀ i < 4, m (off + i) = m' (off' + i)) : be32 m off = be32 m' off' := by
  have h0 := h 0 (by omega)
  rw [be32, be32, h 1 (by omega), h 2 (by omega), h 3 (by omega)]
  rw [Nat.add_zero, Nat.add_zero] at h0
  rw [h0]

theorem wordsOfBytes_congr {m m' : Mem} {off off' len : ℕ} (h : ∀ i < 4 * len, m (off + i) = m' (off' + i)) :
    wordsOfBytes m off len = wordsOfBytes m' off' len := by
  unfold wordsOfBytes
  apply List.map_congr_left
  intro i hi
  rw [List.mem_range] at hi
  simp only [Nat.add_assoc]
  rw [h _ (by omega), h _ (by omega), h _ (by omega), h _ (by omega)]

theorem parse_unallocated : iavbParseKeyData m false pubkey keyNumBytes = none := by
  unfold iavbParseKeyData
  split_ifs <;> first | rfl | simp_all

theorem iavbParseKeyData_congr {m' : Mem} {pubkey' : ℕ} (allocated : Bool)
    (h : ∀ i < keyNumBytes, m (pubkey + i) = m' (pubkey' + i)) :
    iavbParseKeyData m allocated pubkey keyNumBytes = iavbParseKeyData m' allocated pubkey' keyNumBytes := by
  cases allocated with
  | false => rw [parse_unallocated, parse_unallocated]
  | true =>
    apply Option.ext
    intro k
    rw [parse_iff, parse_iff]
    by_cases hshort : keyNumBytes < 8
    · refine iff_of_false ?_ ?_ <;>
      · rintro ⟨hbits, hlen, -⟩
        omega
    have hword : ∀ off, off + 4 ≤ keyNumBytes → be32 m (pubkey + off) = be32 m' (pubkey' + off) := fun off hoff =>
      be32_congr fun i hi => by
        rw [Nat.add_assoc, Nat.add_assoc]
        exact h _ (by omega)
    have hnum : keyNumBits m pubkey = keyNumBits m' pubkey' := congrArg UInt32.toNat (hword 0 (by omega))
    rw [← hnum, hword 4 (by omega)]
    refine and_congr_right fun hbits => and_congr_right fun hlen => ?_
    have hwords : ∀ off, off + keyNumBits m pubkey / 8 ≤ keyNumBytes →
        wordsOfBytes m (pubkey + off) (keyNumBits m pubkey / 32) = wordsOfBytes m' (pubkey' + off) (keyNumBits m pubkey / 32) :=
      fun off hoff => wordsOfBytes_congr fun i hi => by
        rw [Nat.add_assoc, Nat.add_assoc]
        exact h _ (by omega)
    rw [hwords 8 (by omega), Nat.add_assoc pubkey, Nat.add_assoc pubkey', hwords (8 + _) (by omega)]

/-- A verification depends on the bytes of the key, the signature and the hash alone. -/
theorem avbRsaVerify_congr {m' : Mem} {pubkey' sig' hash' : ℕ} (alloc : Mallocs)
    (hkey : ∀ i < keyNumBytes, m (pubkey + i) = m' (pubkey' + i)) (hsig : ∀ i < sigNumBytes, m (sig + i) = m' (sig' + i))
    (hhash : ∀ i < hashNumBytes, m (hash + i) = m' (hash' + i)) :
    avbRsaVerify m alloc pubkey keyNumBytes sig sigNumBytes hash hashNumBytes padding =
      avbRsaVerify m' alloc pubkey' keyNumBytes sig' sigNumBytes hash' hashNumBytes padding := by
  unfold avbRsaVerify
  rw [iavbParseKeyData_congr alloc.key hkey, Mem.read_congr hsig, Mem.read_congr hhash]

/-- A key of the modulus 2^2048 - 1 at 0, a signature at 520 and a hash at 776, both one. -/
def ones : Mem := fun i =>
  if i = 2 then 8
  else if 8 ≤ i ∧ i < 264 then 0xFF
  else if i = 7 ∨ i = 519 ∨ i = 775 ∨ i = 807 then 1
  else 0

theorem ones_key : PublicKey ones 0 := ⟨by decide +kernel, by decide +kernel, by decide +kernel⟩

theorem ones_sizes : Sizes ones 0 520 256 32 (List.replicate 224 0) := ⟨.inl (by decide), by decide +kernel, by decide +kernel, by rw [List.length_replicate]⟩

theorem avbRsaVerify_unallocated_ones :
    avbRsaVerify ones ⟨true, true, false⟩ 0 520 520 256 776 32 (List.replicate 224 0) = true :=
  (avbRsaVerify_unallocated (by rw [List.length_replicate]; norm_num)).mpr ⟨ones_sizes, by decide +kernel⟩

end RCar.AvbRsa
