import RCarM3N.Lib.Bytes

/-! Montgomery's reduction one word at a time, exponentiation with it, and numbers as words and as bytes. -/

namespace RCar

/-! ## Reduction -/

namespace Montgomery

variable {β n n' r a b c d x y z : ℕ}

/-- The multiple of the modulus that clears the lowest word of a number. -/
theorem dvd_add_mul (h : (n * n' + 1) % β = 0) (x : ℕ) : β ∣ x + x * n' % β * n := by
  have hdvd : β ∣ x * (n * n' + 1) := (Nat.dvd_of_mod_eq_zero h).mul_left x
  refine (Nat.ModEq.dvd_iff ?_ dvd_rfl).mp hdvd
  calc x * (n * n' + 1) = x + x * n' * n := by ring
    _ ≡ x + x * n' % β * n [MOD β] := ((Nat.mod_modEq _ _).symm.mul_right n).add_left x

/-- One word more overflows by less than the modulus. -/
theorem reduce_lt (ha : a < β) (hb : b < r) (hc : c < r) (hd : d < β) : (c + a * b + d * n) / β < r + n := by
  apply Nat.div_lt_of_lt_mul
  have h1 : a * b ≤ (β - 1) * (r - 1) := Nat.mul_le_mul (by omega) (by omega)
  have h2 : d * n ≤ (β - 1) * n := Nat.mul_le_mul_right n (by omega)
  obtain ⟨β', rfl⟩ := Nat.exists_eq_add_of_lt (Nat.zero_lt_of_lt ha)
  obtain ⟨r', rfl⟩ := Nat.exists_eq_add_of_lt (Nat.zero_lt_of_lt hb)
  simp only [Nat.zero_add, Nat.add_sub_cancel] at h1 h2 ⊢
  calc c + a * b + d * n ≤ r' + β' * r' + β' * n := by omega
    _ < (β' + 1) * (r' + 1 + n) := by ring_nf; omega

theorem reduce_modEq (h : β ∣ c + a * b + d * n) : β * ((c + a * b + d * n) / β) ≡ c + a * b [MOD n] := by
  rw [Nat.mul_div_cancel' h]
  exact Nat.modEq_iff_dvd.mpr ⟨-d, by push_cast; ring⟩

/-- `x` stands for `a`. -/
def Form (n r x a : ℕ) : Prop := x ≡ a * r [MOD n]

theorem Form.enter (hr : n.Coprime r) (hrr : b ≡ r ^ 2 [MOD n]) (h : r * z ≡ a * b [MOD n]) : Form n r z a := by
  refine Nat.ModEq.cancel_left_of_coprime hr ?_
  calc r * z ≡ a * b [MOD n] := h
    _ ≡ a * r ^ 2 [MOD n] := hrr.mul_left a
    _ = r * (a * r) := by ring

theorem Form.mul (hr : n.Coprime r) (hx : Form n r x a) (hy : Form n r y b) (h : r * z ≡ x * y [MOD n]) :
    Form n r z (a * b) := by
  refine Nat.ModEq.cancel_left_of_coprime hr ?_
  calc r * z ≡ x * y [MOD n] := h
    _ ≡ a * r * (b * r) [MOD n] := Nat.ModEq.mul hx hy
    _ = r * (a * b * r) := by ring

theorem Form.leave (hr : n.Coprime r) (hx : Form n r x a) (h : r * z ≡ x * b [MOD n]) : z ≡ a * b [MOD n] := by
  refine Nat.ModEq.cancel_left_of_coprime hr ?_
  calc r * z ≡ x * b [MOD n] := h
    _ ≡ a * r * b [MOD n] := hx.mul_right b
    _ = r * (a * b) := by ring

/-- Squaring again and again. -/
theorem Form.iterate {α : Type} {v : α → ℕ} {P : α → Prop} {sq : α → α} (hr : n.Coprime r)
    (hsq : ∀ s, P s → P (sq s) ∧ r * v (sq s) ≡ v s * v s [MOD n]) {s : α} (hs : P s) (h : Form n r (v s) a) (k : ℕ) :
    P (sq^[k] s) ∧ Form n r (v (sq^[k] s)) (a ^ 2 ^ k) := by
  induction k with
  | zero => simpa using ⟨hs, h⟩
  | succ k ih =>
    obtain ⟨hk, hform⟩ := ih
    obtain ⟨hk', hval⟩ := hsq _ hk
    rw [Function.iterate_succ_apply', pow_succ, pow_mul, pow_two]
    exact ⟨hk', hform.mul hr hform hval⟩

end Montgomery

/-! ## Words -/

/-- The number that words make, the lowest first. -/
def wordsVal (l : List UInt32) : ℕ := Nat.ofDigits (2 ^ 32) (l.map UInt32.toNat)

@[simp] theorem wordsVal_nil : wordsVal [] = 0 := rfl

@[simp] theorem wordsVal_cons (x : UInt32) (l : List UInt32) : wordsVal (x :: l) = x.toNat + 2 ^ 32 * wordsVal l :=
  Nat.ofDigits_cons

theorem wordsVal_append (l k : List UInt32) : wordsVal (l ++ k) = wordsVal l + (2 ^ 32) ^ l.length * wordsVal k := by
  rw [wordsVal, List.map_append, Nat.ofDigits_append, List.length_map]
  rfl

theorem wordsVal_lt (l : List UInt32) : wordsVal l < (2 ^ 32) ^ l.length := by
  have h := Nat.ofDigits_lt_base_pow_length (b := 2 ^ 32) (l := l.map UInt32.toNat) (by norm_num) (by
    intro x hx
    obtain ⟨w, -, rfl⟩ := List.mem_map.mp hx
    exact w.toNat_lt)
  rwa [List.length_map] at h

@[simp] theorem wordsVal_zero (k : ℕ) : wordsVal (List.replicate k 0) = 0 := by
  induction k with
  | zero => rfl
  | succ k ih => rw [List.replicate_succ, wordsVal_cons, ih]; rfl

/-! ## Bytes -/

/-- The number that bytes make, the highest first. -/
def bytesVal (l : List UInt8) : ℕ := Nat.ofDigits (2 ^ 8) (l.reverse.map UInt8.toNat)

theorem bytesVal_lt (l : List UInt8) : bytesVal l < (2 ^ 8) ^ l.length := by
  have h := Nat.ofDigits_lt_base_pow_length (b := 2 ^ 8) (l := l.reverse.map UInt8.toNat) (by norm_num) (by
    intro x hx
    obtain ⟨w, -, rfl⟩ := List.mem_map.mp hx
    exact w.toNat_lt)
  rwa [List.length_map, List.length_reverse] at h

theorem bytesVal_inj {l k : List UInt8} (hlen : l.length = k.length) (h : bytesVal l = bytesVal k) : l = k := by
  have hdigit : ∀ l : List UInt8, ∀ x ∈ l.reverse.map UInt8.toNat, x < 2 ^ 8 := by
    intro l x hx
    obtain ⟨w, -, rfl⟩ := List.mem_map.mp hx
    exact w.toNat_lt
  have heq := Nat.ofDigits_inj_of_len_eq (by norm_num : 1 < 2 ^ 8) (by simpa using hlen) (hdigit l) (hdigit k) h
  have hinj := List.map_injective_iff.mpr (fun a b hab => UInt8.toNat_inj.mp hab : Function.Injective UInt8.toNat)
  exact List.reverse_injective (hinj heq)

theorem bytesVal_append (l k : List UInt8) : bytesVal (l ++ k) = bytesVal k + (2 ^ 8) ^ k.length * bytesVal l := by
  rw [bytesVal, List.reverse_append, List.map_append, Nat.ofDigits_append, List.length_map, List.length_reverse]
  rfl

/-- The words of bytes, taken from the last ones on. -/
theorem wordsVal_of_bytes (m : Mem) (off k : ℕ) :
    wordsVal ((List.range k).map fun i => word32 (m (off + 4 * (k - 1 - i) + 3)) (m (off + 4 * (k - 1 - i) + 2))
      (m (off + 4 * (k - 1 - i) + 1)) (m (off + 4 * (k - 1 - i)))) = bytesVal (m.read off (4 * k)) := by
  induction k generalizing off with
  | zero => rfl
  | succ k ih =>
    have hrest : ∀ i ∈ List.range k, off + 4 * (k + 1 - 1 - i) = off + 4 + 4 * (k - 1 - i) := by
      intro i hi
      have := List.mem_range.mp hi
      omega
    rw [List.range_succ, List.map_append, wordsVal_append, List.map_congr_left fun i hi => by rw [hrest i hi], ih,
      show 4 * (k + 1) = 4 + 4 * k by ring, Mem.read_append, bytesVal_append, List.length_map, List.length_range,
      Mem.length_read, pow_mul]
    congr 1
    have hlast : k + 1 - 1 - k = 0 := by omega
    simp only [List.map_cons, List.map_nil, wordsVal_cons, wordsVal_nil, toNat_word32, Nat.mul_zero, Nat.add_zero, hlast]
    simp [bytesVal, Mem.read, List.range_succ, Nat.ofDigits_cons]
    ring

theorem length_of_words (l : List UInt32) :
    (l.flatMap fun x => [byte32 x 3, byte32 x 2, byte32 x 1, byte32 x 0]).length = 4 * l.length := by
  induction l with
  | nil => rfl
  | cons x l ih =>
    rw [List.flatMap_cons, List.length_append, ih, List.length_cons]
    simp only [List.length_cons, List.length_nil]
    ring

/-- The bytes of words, written from the last ones on. -/
theorem bytesVal_of_words (l : List UInt32) :
    bytesVal (l.reverse.flatMap fun x => [byte32 x 3, byte32 x 2, byte32 x 1, byte32 x 0]) = wordsVal l := by
  induction l with
  | nil => rfl
  | cons x l ih =>
    have hx : x.toNat = (byte32 x 0).toNat + 2 ^ 8 * (byte32 x 1).toNat + 2 ^ 16 * (byte32 x 2).toNat +
        2 ^ 24 * (byte32 x 3).toNat := by
      rw [← toNat_word32, word32_byte32]
    rw [List.reverse_cons, List.flatMap_append, bytesVal_append, ih, wordsVal_cons, hx]
    simp [bytesVal, Nat.ofDigits_cons]
    ring

end RCar
