import RCarM3N.Lib.Bytes
import RCarM3N.Model.FillDma

/-! When the fill of the DRAM covers exactly its range: where the length is long enough that nothing
of it is lost in the division over the channels, the addresses can be programmed, and the channel
below the four in use has no secure attribute. -/

namespace RCar.Cr7

variable {fillData : UInt32} {status : Status} {d d' : Dmac} {dst : UInt64} {len : UInt32} {bits : ℕ}

theorem finRange_four : List.finRange 4 = [0, 1, 2, 3] := by decide

/-! ## Wait -/

/-- Every channel ends, without an address error, and stays so. -/
structure Finishes (status : Status) : Prop where
  ends : ∀ c, ∃ n, ∀ m ≥ n, status m c 0 &&& RDMCHCR_TE_BIT = RDMCHCR_TE_BIT
  noError : ∀ m c, status m c 1 &&& RDMCHCR_CAE_BIT = 0

theorem waitRound_of_noError {chcr : Fin 4 → Fin 2 → UInt32} (h : ∀ c, chcr c 1 &&& RDMCHCR_CAE_BIT = 0) :
    ∃ result, waitRound chcr = some result := by
  simp [waitRound, finRange_four, h]

theorem waitRound_of_ended {chcr : Fin 4 → Fin 2 → UInt32} (h : ∀ c, chcr c 1 &&& RDMCHCR_CAE_BIT = 0)
    (hte : ∀ c, chcr c 0 &&& RDMCHCR_TE_BIT = RDMCHCR_TE_BIT) : waitRound chcr = some 0 := by
  simp only [waitRound, finRange_four, List.foldlM_cons, List.foldlM_nil, h, hte, ne_eq, not_true,
    if_true, if_false]
  decide

/-- The wait ends in one way alone. -/
theorem endFillDMA_eq {fuel n : ℕ} (h : endFillDMA status d fuel n = .ended d') : d' = clearChannels d := by
  induction fuel generalizing n with
  | zero => cases h
  | succ fuel ih =>
    rw [endFillDMA] at h
    split at h
    · cases h
    · split_ifs at h
      · cases h
        rfl
      · exact ih h

theorem endFillDMA_ends (h : Finishes status) (d : Dmac) :
    ∃ fuel, endFillDMA status d fuel 0 = .ended (clearChannels d) := by
  choose n hn using h.ends
  have hlast : waitRound (status (Finset.univ.sup n)) = some 0 :=
    waitRound_of_ended (h.noError _) fun c => hn c _ (Finset.le_sup (Finset.mem_univ c))
  -- from any round before the last one on
  have hfrom : ∀ k m, m + k = Finset.univ.sup n →
      ∃ fuel, endFillDMA status d fuel m = .ended (clearChannels d) := by
    intro k
    induction k with
    | zero =>
      rintro m rfl
      exact ⟨1, by simp [endFillDMA, hlast]⟩
    | succ k ih =>
      intro m hm
      obtain ⟨fuel, hfuel⟩ := ih (m + 1) (by omega)
      obtain ⟨result, hresult⟩ := waitRound_of_noError (h.noError m)
      refine ⟨fuel + 1, ?_⟩
      rw [endFillDMA, hresult]
      dsimp only
      split_ifs
      · rfl
      · exact hfuel
  exact hfrom _ 0 (Nat.zero_add _)

/-! ## Secure attributes -/

/-- The secure control register after a fill. -/
theorem rdmsec_fill (d : Dmac) (dst : Fin 4 → UInt64) (len : Fin 4 → UInt32) :
    (clearChannels (startFillDMA fillData dst len d)).rdmsec = d.rdmsec &&& 0xFFFFFFE0 := by
  simp only [clearChannels, startFillDMA, finRange_four, List.foldl_cons, List.foldl_nil]
  generalize d.rdmsec = x
  simp only [UInt32.or_assoc, UInt32.and_assoc]
  change (x ||| 0x1E) &&& 0xFFFFFFE0 = x &&& 0xFFFFFFE0
  apply UInt32.toNat_inj.mp
  rw [UInt32.toNat_and, UInt32.toNat_or, Nat.and_or_distrib_right, UInt32.toNat_and]
  simp

/-- A word without its bits 0 to 4. -/
theorem getLsbD_and_0xFFFFFFE0 (x : UInt32) (k : ℕ) :
    (x &&& 0xFFFFFFE0).toBitVec.getLsbD k = (x.toBitVec.getLsbD k && decide (5 ≤ k)) := by
  rw [UInt32.toBitVec_and, BitVec.getLsbD_and]
  by_cases hk : k < 32
  · congr 1
    interval_cases k <;> rfl
  · simp [BitVec.getLsbD_of_ge x.toBitVec k (by omega)]

/-- The bits of the channels in use are cleared, and those of the others as they were. -/
def SecureKept (before after : UInt32) : Prop :=
  ∀ k < 32, after.toBitVec.getLsbD k = if 1 ≤ k ∧ k ≤ 4 then false else before.toBitVec.getLsbD k

/-- The mask also clears the bit below the channels in use. -/
theorem secureKept_iff (x : UInt32) : SecureKept x (x &&& 0xFFFFFFE0) ↔ x.toBitVec.getLsbD 0 = false := by
  unfold SecureKept
  constructor
  · intro h
    have h0 := h 0 (by decide)
    rw [getLsbD_and_0xFFFFFFE0, if_neg (by decide)] at h0
    simpa using h0.symm
  · intro h k _
    rw [getLsbD_and_0xFFFFFFE0]
    split_ifs with hk
    · simp [show ¬ 5 ≤ k by omega]
    · by_cases h5 : 5 ≤ k
      · simp [h5]
      · obtain rfl : k = 0 := by omega
        rw [h, Bool.false_and]

/-! ## Lengths -/

theorem toNat_unitMask : unitMask.toNat = 2 ^ 6 - 1 := rfl

theorem toNat_dmalen0 (len : UInt32) : (dmalen0 len).toNat = len.toNat / 256 * 64 := by
  rw [dmalen0, toNat_clearLow _ (by decide) toNat_unitMask, UInt32.toNat_div,
    show DMA_PARALLEL_CH.toNat = 4 from rfl, Nat.div_div_eq_div_mul]
  rfl

theorem dmalen0_eq_zero_iff (len : UInt32) : dmalen0 len = 0 ↔ len.toNat < 256 := by
  rw [← UInt32.toNat_inj, toNat_dmalen0]
  simp

theorem toNat_remLen (h64 : len.toNat % 64 = 0) :
    (remLen len).toNat = len.toNat % (len.toNat / 256 * 64) := by
  have hlt := len.toNat_lt
  have hle : len.toNat % (len.toNat / 256 * 64) ≤ len.toNat := Nat.mod_le _ _
  have hmod : len.toNat % (len.toNat / 256 * 64) % 64 = 0 := by
    rw [Nat.mod_mul_left_mod, h64]
  rw [remLen, toNat_clearLow _ (by decide) toNat_unitMask, UInt32.toNat_add, UInt32.toNat_mod,
    toNat_dmalen0, toNat_unitMask]
  generalize len.toNat % (len.toNat / 256 * 64) = rem at hle hmod
  omega

/-- The lengths of the four channels. -/
theorem toNat_dmalen (h64 : len.toNat % 64 = 0) (h256 : 256 ≤ len.toNat) (c : Fin 4) :
    (dmalen len c).toNat = len.toNat / 256 * 64 +
      if c = 3 then len.toNat % (len.toNat / 256 * 64) else 0 := by
  unfold dmalen
  split_ifs with hc
  · have hsum : len.toNat / 256 * 64 + len.toNat % (len.toNat / 256 * 64) ≤ len.toNat := by
      have hdiv := Nat.div_add_mod len.toNat (len.toNat / 256 * 64)
      have hpos : 1 ≤ len.toNat / (len.toNat / 256 * 64) :=
        (Nat.one_le_div_iff (by omega)).mpr (by omega)
      linarith [Nat.le_mul_of_pos_right (len.toNat / 256 * 64) hpos]
    rw [UInt32.toNat_add, toNat_dmalen0, toNat_remLen h64]
    exact Nat.mod_eq_of_lt (hsum.trans_lt len.toNat_lt)
  · rw [toNat_dmalen0, Nat.add_zero]

/-! ## Addresses -/

theorem toNat_dmadst (c : Fin 4) :
    (dmadst dst len c).toNat = (dst.toNat + len.toNat / 256 * 64 * c.val) % 2 ^ 64 := by
  rw [dmadst, UInt64.toNat_add, UInt64.toNat_mul, UInt32.toNat_toUInt64, toNat_dmalen0,
    Nat.add_mod_mod]
  fin_cases c <;> rfl

/-- The bytes of `n` steps from `s` on, in the window of 4 GiB that `s` lies in. -/
def window (s n : ℕ) : Set ℕ := {a | ∃ i < n, a = s / 2 ^ 32 * 2 ^ 32 + (s % 2 ^ 32 + i) % 2 ^ 32}

theorem window_eq {s n : ℕ} (h : s % 2 ^ 32 + n ≤ 2 ^ 32) : window s n = Set.Ico s (s + n) := by
  ext a
  simp only [window, Set.mem_ofPred_eq, Set.mem_Ico]
  constructor
  · rintro ⟨i, hi, rfl⟩
    omega
  · intro ha
    exact ⟨a - s, by omega, by omega⟩

/-- Steps that leave the window come back to its first byte. -/
theorem first_mem_window {s n : ℕ} (h : 2 ^ 32 < s % 2 ^ 32 + n) : s / 2 ^ 32 * 2 ^ 32 ∈ window s n :=
  ⟨2 ^ 32 - s % 2 ^ 32, by omega, by omega⟩

theorem written_start (d : Dmac) (dst : Fin 4 → UInt64) (len : Fin 4 → UInt32) (c : Fin 4) :
    ((startFillDMA fillData dst len d).channel c).written bits =
      window ((dst c).toNat % 2 ^ 40) (64 * ((len c).toNat / 64 % 2 ^ bits)) := by
  have hdar : (dst c &&& LOWER_32BIT_DST_ADDR).toUInt32.toNat = (dst c).toNat % 2 ^ 32 := by
    rw [UInt64.toNat_toUInt32, UInt64.toNat_and, show LOWER_32BIT_DST_ADDR.toNat = 2 ^ 32 - 1 from rfl,
      Nat.and_two_pow_sub_one_eq_mod, Nat.mod_mod]
  have hfixdar : (dst c >>> RDMFIXDAR_DAR_SHIFT &&& DAR_MASK).toUInt32.toNat =
      (dst c).toNat / 2 ^ 32 % 2 ^ 8 := by
    rw [UInt64.toNat_toUInt32, UInt64.toNat_and, show DAR_MASK.toNat = 2 ^ 8 - 1 from rfl,
      Nat.and_two_pow_sub_one_eq_mod, UInt64.toNat_shiftRight, Nat.shiftRight_eq_div_pow,
      show RDMFIXDAR_DAR_SHIFT.toNat % 64 = 32 from rfl]
    omega
  have htcr : (len c >>> RDMTCR_CNT_SHIFT).toNat = (len c).toNat / 64 := by
    rw [UInt32.toNat_shiftRight, Nat.shiftRight_eq_div_pow]
    rfl
  have hhigh : (dst c).toNat % 2 ^ 40 / 2 ^ 32 = (dst c).toNat / 2 ^ 32 % 2 ^ 8 := by omega
  have hlow : (dst c).toNat % 2 ^ 40 % 2 ^ 32 = (dst c).toNat % 2 ^ 32 := by omega
  simp only [FillChannel.written, startFillDMA, window, hdar, hfixdar, htcr, hhigh, hlow]

theorem channel_clearChannels (d : Dmac) : (clearChannels d).channel = d.channel := by
  simp [clearChannels, finRange_four]

/-- The first byte that channel `c` is given, and how many. -/
def chStart (dst len : ℕ) (c : Fin 4) : ℕ := dst + len / 256 * 64 * c.val

def chLength (len : ℕ) (c : Fin 4) : ℕ := len / 256 * 64 + if c = 3 then len % (len / 256 * 64) else 0

/-- What the channels of a fill write. -/
theorem written_fill (h64 : len.toNat % 64 = 0) (h256 : 256 ≤ len.toNat) (d : Dmac) :
    (clearChannels (startFillDMA fillData (dmadst dst len) (dmalen len) d)).written bits =
      {a | ∃ c, a ∈ window (chStart dst.toNat len.toNat c % 2 ^ 40)
        (64 * (chLength len.toNat c / 64 % 2 ^ bits))} := by
  ext a
  refine exists_congr fun c => ?_
  rw [channel_clearChannels, written_start, toNat_dmadst, toNat_dmalen h64 h256,
    Nat.mod_mod_of_dvd _ (pow_dvd_pow 2 (by decide))]
  rfl

/-! ## Coverage -/

/-- What is left over after the division is divided by the length of a channel once more. -/
theorem mod_channel (len : ℕ) : len % (len / 256 * 64) = len % 256 % (len / 256 * 64) := by
  calc len % (len / 256 * 64) = (len / 256 * 64 * 4 + len % 256) % (len / 256 * 64) := by
        congr 1
        omega
    _ = len % 256 % (len / 256 * 64) := Nat.mul_add_mod _ _ _

theorem chLength_three (len : ℕ) : chLength len 3 = len / 256 * 64 + len % 256 % (len / 256 * 64) := by
  rw [chLength, if_pos rfl, mod_channel]

theorem chLength_of_ne (len : ℕ) {c : Fin 4} (hc : c ≠ 3) : chLength len c = len / 256 * 64 := by
  rw [chLength, if_neg hc, Nat.add_zero]

theorem chStart_values (dst len : ℕ) : chStart dst len 0 = dst ∧
    chStart dst len 1 = dst + len / 256 * 64 ∧ chStart dst len 2 = dst + len / 256 * 64 * 2 ∧
    chStart dst len 3 = dst + len / 256 * 64 * 3 := by
  simp [chStart]

/-- The channels lie behind one another. -/
theorem chStart_add_chLength_le (dst len : ℕ) (c : Fin 4) :
    chStart dst len c + chLength len c ≤ dst + len := by
  have hrest := Nat.mod_le (len % 256) (len / 256 * 64)
  have hdiv := Nat.div_add_mod len 256
  fin_cases c
  · simp [chStart, chLength_of_ne]
    omega
  · simp [chStart, chLength_of_ne]
    omega
  · simp [chStart, chLength_of_ne]
    omega
  · simp [chStart, chLength_three]
    omega

/-- When the channels together get the whole length, at addresses that they can reach: the rest of
the division into quarters is smaller than a quarter, the counter holds the last one, and neither the
range nor a quarter passes the end of what a channel can address. -/
structure FillsExactly (bits dst len : ℕ) : Prop where
  divides : len % 256 < len / 256 * 64
  count : len / 256 + len % 256 / 64 < 2 ^ bits
  reach : dst + len ≤ 2 ^ 40
  boundary : ∀ c : Fin 4, (dst + len / 256 * 64 * c.val) % 2 ^ 32 +
    (len / 256 * 64 + if c = 3 then len % 256 else 0) ≤ 2 ^ 32

/-- The set that the channels write, by their starts and lengths. -/
def channelBytes (bits dst len : ℕ) : Set ℕ :=
  {a | ∃ c, a ∈ window (chStart dst len c % 2 ^ 40) (64 * (chLength len c / 64 % 2 ^ bits))}

theorem chLength_of_divides {len : ℕ} (h : len % 256 < len / 256 * 64) (c : Fin 4) :
    chLength len c = len / 256 * 64 + if c = 3 then len % 256 else 0 := by
  rw [chLength, mod_channel, Nat.mod_eq_of_lt h]

theorem channelBytes_eq {dst len : ℕ} (h64 : len % 64 = 0) (h256 : 256 ≤ len)
    (h : FillsExactly bits dst len) : channelBytes bits dst len = Set.Ico dst (dst + len) := by
  have hwin (c : Fin 4) : window (chStart dst len c % 2 ^ 40) (64 * (chLength len c / 64 % 2 ^ bits)) =
      Set.Ico (chStart dst len c) (chStart dst len c + chLength len c) := by
    have hlen := chLength_of_divides h.divides c
    have hend := chStart_add_chLength_le dst len c
    have hstart : chStart dst len c % 2 ^ 40 = chStart dst len c := by
      refine Nat.mod_eq_of_lt ?_
      have := h.reach
      omega
    have hcount : 64 * (chLength len c / 64 % 2 ^ bits) = chLength len c := by
      rw [hlen, Nat.mod_eq_of_lt]
      · split_ifs <;> omega
      · have := h.count
        split_ifs <;> omega
    rw [hstart, hcount]
    apply window_eq
    rw [hlen]
    exact h.boundary c
  ext a
  simp only [channelBytes, Set.mem_ofPred_eq, hwin, Set.mem_Ico]
  have hdiv := Nat.div_add_mod len 256
  constructor
  · rintro ⟨c, hc⟩
    have hend := chStart_add_chLength_le dst len c
    have : dst ≤ chStart dst len c := Nat.le_add_right _ _
    omega
  · intro ha
    obtain ⟨h0, h1, h2, h3⟩ := chStart_values dst len
    have hlast := chLength_of_divides h.divides 3
    rw [if_pos rfl] at hlast
    have hfirst {c : Fin 4} (hc : c ≠ 3) := chLength_of_ne len hc
    by_cases ha0 : a < chStart dst len 1
    · exact ⟨0, by omega, by rw [hfirst (by decide)]; omega⟩
    by_cases ha1 : a < chStart dst len 2
    · exact ⟨1, by omega, by rw [hfirst (by decide)]; omega⟩
    by_cases ha2 : a < chStart dst len 3
    · exact ⟨2, by omega, by rw [hfirst (by decide)]; omega⟩
    · exact ⟨3, by omega, by omega⟩

/-- The channels write below the end of what they can address. -/
theorem lt_of_mem_window {s n a : ℕ} (hs : s < 2 ^ 40) (h : a ∈ window s n) : a < 2 ^ 40 := by
  obtain ⟨i, -, rfl⟩ := h
  omega

theorem fillsExactly_of_channelBytes {dst len : ℕ} (h64 : len % 64 = 0) (h256 : 256 ≤ len)
    (hlt : len < 2 ^ 32) (h : channelBytes bits dst len = Set.Ico dst (dst + len)) :
    FillsExactly bits dst len := by
  have hreach : dst + len ≤ 2 ^ 40 := by
    have hlast : dst + len - 1 ∈ channelBytes bits dst len := by
      rw [h, Set.mem_Ico]
      omega
    obtain ⟨c, hc⟩ := hlast
    have := lt_of_mem_window (Nat.mod_lt _ (by positivity)) hc
    omega
  have hend (c : Fin 4) := chStart_add_chLength_le dst len c
  have hstart (c : Fin 4) : chStart dst len c % 2 ^ 40 = chStart dst len c := by
    have : 0 < chLength len c := by
      unfold chLength
      omega
    exact Nat.mod_eq_of_lt (by have := hend c; omega)
  have hcount (c : Fin 4) : 64 * (chLength len c / 64 % 2 ^ bits) ≤ chLength len c := by
    have := Nat.mod_le (chLength len c / 64) (2 ^ bits)
    omega
  -- a channel that leaves its window writes the first byte of it, more than 4 GiB before its end
  have hwindow (c : Fin 4) :
      chStart dst len c % 2 ^ 32 + 64 * (chLength len c / 64 % 2 ^ bits) ≤ 2 ^ 32 := by
    by_contra hcross
    have hmem := first_mem_window (not_le.mp hcross)
    have : chStart dst len c / 2 ^ 32 * 2 ^ 32 ∈ Set.Ico dst (dst + len) := by
      rw [← h]
      exact ⟨c, by rwa [hstart]⟩
    have := this.1
    have := hend c
    have := hcount c
    omega
  -- so that the last byte is one of the last channel
  have hlast : dst + len ≤ chStart dst len 3 + 64 * (chLength len 3 / 64 % 2 ^ bits) := by
    have hmem : dst + len - 1 ∈ channelBytes bits dst len := by
      rw [h, Set.mem_Ico]
      omega
    obtain ⟨c, hc⟩ := hmem
    rw [hstart, window_eq (hwindow c), Set.mem_Ico] at hc
    by_cases hc3 : c = 3
    · subst hc3
      omega
    · have hshort := hcount c
      rw [chLength_of_ne len hc3] at hc hshort
      have hle : len / 256 * 64 * c.val ≤ len / 256 * 64 * 2 := Nat.mul_le_mul_left _ (by omega)
      have : chStart dst len c = dst + len / 256 * 64 * c.val := rfl
      omega
  have hdiv := Nat.div_add_mod len 256
  have hshort := Nat.mod_le (chLength len 3 / 64) (2 ^ bits)
  have hrest := Nat.mod_le (len % 256) (len / 256 * 64)
  have hthree := chLength_three len
  have hstart3 := (chStart_values dst len).2.2.2
  have hdivides : len % 256 < len / 256 * 64 := by
    have hpos : 0 < len / 256 * 64 := by omega
    have := Nat.mod_lt (len % 256) hpos
    omega
  have hlength := chLength_of_divides hdivides
  have hfits : len / 256 + len % 256 / 64 < 2 ^ bits := by
    have := Nat.mod_lt (chLength len 3 / 64) (Nat.two_pow_pos bits)
    omega
  refine ⟨hdivides, hfits, hreach, fun c => ?_⟩
  have hboundary := hwindow c
  rw [Nat.mod_eq_of_lt (a := chLength len c / 64) (by rw [hlength]; split_ifs <;> omega), hlength] at hboundary
  have : chStart dst len c = dst + len / 256 * 64 * c.val := rfl
  split_ifs at hboundary ⊢ <;> omega

/-! ## Fill -/

/-- The fill ends, what its channels write is the range, and the secure attributes are as they were
except those of its channels. -/
def FillsRange (bits : ℕ) (d : Dmac) (dst : UInt64) (len : UInt32) (result : FillResult) : Prop :=
  ∃ d', result = .ended d' ∧ d'.written bits = Set.Ico dst.toNat (dst.toNat + len.toNat) ∧
    SecureKept d.rdmsec d'.rdmsec

/-- A fill of a whole number of units does what it is for if and only if it has at least 256 bytes,
its channels get all of them at addresses that they reach, and channel 0 had no secure attribute. -/
theorem execFillDMA_iff (h : Finishes status) (h64 : len.toNat % 64 = 0) :
    (∃ fuel, FillsRange bits d dst len (execFillDMA fillData status fuel d dst len)) ↔
      256 ≤ len.toNat ∧ FillsExactly bits dst.toNat len.toNat ∧ d.rdmsec.toBitVec.getLsbD 0 = false := by
  constructor
  · rintro ⟨fuel, d', hended, hwritten, hsecure⟩
    unfold execFillDMA at hended
    split_ifs at hended with hzero
    have h256 : 256 ≤ len.toNat := not_lt.mp fun hlt => hzero ((dmalen0_eq_zero_iff len).mpr hlt)
    cases endFillDMA_eq hended
    rw [rdmsec_fill, secureKept_iff] at hsecure
    exact ⟨h256, fillsExactly_of_channelBytes h64 h256 len.toNat_lt ((written_fill h64 h256 d).symm.trans hwritten),
      hsecure⟩
  · intro ⟨h256, hfills, hsecure⟩
    have hzero : dmalen0 len ≠ 0 := fun h0 => by
      have := (dmalen0_eq_zero_iff len).mp h0
      omega
    obtain ⟨fuel, hended⟩ := endFillDMA_ends h (startFillDMA fillData (dmadst dst len) (dmalen len) d)
    refine ⟨fuel, clearChannels (startFillDMA fillData (dmadst dst len) (dmalen len) d), ?_,
      (written_fill h64 h256 d).trans (channelBytes_eq h64 h256 hfills), ?_⟩
    · rw [execFillDMA, if_neg hzero, hended]
    · rw [rdmsec_fill, secureKept_iff]
      exact hsecure

/-- A controller whose channels have ended at the first look. -/
def endedStatus : Status := fun _ _ _ => RDMCHCR_TE_BIT

theorem endedStatus_finishes : Finishes endedStatus where
  ends _ := ⟨0, fun _ _ => UInt32.and_self⟩
  noError _ _ := show RDMCHCR_TE_BIT &&& RDMCHCR_CAE_BIT = 0 by decide

def Dmac.reset : Dmac := ⟨0, 0, 0, fun _ => ⟨0, 0, 0, 0, 0⟩⟩

/-- An area of 128 MB at the start of the DRAM. -/
theorem execFillDMA_area : ∃ fuel, FillsRange 24 .reset 0x0400000000 0x08000000
    (execFillDMA 0xE6302000 endedStatus fuel .reset 0x0400000000 0x08000000) :=
  (execFillDMA_iff endedStatus_finishes (by decide)).mpr
    ⟨by decide, ⟨by decide, by decide, by decide, by decide⟩, by decide⟩

/-- A length below 256 bytes is divided by zero. -/
theorem execFillDMA_divByZero : ¬ ∃ fuel, FillsRange 24 .reset 0x0400000000 64
    (execFillDMA 0xE6302000 endedStatus fuel .reset 0x0400000000 64) := by
  rintro ⟨fuel, d', hended, -⟩
  rw [execFillDMA, if_pos (by decide)] at hended
  cases hended

end RCar.Cr7
