import RCarM3N.Model.FbControlBlock

/-! A control block that has been stored is read back as it was. -/

namespace RCar.Fastboot.ControlBlock

theorem bytes_eq (c : ControlBlock) : c.bytes = bytes32 c.iplLock ++ bytes32 c.mmcLock ++
    (bytes64 (c.rollbackCnt 0) ++ (bytes64 (c.rollbackCnt 1) ++ (bytes64 (c.rollbackCnt 2) ++
      (bytes64 (c.rollbackCnt 3) ++ [])))) ++ bytes16 c.crc := rfl

@[simp] theorem length_bytes (c : ControlBlock) : c.bytes.length = SIZE := by
  simp [bytes_eq, bytes32, bytes64, bytes16, SIZE]

theorem le32_bytes {m : Mem} {off : ℕ} {x : UInt32} (h : ∀ i < 4, m (off + i) = (bytes32 x).getD i 0) :
    m.le32 off = x := by
  have h0 := h 0 (by omega)
  have h1 := h 1 (by omega)
  have h2 := h 2 (by omega)
  have h3 := h 3 (by omega)
  simp only [Nat.add_zero] at h0
  rw [Mem.le32, h0, h1, h2, h3]
  exact word32_byte32 x

theorem le64_bytes {m : Mem} {off : ℕ} {x : UInt64} (h : ∀ i < 8, m (off + i) = (bytes64 x).getD i 0) :
    UInt64.ofNat (m.le64 off) = x := by
  have hlow : m.le32 off = x.toUInt32 := le32_bytes fun i hi => by
    rw [h i (by omega)]
    interval_cases i <;> rfl
  have hhigh : m.le32 (off + 4) = (x >>> 32).toUInt32 := le32_bytes fun i hi => by
    rw [Nat.add_assoc, h (4 + i) (by omega)]
    interval_cases i <;> rfl
  rw [Mem.le64, hlow, hhigh]
  apply UInt64.toNat_inj.mp
  have hx := x.toNat_lt
  simp only [UInt64.toNat_ofNat', UInt64.toNat_toUInt32, UInt64.toNat_shiftRight, Nat.shiftRight_eq_div_pow]
  simp
  omega

theorem le16_bytes (x : UInt16) : UInt16.ofNat (x.toUInt8.toNat + 256 * (x >>> 8).toUInt8.toNat) = x := by
  apply UInt16.toNat_inj.mp
  have hx := x.toNat_lt
  simp [Nat.shiftRight_eq_div_pow]
  omega

/-- The decoding undoes the encoding, wherever the bytes stand. -/
theorem ofMem_of_bytes {m : Mem} {off : ℕ} {c : ControlBlock}
    (h : ∀ i < SIZE, m (off + i) = c.bytes.getD i 0) : ofMem m off = c := by
  have hipl : m.le32 off = c.iplLock := le32_bytes fun i hi => by
    rw [h i (by simp only [SIZE]; omega), bytes_eq]
    interval_cases i <;> rfl
  have hmmc : m.le32 (off + 4) = c.mmcLock := le32_bytes fun i hi => by
    rw [Nat.add_assoc, h (4 + i) (by simp only [SIZE]; omega), bytes_eq]
    interval_cases i <;> rfl
  have hcnt : ∀ k : Fin 4, UInt64.ofNat (m.le64 (off + 8 + 8 * k)) = c.rollbackCnt k := by
    intro k
    apply le64_bytes
    intro i hi
    rw [Nat.add_assoc, Nat.add_assoc, h (8 + (8 * k + i)) (by simp only [SIZE]; omega), bytes_eq]
    fin_cases k <;> (interval_cases i <;> rfl)
  have hcrc : UInt16.ofNat ((m (off + 40)).toNat + 256 * (m (off + 41)).toNat) = c.crc := by
    rw [h 40 (by decide), h 41 (by decide)]
    exact le16_bytes c.crc
  cases c
  exact congr (congr (congr (congrArg ControlBlock.mk hipl) hmmc) (funext hcnt)) hcrc

/-- The decoding reads the bytes of the block alone. -/
theorem ofMem_congr {m m' : Mem} {off : ℕ} (h : ∀ i < SIZE, m' (off + i) = m (off + i)) :
    ofMem m' off = ofMem m off := by
  have hword : ∀ k, k + 4 ≤ SIZE → m'.le32 (off + k) = m.le32 (off + k) :=
    fun k hk => Mem.le32_congr fun i hi => by
      rw [Nat.add_assoc]
      exact h (k + i) (by omega)
  have hcnt : ∀ i : Fin MAX_ROLLBACK_LOCATIONS, m'.le64 (off + 8 + 8 * i) = m.le64 (off + 8 + 8 * i) :=
    fun i => Mem.le64_congr fun j hj => by
      rw [Nat.add_assoc, Nat.add_assoc]
      have hi : (i : ℕ) < 4 := i.isLt
      exact h (8 + (8 * i + j)) (by simp only [SIZE]; omega)
  have hfirst := hword 0 (by decide)
  simp only [Nat.add_zero] at hfirst
  unfold ofMem
  rw [h 40 (by decide), h 41 (by decide), hfirst, hword 4 (by decide)]
  simp only [hcnt]

end RCar.Fastboot.ControlBlock
