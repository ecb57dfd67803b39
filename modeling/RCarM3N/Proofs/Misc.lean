import RCarM3N.Proofs.Codec

/-! The two blocks of the `misc` partition that both stages use, as a pair that can be read from
a disk and put into it. A partition that starts at sector `b` of the disk is given by `b`. -/

namespace RCar

theorem AvbABData.mem_ofMem (m : Mem) (off : ℕ) {i : ℕ} (hi : i < 32) :
    (AvbABData.ofMem m off).mem i = m (off + i) := by
  rw [AvbABData.mem, AvbABData.toBytes_ofMem, Mem.ofList, Mem.getD_read _ _ _ _ hi]

theorem MiscVirtABMsg.toBytes_ofMem (m : Mem) (off : ℕ) :
    (MiscVirtABMsg.ofMem m off).toBytes = m.read off 64 := by
  obtain ⟨h0, h1, h2, h3⟩ := byte32_word32 (m (off + 1)) (m (off + 1 + 1)) (m (off + 1 + 2))
    (m (off + 1 + 3))
  have htail : (List.finRange 57).map (MiscVirtABMsg.ofMem m off).reserved = m.read (off + 7) 57 := by
    apply List.ext_getElem
    · simp
    · intro i _ _
      simp [MiscVirtABMsg.ofMem, Mem.read, Nat.add_assoc]
  rw [MiscVirtABMsg.toBytes, htail, show (64 : ℕ) = 7 + 57 from rfl, Mem.read_append]
  congr 1
  simp only [MiscVirtABMsg.ofMem, Mem.le32, h0, h1, h2, h3]
  simp [Mem.read, List.range_succ, Nat.add_assoc]

theorem MiscVirtABMsg.mem_ofMem (m : Mem) (off : ℕ) {i : ℕ} (hi : i < 64) :
    (MiscVirtABMsg.ofMem m off).mem i = m (off + i) := by
  rw [MiscVirtABMsg.mem, MiscVirtABMsg.toBytes_ofMem, Mem.ofList, Mem.getD_read _ _ _ _ hi]

variable {b : ℕ} {m : Mem} {d d' : AvbABData} {v v' : MiscVirtABMsg}

/-- Where sector `blk` of `misc` starts. -/
def miscOffset (b blk : ℕ) : ℕ := 512 * (b + blk)

def dataOffset (b : ℕ) : ℕ := miscOffset b Bl2.AVB_BLOCK_DATA_OFFSET

def msgOffset (b : ℕ) : ℕ := miscOffset b Bl2.VIRTUAL_AB_MSG_DATA_OFFSET

theorem dataOffset_eq (b : ℕ) : dataOffset b = 512 * (b + 4) := rfl

theorem msgOffset_eq (b : ℕ) : msgOffset b = 512 * (b + 64) := rfl

/-- The A/B block of a disk. -/
def dataAt (b : ℕ) (m : Mem) : AvbABData := .ofMem m (dataOffset b)

/-- The message of a disk. -/
def msgAt (b : ℕ) (m : Mem) : MiscVirtABMsg := .ofMem m (msgOffset b)

/-- A disk with another A/B block and another message in its `misc` partition. -/
def putMisc (b : ℕ) (m : Mem) (d : AvbABData) (v : MiscVirtABMsg) : Mem :=
  (m.copy (dataOffset b) d.mem 0 AVB_AB_DATA_SIZE).copy (msgOffset b) v.mem 0 MiscVirtABMsg.SIZE

theorem putMisc_apply (b : ℕ) (m : Mem) (d : AvbABData) (v : MiscVirtABMsg) (a : ℕ) :
    putMisc b m d v a =
      if 512 * (b + 64) ≤ a ∧ a < 512 * (b + 64) + 64 then v.mem (a - 512 * (b + 64))
      else if 512 * (b + 4) ≤ a ∧ a < 512 * (b + 4) + 32 then d.mem (a - 512 * (b + 4))
      else m a := by
  simp only [putMisc, Mem.copy, dataOffset_eq, msgOffset_eq, MiscVirtABMsg.SIZE, AVB_AB_DATA_SIZE,
    Nat.zero_add]

/-- Nothing else on the disk changes. -/
theorem putMisc_outside {a : ℕ} (hd : a < dataOffset b ∨ dataOffset b + 32 ≤ a)
    (hv : a < msgOffset b ∨ msgOffset b + 64 ≤ a) : putMisc b m d v a = m a := by
  rw [dataOffset_eq] at hd
  rw [msgOffset_eq] at hv
  rw [putMisc_apply, if_neg (by omega), if_neg (by omega)]

@[simp] theorem dataAt_putMisc (b : ℕ) (m : Mem) (d : AvbABData) (v : MiscVirtABMsg) :
    dataAt b (putMisc b m d v) = d := by
  refine Eq.trans (AvbABData.ofMem_congr fun i hi => ?_) (AvbABData.ofMem_mem d)
  rw [putMisc_apply, dataOffset_eq, if_neg (by omega), if_pos (by omega), Nat.add_sub_cancel_left,
    Nat.zero_add]

@[simp] theorem msgAt_putMisc (b : ℕ) (m : Mem) (d : AvbABData) (v : MiscVirtABMsg) :
    msgAt b (putMisc b m d v) = v := by
  refine Eq.trans (MiscVirtABMsg.ofMem_congr fun i hi => ?_) (MiscVirtABMsg.ofMem_mem v)
  unfold MiscVirtABMsg.SIZE at hi
  rw [putMisc_apply, msgOffset_eq, if_pos (by omega), Nat.add_sub_cancel_left, Nat.zero_add]

@[simp] theorem putMisc_putMisc (b : ℕ) (m : Mem) (d d' : AvbABData) (v v' : MiscVirtABMsg) :
    putMisc b (putMisc b m d v) d' v' = putMisc b m d' v' := by
  funext a
  rw [putMisc_apply, putMisc_apply, putMisc_apply]
  split_ifs <;> rfl

/-- Storing what is there changes nothing. -/
theorem putMisc_self (b : ℕ) (m : Mem) : putMisc b m (dataAt b m) (msgAt b m) = m := by
  funext a
  rw [putMisc_apply]
  split_ifs with h1 h2
  · rw [msgAt, MiscVirtABMsg.mem_ofMem _ _ (by omega), msgOffset_eq, Nat.add_sub_cancel' h1.1]
  · rw [dataAt, AvbABData.mem_ofMem _ _ (by omega), dataOffset_eq, Nat.add_sub_cancel' h2.1]
  · rfl

/-- A block is put by a copy. -/
theorem putMisc_data (b : ℕ) (m : Mem) (d : AvbABData) :
    putMisc b m d (msgAt b m) = m.copy (dataOffset b) d.mem 0 AVB_AB_DATA_SIZE := by
  funext a
  have hself := congrFun (putMisc_self b m) a
  rw [putMisc_apply] at hself
  rw [putMisc_apply]
  simp only [Mem.copy, dataOffset_eq, AVB_AB_DATA_SIZE, Nat.zero_add]
  split_ifs at hself ⊢ with h1 h2
  · omega
  · exact hself
  · rfl
  · rfl

theorem putMisc_msg (b : ℕ) (m : Mem) (v : MiscVirtABMsg) :
    putMisc b m (dataAt b m) v = m.copy (msgOffset b) v.mem 0 MiscVirtABMsg.SIZE := by
  funext a
  have hself := congrFun (putMisc_self b m) a
  rw [putMisc_apply] at hself
  rw [putMisc_apply]
  simp only [Mem.copy, msgOffset_eq, MiscVirtABMsg.SIZE, Nat.zero_add]
  split_ifs at hself ⊢ with h1 h2
  · rfl
  · exact hself
  · rfl

/-- The stored block, or the default if it is not valid. -/
def loaded (d : AvbABData) : AvbABData := if d.Valid then d else Bl2.avbAbDataInit.sealed

theorem valid_loaded (d : AvbABData) : (loaded d).Valid := by
  unfold loaded
  split
  · assumption
  · exact AvbABData.valid_sealed rfl (by decide)

theorem loaded_of_valid {d : AvbABData} (h : d.Valid) : loaded d = d := if_pos h

/-! ## Blocks and messages -/

/-- A valid block with these slots. -/
def blockOf (a b : AvbABSlotData) : AvbABData := { Bl2.avbAbDataInit with slots := ![a, b] }.sealed

theorem valid_blockOf (a b : AvbABSlotData) : (blockOf a b).Valid :=
  AvbABData.valid_sealed rfl (UInt8.le_refl _)

@[simp] theorem slots_blockOf (a b : AvbABSlotData) : (blockOf a b).slots = ![a, b] := rfl

/-- A valid message. -/
def messageOf (mergeStatus : UInt8) (sourceSlot : Slot) : MiscVirtABMsg :=
  ⟨MAX_VIRTUAL_AB_MESSAGE_VERSION, MISC_VIRTUAL_AB_MAGIC_HEADER, mergeStatus,
    UInt8.ofNat sourceSlot, fun _ => 0⟩

theorem isValid_messageOf {mergeStatus : UInt8} (h : mergeStatus ≤ VIRTUAL_AB_CANCELLED)
    (sourceSlot : Slot) : (messageOf mergeStatus sourceSlot).isValid = true := by
  rcases sourceSlot.eq_zero_or_one with rfl | rfl <;>
    simp [messageOf, MiscVirtABMsg.isValid, h, AVB_AB_MAX_SLOTS]

end RCar
