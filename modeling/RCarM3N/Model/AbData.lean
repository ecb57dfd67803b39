import RCarM3N.Lib.Bytes
import RCarM3N.Lib.Crc

/-! The A/B metadata block and the virtual A/B message kept in the `misc` partition. The
headers of both boot stages declare the same packed layouts and the same constants. -/

namespace RCar

def AVB_AB_MAGIC : Fin 4 → UInt8 := ![0, 0x41, 0x42, 0x30]
def AVB_AB_MAJOR_VERSION : UInt8 := 1
def AVB_AB_MINOR_VERSION : UInt8 := 0
def AVB_AB_DATA_SIZE : ℕ := 32
def AVB_AB_MAX_PRIORITY : UInt8 := 15
def AVB_AB_MAX_TRIES_REMAINING : UInt8 := 7

/-- Slots are numbered 0 (A) and 1 (B). -/
abbrev Slot := Fin 2

abbrev AVB_AB_SLOT_A : Slot := 0
abbrev AVB_AB_SLOT_B : Slot := 1

def Slot.other (s : Slot) : Slot := 1 - s

theorem Slot.eq_zero_or_one (c : Slot) : c = 0 ∨ c = 1 := by
  revert c
  decide

theorem Slot.other_eq_of_ne {c c' : Slot} (h : c ≠ c') : c.other = c' := by
  revert c c'
  decide

theorem Slot.other_ne (c : Slot) : c.other ≠ c := by
  revert c
  decide

structure AvbABSlotData where
  priority : UInt8
  triesRemaining : UInt8
  successfulBoot : UInt8
  reserved : UInt8
deriving DecidableEq

@[ext] structure AvbABData where
  magic : Fin 4 → UInt8
  versionMajor : UInt8
  versionMinor : UInt8
  reserved1 : Fin 2 → UInt8
  slots : Slot → AvbABSlotData
  reserved2 : Fin 12 → UInt8
  crc32 : UInt32
deriving DecidableEq

namespace AvbABSlotData

def toBytes (s : AvbABSlotData) : List UInt8 :=
  [s.priority, s.triesRemaining, s.successfulBoot, s.reserved]

def ofMem (m : Mem) (off : ℕ) : AvbABSlotData := ⟨m off, m (off + 1), m (off + 2), m (off + 3)⟩

/-- `priority > 0 && (successful_boot || tries_remaining > 0)`, the test of both stages. -/
def isBootable (s : AvbABSlotData) : Bool :=
  0 < s.priority && (s.successfulBoot ≠ 0 || 0 < s.triesRemaining)

/-- All three fields cleared, the reserved byte kept. -/
def setUnbootable (s : AvbABSlotData) : AvbABSlotData :=
  { s with priority := 0, triesRemaining := 0, successfulBoot := 0 }

/-- A slot with a priority whose tries are used up and that never booted successfully. -/
def exhausted (s : AvbABSlotData) : Bool :=
  0 < s.priority && s.successfulBoot = 0 && s.triesRemaining = 0

@[simp] theorem isBootable_setUnbootable (s : AvbABSlotData) : s.setUnbootable.isBootable = false :=
  rfl

theorem isBootable_iff (s : AvbABSlotData) :
    s.isBootable = true ↔ 0 < s.priority ∧ (s.successfulBoot ≠ 0 ∨ 0 < s.triesRemaining) := by
  simp [isBootable]

theorem exhausted_iff (s : AvbABSlotData) :
    s.exhausted = true ↔ 0 < s.priority ∧ s.successfulBoot = 0 ∧ s.triesRemaining = 0 := by
  simp [exhausted, and_assoc]

theorem not_isBootable_of_exhausted {s : AvbABSlotData} (h : s.exhausted = true) :
    s.isBootable = false := by
  obtain ⟨-, h1, h2⟩ := s.exhausted_iff.mp h
  simp [isBootable, h1, h2]

end AvbABSlotData

namespace AvbABData

/-- The 32 bytes of the packed structure on a little-endian CPU. -/
def toBytes (d : AvbABData) : List UInt8 :=
  [d.magic 0, d.magic 1, d.magic 2, d.magic 3, d.versionMajor, d.versionMinor,
    d.reserved1 0, d.reserved1 1] ++ (d.slots 0).toBytes ++ (d.slots 1).toBytes ++
  [d.reserved2 0, d.reserved2 1, d.reserved2 2, d.reserved2 3, d.reserved2 4, d.reserved2 5,
    d.reserved2 6, d.reserved2 7, d.reserved2 8, d.reserved2 9, d.reserved2 10, d.reserved2 11,
    byte32 d.crc32 0, byte32 d.crc32 1, byte32 d.crc32 2, byte32 d.crc32 3]

def ofMem (m : Mem) (off : ℕ) : AvbABData where
  magic i := m (off + i)
  versionMajor := m (off + 4)
  versionMinor := m (off + 5)
  reserved1 i := m (off + (6 + i))
  slots s := AvbABSlotData.ofMem m (off + (8 + 4 * s))
  reserved2 i := m (off + (16 + i))
  crc32 := m.le32 (off + 28)

/-- The structure as the memory a pointer to it gives access to. -/
def mem (d : AvbABData) : Mem := Mem.ofList d.toBytes

def setSlot (d : AvbABData) (s : Slot) (x : AvbABSlotData) : AvbABData :=
  { d with slots := Function.update d.slots s x }

@[simp] theorem slots_setSlot_same (d : AvbABData) (s : Slot) (x : AvbABSlotData) :
    (d.setSlot s x).slots s = x := by
  simp [setSlot]

@[simp] theorem slots_setSlot_ne (d : AvbABData) {s t : Slot} (x : AvbABSlotData) (h : t ≠ s) :
    (d.setSlot s x).slots t = d.slots t := by
  simp [setSlot, h]

@[simp] theorem magic_setSlot (d : AvbABData) (s : Slot) (x : AvbABSlotData) :
    (d.setSlot s x).magic = d.magic := rfl

@[simp] theorem versionMajor_setSlot (d : AvbABData) (s : Slot) (x : AvbABSlotData) :
    (d.setSlot s x).versionMajor = d.versionMajor := rfl

theorem setSlot_slots (d : AvbABData) (s : Slot) : d.setSlot s (d.slots s) = d := by
  simp [setSlot]

theorem ofMem_congr {m m' : Mem} {off off' : ℕ} (h : ∀ i < 32, m (off + i) = m' (off' + i)) :
    ofMem m off = ofMem m' off' := by
  have hslot : ∀ s : Slot, AvbABSlotData.ofMem m (off + (8 + 4 * s)) =
      AvbABSlotData.ofMem m' (off' + (8 + 4 * s)) := by
    intro s
    have hs := s.isLt
    simp only [AvbABSlotData.ofMem, Nat.add_assoc]
    rw [h _ (by omega), h _ (by omega), h _ (by omega), h _ (by omega)]
  have hcrc : m.le32 (off + 28) = m'.le32 (off' + 28) :=
    Mem.le32_congr fun i hi => by rw [Nat.add_assoc, h _ (by omega), Nat.add_assoc]
  simp only [ofMem, hslot, hcrc, h 4 (by omega), h 5 (by omega)]
  congr 1 <;> funext i <;> exact h _ (by omega)

theorem ofMem_mem (d : AvbABData) : ofMem d.mem 0 = d := by
  have hcrc : d.mem.le32 28 = d.crc32 := word32_byte32 d.crc32
  simp only [ofMem, Nat.zero_add, hcrc]
  congr 1 <;> funext i <;> fin_cases i <;> rfl

/-- A structure copied into a buffer is what is read back there. -/
theorem ofMem_copy (dst : Mem) (off : ℕ) (d : AvbABData) :
    ofMem (dst.copy off d.mem 0 AVB_AB_DATA_SIZE) off = d := by
  refine Eq.trans (ofMem_congr fun i hi => ?_) (ofMem_mem d)
  exact Mem.copy_add dst off d.mem 0 32 i hi

theorem toBytes_ofMem (m : Mem) (off : ℕ) : (ofMem m off).toBytes = m.read off 32 := by
  obtain ⟨h0, h1, h2, h3⟩ := byte32_word32 (m (off + 28)) (m (off + 29)) (m (off + 30)) (m (off + 31))
  simp [toBytes, ofMem, AvbABSlotData.toBytes, AvbABSlotData.ofMem, Mem.read, List.range_succ,
    Mem.le32, h0, h1, h2, h3, Nat.add_assoc]

theorem toBytes_injective : Function.Injective toBytes := by
  intro d d' h
  rw [← ofMem_mem d, ← ofMem_mem d', mem, mem, h]

end AvbABData

def VIRTUAL_AB_NONE : UInt8 := 0
def VIRTUAL_AB_UNKNOWN : UInt8 := 1
def VIRTUAL_AB_SNAPSHOTED : UInt8 := 2
def VIRTUAL_AB_MERGING : UInt8 := 3
def VIRTUAL_AB_CANCELLED : UInt8 := 4

def MAX_VIRTUAL_AB_MESSAGE_VERSION : UInt8 := 2
def MISC_VIRTUAL_AB_MAGIC_HEADER : UInt32 := 0x56740AB0
def AVB_AB_MAX_SLOTS : UInt8 := 2

/-- `struct misc_virtual_ab_message`. -/
structure MiscVirtABMsg where
  version : UInt8
  magic : UInt32
  mergeStatus : UInt8
  sourceSlot : UInt8
  reserved : Fin 57 → UInt8
deriving DecidableEq

namespace MiscVirtABMsg

/-- Size of the packed message. -/
def SIZE : ℕ := 64

def toBytes (v : MiscVirtABMsg) : List UInt8 :=
  [v.version, byte32 v.magic 0, byte32 v.magic 1, byte32 v.magic 2, byte32 v.magic 3,
    v.mergeStatus, v.sourceSlot] ++ (List.finRange 57).map v.reserved

def ofMem (m : Mem) (off : ℕ) : MiscVirtABMsg where
  version := m off
  magic := m.le32 (off + 1)
  mergeStatus := m (off + 5)
  sourceSlot := m (off + 6)
  reserved i := m (off + (7 + i))

def mem (v : MiscVirtABMsg) : Mem := Mem.ofList v.toBytes

/-- `validate_virtual_ab_msg`, the same test in both stages. -/
def isValid (v : MiscVirtABMsg) : Bool :=
  v.magic = MISC_VIRTUAL_AB_MAGIC_HEADER && v.version ≤ MAX_VIRTUAL_AB_MESSAGE_VERSION &&
    v.mergeStatus ≤ VIRTUAL_AB_CANCELLED && v.sourceSlot < AVB_AB_MAX_SLOTS

theorem ofMem_congr {m m' : Mem} {off off' : ℕ} (h : ∀ i < SIZE, m (off + i) = m' (off' + i)) :
    ofMem m off = ofMem m' off' := by
  unfold SIZE at h
  have hmagic : m.le32 (off + 1) = m'.le32 (off' + 1) :=
    Mem.le32_congr fun i hi => by rw [Nat.add_assoc, h _ (by omega), Nat.add_assoc]
  have h0 := h 0 (by omega)
  simp only [Nat.add_zero] at h0
  simp only [ofMem, hmagic, h0, h 5 (by omega), h 6 (by omega)]
  congr 1
  funext i
  exact h _ (by omega)

theorem ofMem_mem (v : MiscVirtABMsg) : ofMem v.mem 0 = v := by
  have hmagic : v.mem.le32 1 = v.magic := word32_byte32 v.magic
  simp only [ofMem, Nat.zero_add, hmagic]
  congr 1
  funext i
  simp only [mem, Mem.ofList, toBytes, List.getD_eq_getElem?_getD]
  rw [List.getElem?_append_right (by simp)]
  simp

theorem ofMem_copy (dst : Mem) (off : ℕ) (v : MiscVirtABMsg) :
    ofMem (dst.copy off v.mem 0 SIZE) off = v := by
  refine Eq.trans (ofMem_congr fun i hi => ?_) (ofMem_mem v)
  exact Mem.copy_add dst off v.mem 0 SIZE i hi

end MiscVirtABMsg

end RCar
