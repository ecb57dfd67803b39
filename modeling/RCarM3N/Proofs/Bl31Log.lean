import RCarM3N.Model.Bl31Log
import RCarM3N.Lib.Ring

/-! The log area as a ring: what a boot leaves of it and what the characters logged since then do. -/

namespace RCar.Bl31Log

/-- The ring that an area holds. -/
def ringOf (m : Mem) : Ring UInt8 where
  data i := m (logData + i)
  index := (m.le32 indexAt).toNat
  size := (m.le32 sizeAt).toNat

/-- The index and the size are read where they were stored, and nothing else is. -/
theorem ringOf_setIndex (m : Mem) (x : UInt32) : ringOf (m.setLe32 indexAt x) = { ringOf m with index := x.toNat } := by
  have hdata : ∀ i, m.setLe32 indexAt x (logData + i) = m (logData + i) := fun i =>
    Mem.setLe32_out (.inr (by unfold indexAt logData RCAR_LOG_HEADER_SIZE; omega))
  have hsize : (m.setLe32 indexAt x).le32 sizeAt = m.le32 sizeAt := Mem.le32_setLe32_out m x (.inr (by decide))
  simp only [ringOf, hdata, hsize, Mem.le32_setLe32]

theorem ringOf_setSize (m : Mem) (x : UInt32) : ringOf (m.setLe32 sizeAt x) = { ringOf m with size := x.toNat } := by
  have hdata : ∀ i, m.setLe32 sizeAt x (logData + i) = m (logData + i) := fun i =>
    Mem.setLe32_out (.inr (by unfold sizeAt logData RCAR_LOG_HEADER_SIZE; omega))
  have hindex : (m.setLe32 sizeAt x).le32 indexAt = m.le32 indexAt := Mem.le32_setLe32_out m x (.inl (by decide))
  simp only [ringOf, hdata, hindex, Mem.le32_setLe32]

theorem ringOf_update (m : Mem) (i : ℕ) (c : UInt8) :
    ringOf (Function.update m (logData + i) c) = { ringOf m with data := Function.update (ringOf m).data i c } := by
  have hword : ∀ at_, at_ + 4 ≤ logData → Mem.le32 (Function.update m (logData + i) c) at_ = m.le32 at_ := fun at_ h =>
    Mem.le32_congr fun k hk => Function.update_of_ne (by omega) _ _
  simp only [ringOf, hword indexAt (by decide), hword sizeAt (by decide), Ring.mk.injEq, and_true]
  funext j
  by_cases hj : j = i
  · rw [hj, Function.update_self, Function.update_self]
  · rw [Function.update_of_ne hj, Function.update_of_ne (by omega)]

theorem max_lt : RCAR_BL31_LOG_MAX < 2 ^ 32 := by decide

/-- While the index is in the ring, logging a character pushes it. -/
theorem ringOf_rcarSetLogData {m : Mem} (h : (ringOf m).index < RCAR_BL31_LOG_MAX) (c : UInt32) :
    ringOf (rcarSetLogData m c) = (ringOf m).push RCAR_BL31_LOG_MAX c.toUInt8 := by
  have hmax := max_lt
  have hkeep : repairIndex m = m := if_neg (not_le.mpr h)
  have hwrap : ∀ m' : Mem, ringOf (wrapIndex m') =
      { ringOf m' with index := if RCAR_BL31_LOG_MAX ≤ (ringOf m').index then 0 else (ringOf m').index } := by
    intro m'
    unfold wrapIndex
    change ringOf (if RCAR_BL31_LOG_MAX ≤ (ringOf m').index then m'.setLe32 indexAt 0 else m') = _
    split
    · rw [ringOf_setIndex]
      rfl
    · rfl
  have hstore : ringOf (storeCharacter m c) =
      { data := Function.update (ringOf m).data (ringOf m).index c.toUInt8
        index := (ringOf m).index + 1
        size := max (ringOf m).size ((ringOf m).index + 1) } := by
    have hupdated := ringOf_update m (ringOf m).index c.toUInt8
    have hindex : Mem.le32 (Function.update m (logData + (ringOf m).index) c.toUInt8) indexAt = m.le32 indexAt :=
      Mem.le32_congr fun k hk => Function.update_of_ne (by unfold indexAt logData RCAR_LOG_HEADER_SIZE; omega) _ _
    have hnext : (m.le32 indexAt + 1).toNat = (ringOf m).index + 1 := by
      rw [UInt32.toNat_add]
      exact Nat.mod_eq_of_lt (by change (ringOf m).index + 1 < _; omega)
    have hstepped := ringOf_setIndex (Function.update m (logData + (ringOf m).index) c.toUInt8) (m.le32 indexAt + 1)
    rw [hupdated, hnext] at hstepped
    unfold storeCharacter
    change ringOf (let stored : Mem := Function.update m (logData + (ringOf m).index) c.toUInt8
      let next := stored.le32 indexAt + 1
      let stepped := stored.setLe32 indexAt next
      if stepped.le32 sizeAt < next then stepped.setLe32 sizeAt next else stepped) = _
    dsimp only
    rw [hindex]
    generalize Mem.setLe32 (Function.update m (logData + (ringOf m).index) c.toUInt8) indexAt (m.le32 indexAt + 1) =
      stepped at *
    have hsize : (stepped.le32 sizeAt).toNat = (ringOf m).size := congrArg Ring.size hstepped
    split
    · rename_i hlt
      rw [ringOf_setSize, hstepped]
      rw [UInt32.lt_iff_toNat_lt, hsize, hnext] at hlt
      simp only [hnext, Ring.mk.injEq, true_and]
      omega
    · rename_i hlt
      rw [hstepped]
      rw [UInt32.lt_iff_toNat_lt, hsize, hnext] at hlt
      simp only [Ring.mk.injEq, true_and]
      omega
  rw [rcarSetLogData, hkeep, hwrap, hstore]
  rfl

/-! ## A boot and the characters after it -/

def logAll (m : Mem) (cs : List UInt32) : Mem := cs.foldl rcarSetLogData m

/-- What has been logged before the boot since the area was initialised, as far as the area tells. -/
def earlier (m : Mem) : List UInt8 := if InitFlag m then [] else (ringOf m).recent RCAR_BL31_LOG_MAX

/-- The addresses that logging may write. -/
def InLog (a : ℕ) : Prop :=
  indexAt ≤ a ∧ a < sizeAt + 4 ∨ logData ≤ a ∧ a < logData + RCAR_BL31_LOG_MAX

/-- The area after a boot with this content and the logging of these characters. -/
structure Survives (m : Mem) (cs : List UInt32) : Prop where
  index_lt : (ringOf (logAll (rcarLogInit m) cs)).index < RCAR_BL31_LOG_MAX
  size_le : (ringOf (logAll (rcarLogInit m) cs)).size ≤ RCAR_BL31_LOG_MAX
  recent : (ringOf (logAll (rcarLogInit m) cs)).recent RCAR_BL31_LOG_MAX <:+ earlier m ++ cs.map (·.toUInt8)
  frame : ∀ a, ¬ InLog a → logAll (rcarLogInit m) cs a = rcarLogInit m a

/-- The area is initialised at the boot, or its size is that of a log with this index. -/
def LogFits (m : Mem) : Prop :=
  InitFlag m ∨ (ringOf m).index ≤ (ringOf m).size ∧ (ringOf m).size ≤ RCAR_BL31_LOG_MAX

theorem ringOf_init {m : Mem} (h : InitFlag m) : (ringOf (rcarLogInit m)).index = 0 ∧ (ringOf (rcarLogInit m)).size = 0 := by
  rw [rcarLogInit, if_pos h, ringOf_setSize, ringOf_setIndex]
  exact ⟨rfl, rfl⟩

theorem index_lt_of_not_init {m : Mem} (h : ¬ InitFlag m) : (ringOf m).index < RCAR_BL31_LOG_MAX :=
  not_le.mp fun hbroken => h (.inr hbroken)

/-- After a boot the index is in the ring whatever the area held. -/
theorem rcarLogInit_index_lt (m : Mem) : (ringOf (rcarLogInit m)).index < RCAR_BL31_LOG_MAX := by
  by_cases h : InitFlag m
  · rw [(ringOf_init h).1]
    decide
  · rw [rcarLogInit, if_neg h]
    exact index_lt_of_not_init h

theorem index_lt_rcarSetLogData {m : Mem} (h : (ringOf m).index < RCAR_BL31_LOG_MAX) (c : UInt32) :
    (ringOf (rcarSetLogData m c)).index < RCAR_BL31_LOG_MAX := by
  rw [ringOf_rcarSetLogData h]
  change (if RCAR_BL31_LOG_MAX ≤ (ringOf m).index + 1 then 0 else (ringOf m).index + 1) < RCAR_BL31_LOG_MAX
  split <;> omega

theorem frame_rcarSetLogData {m : Mem} (h : (ringOf m).index < RCAR_BL31_LOG_MAX) (c : UInt32) {a : ℕ} (ha : ¬ InLog a) :
    rcarSetLogData m c a = m a := by
  have hindex : ∀ (m' : Mem) (x : UInt32), m'.setLe32 indexAt x a = m' a := fun m' x =>
    Mem.setLe32_out (by unfold InLog indexAt sizeAt at *; omega)
  have hsize : ∀ (m' : Mem) (x : UInt32), m'.setLe32 sizeAt x a = m' a := fun m' x =>
    Mem.setLe32_out (by unfold InLog indexAt sizeAt at *; omega)
  have hdata : a ≠ logData + (m.le32 indexAt).toNat := by
    change (m.le32 indexAt).toNat < _ at h
    unfold InLog at ha
    omega
  have hkeep : repairIndex m = m := if_neg (not_le.mpr h)
  have hstore : storeCharacter m c a = m a := by
    unfold storeCharacter
    split
    · rw [hsize, hindex, Function.update_of_ne hdata]
    · rw [hindex, Function.update_of_ne hdata]
  rw [rcarSetLogData, hkeep]
  unfold wrapIndex
  split
  · rw [hindex, hstore]
  · exact hstore

/-- Logging keeps the index in the ring and writes the log alone. -/
theorem logAll_keeps {m : Mem} (h : (ringOf m).index < RCAR_BL31_LOG_MAX) (cs : List UInt32) :
    (ringOf (logAll m cs)).index < RCAR_BL31_LOG_MAX ∧ (∀ a, ¬ InLog a → logAll m cs a = m a) ∧
      ringOf (logAll m cs) = (ringOf m).pushAll RCAR_BL31_LOG_MAX (cs.map (·.toUInt8)) := by
  induction cs generalizing m with
  | nil => exact ⟨h, fun _ _ => rfl, rfl⟩
  | cons c cs ih =>
    obtain ⟨hindex, hframe, hring⟩ := ih (index_lt_rcarSetLogData h c)
    refine ⟨hindex, fun a ha => (hframe a ha).trans (frame_rcarSetLogData h c ha), ?_⟩
    rw [ringOf_rcarSetLogData h] at hring
    exact hring

/-- The log survives every boot, whatever is logged then, if and only if the boot initialises the
area or finds the index and the size of a log. -/
theorem log_survives_iff (m : Mem) : (∀ cs, Survives m cs) ↔ LogFits m := by
  constructor
  · intro h
    by_contra hbad
    obtain ⟨hinit, hsizes⟩ := not_or.mp hbad
    have hboot : rcarLogInit m = m := if_neg hinit
    have hsize := (h []).size_le
    change (ringOf (rcarLogInit m)).size ≤ _ at hsize
    rw [hboot] at hsize
    have hlt := index_lt_of_not_init hinit
    -- an index beyond the size takes bytes into the log that were never logged
    have hrecent := (h [0]).recent.length_le
    obtain ⟨-, -, hring⟩ := logAll_keeps (rcarLogInit_index_lt m) [0]
    rw [hring, hboot, earlier, if_neg hinit] at hrecent
    simp only [Ring.length_recent, List.length_append, List.length_map, List.length_singleton] at hrecent
    change min (max (ringOf m).size ((ringOf m).index + 1)) _ ≤ _ at hrecent
    omega
  · intro h cs
    obtain ⟨hindex, hframe, hring⟩ := logAll_keeps (rcarLogInit_index_lt m) cs
    have hsound : Ring.Sound RCAR_BL31_LOG_MAX (ringOf (rcarLogInit m)) := by
      have hsizes : (ringOf (rcarLogInit m)).index ≤ (ringOf (rcarLogInit m)).size ∧
          (ringOf (rcarLogInit m)).size ≤ RCAR_BL31_LOG_MAX := by
        by_cases hinit : InitFlag m
        · obtain ⟨hindex, hsize⟩ := ringOf_init hinit
          rw [hindex, hsize]
          exact ⟨le_refl _, Nat.zero_le _⟩
        · rw [rcarLogInit, if_neg hinit]
          exact h.resolve_left hinit
      exact ⟨rcarLogInit_index_lt m, hsizes.1, hsizes.2⟩
    have hearlier : (ringOf (rcarLogInit m)).recent RCAR_BL31_LOG_MAX = earlier m := by
      unfold earlier
      split
      · rename_i hinit
        rw [← List.length_eq_zero_iff, Ring.length_recent, (ringOf_init hinit).2]
        exact Nat.zero_min _
      · rename_i hinit
        rw [rcarLogInit, if_neg hinit]
    refine ⟨hindex, ?_, ?_, hframe⟩
    · rw [hring]
      exact (hsound.pushAll _).size_le
    · rw [hring, ← hearlier]
      exact Ring.recent_pushAll hsound _

/-- An area with the magic text, the index 0 and a size of 2³² - 1. -/
def brokenSize : Mem :=
  (Mem.copy (fun _ => 0) RCAR_BL31_LOG_BASE (Mem.ofList constHeader) 0 4).setLe32 sizeAt 0xFFFFFFFF

theorem broken_size_stays : ¬ Survives brokenSize [] := by
  intro h
  have hinit : ¬ InitFlag brokenSize := by decide
  have hsize := h.size_le
  change (ringOf (rcarLogInit brokenSize)).size ≤ _ at hsize
  rw [rcarLogInit, if_neg hinit, brokenSize, ringOf_setSize] at hsize
  exact absurd hsize (by decide)

end RCar.Bl31Log
