import RCarM3N.Proofs.Misc

/-! The `misc` partition under BL2 when every access succeeds: each access of the flow replaces
the A/B block or the message. -/

namespace RCar.Bl2

variable {b : ℕ} {s s' t : State} {d d' : AvbABData} {v v' : MiscVirtABMsg}

/-- The A/B block of the `misc` partition that starts at sector `b`. -/
def abData (b : ℕ) (s : State) : AvbABData := dataAt b (s.part USER_PARTITION)

def virtMsg (b : ℕ) (s : State) : MiscVirtABMsg := msgAt b (s.part USER_PARTITION)

/-- `s'` is `s` but for the A/B block, which is `d`, and the message, which is `v`. -/
structure Disk (b : ℕ) (s s' : State) (d : AvbABData) (v : MiscVirtABMsg) : Prop where
  part : s'.part = Function.update s.part USER_PARTITION (putMisc b (s.part USER_PARTITION) d v)
  outcomes : s'.outcomes = s.outcomes

theorem Disk.user (h : Disk b s s' d v) :
    s'.part USER_PARTITION = putMisc b (s.part USER_PARTITION) d v := by
  rw [h.part, Function.update_self]

theorem Disk.other (h : Disk b s s' d v) {p : ℕ} (hp : p ≠ USER_PARTITION) :
    s'.part p = s.part p := by
  rw [h.part, Function.update_of_ne hp]

theorem Disk.abData_eq (h : Disk b s s' d v) : abData b s' = d := by
  rw [abData, h.user, dataAt_putMisc]

theorem Disk.virtMsg_eq (h : Disk b s s' d v) : virtMsg b s' = v := by
  rw [virtMsg, h.user, msgAt_putMisc]

theorem Disk.of_sameStore (h : SameStore s s') : Disk b s s' (abData b s) (virtMsg b s) := by
  refine ⟨?_, h.outcomes⟩
  rw [h.part, abData, virtMsg, putMisc_self, Function.update_eq_self]

theorem Disk.trans (h : Disk b s t d v) (h' : Disk b t s' d' v') : Disk b s s' d' v' := by
  refine ⟨?_, h'.outcomes.trans h.outcomes⟩
  rw [h'.part, h.user, h.part, Function.update_idem, putMisc_putMisc]

/-- A change of the A/B block alone. -/
theorem Disk.trans_data (h : Disk b s t d v) (h' : Disk b t s' d' (virtMsg b t)) :
    Disk b s s' d' v := by
  have := h.trans h'
  rwa [h.virtMsg_eq] at this

theorem Disk.trans_msg (h : Disk b s t d v) (h' : Disk b t s' (abData b t) v') :
    Disk b s s' d v' := by
  have := h.trans h'
  rwa [h.abData_eq] at this

theorem Disk.trans_same (h : Disk b s t d v) (h' : SameStore t s') : Disk b s s' d v := by
  have := h.trans (Disk.of_sameStore h')
  rwa [h.abData_eq, h.virtMsg_eq] at this

/-- The lookup finds `misc` at sector `b`, whatever its two sectors hold. -/
def MiscAt (b : ℕ) (s : State) : Prop :=
  ∀ t : State, AllSucceed t →
    (∀ a, (a < 512 * (b + 4) ∨ 512 * (b + 5) ≤ a) → (a < 512 * (b + 64) ∨ 512 * (b + 65) ≤ a) →
      t.part USER_PARTITION a = s.part USER_PARTITION a) →
    ∃ e t', getMiscPartEntry.run t = (some (some e), t') ∧ SameStore t t' ∧ addrToBlk e.start = b

/-- Storage works, and there is a `misc` partition. -/
structure Ready (b : ℕ) (s : State) : Prop where
  succeed : AllSucceed s
  sector : b + 64 < 2 ^ 32
  misc : MiscAt b s

theorem Ready.of_disk (h : Ready b s) (hd : Disk b s s' d v) : Ready b s' := by
  refine ⟨fun n => by rw [hd.outcomes]; exact h.succeed n, h.sector, fun t ht hout => ?_⟩
  refine h.misc t ht fun a h4 h64 => ?_
  rw [hout a h4 h64, hd.user, putMisc_outside]
  · rw [dataOffset_eq]
    omega
  · rw [msgOffset_eq]
    omega

/-- The lookup and the selection before each access to a sector of `misc`. -/
theorem Ready.lookup (h : Ready b s) (blk : ℕ) (hblk : blk ≤ 64) :
    ∃ e t t', getMiscPartEntry.run s = (some (some e), t) ∧
      (emmcSelectPartition USER_PARTITION).run t = (some true, t') ∧ t'.sel = USER_PARTITION ∧
      SameStore s t' ∧ miscSector e blk = b + blk := by
  obtain ⟨e, t, he, hs, hb⟩ := h.misc s h.succeed fun _ _ _ => rfl
  obtain ⟨p, hsel⟩ := run_emmcSelectPartition (h.succeed.of_sameStore hs) USER_PARTITION
  refine ⟨e, t, _, he, hsel, rfl, hs.trans ⟨rfl, rfl, rfl, rfl⟩, ?_⟩
  have := h.sector
  rw [miscSector, hb, Nat.mod_eq_of_lt (by omega)]

theorem run_readSectorFromMisc (h : Ready b s) (blk : ℕ) (hblk : blk ≤ 64) :
    ∃ buf s', (readSectorFromMisc blk).run s = (some (.ok, buf), s') ∧ SameStore s s' ∧
      ∀ i < 512, buf i = s.part USER_PARTITION (miscOffset b blk + i) := by
  obtain ⟨e, t, t', he, hsel, ht, hs, hsec⟩ := h.lookup blk hblk
  have hread : (emmcReadSector s.stack (b + blk) 1).run t' =
      (some (true, s.stack.copy 0 (s.part USER_PARTITION) (512 * (b + blk)) (512 * 1)),
        { t' with pos := t'.pos + 1 }) := by
    rw [run_emmcReadSector (h.succeed.of_sameStore hs) _ _ one_ne_zero, ht, hs.part]
  refine ⟨s.stack.copy 0 (s.part USER_PARTITION) (512 * (b + blk)) (512 * 1),
    { t' with pos := t'.pos + 1 }, ?_, hs.trans ⟨rfl, rfl, rfl, rfl⟩, fun i hi => ?_⟩
  · unfold readSectorFromMisc
    rw [Prog.run_bind_get, Prog.run_bind_of_some he, Prog.run_bind_of_some hsel, hsec]
    simp only [Bool.not_true, Bool.false_eq_true, if_false]
    rw [Prog.run_bind_of_some hread]
    rfl
  · rw [Mem.copy_in _ _ _ _ _ _ (by omega) (by omega), Nat.sub_zero]
    rfl

theorem run_writeSectorToMisc (h : Ready b s) (buf : Mem) (blk : ℕ) (hblk : blk ≤ 64) :
    ∃ s', (writeSectorToMisc buf blk).run s = (some .ok, s') ∧ s'.outcomes = s.outcomes ∧
      s'.part = Function.update s.part USER_PARTITION
        ((s.part USER_PARTITION).copy (miscOffset b blk) buf 0 512) := by
  obtain ⟨e, t, t', he, hsel, ht, hs, hsec⟩ := h.lookup blk hblk
  have hwrite := run_emmcWriteSector (h.succeed.of_sameStore hs) buf (miscSector e blk) one_ne_zero
  refine ⟨storeBytes { t' with pos := t'.pos + 1 } buf (miscSector e blk) (512 * 1), ?_, ?_, ?_⟩
  · unfold writeSectorToMisc
    rw [Prog.run_bind_of_some he, Prog.run_bind_of_some hsel]
    simp only [Bool.not_true, Bool.false_eq_true, if_false]
    rw [Prog.run_bind_of_some hwrite]
    rfl
  · exact hs.outcomes
  · simp only [storeBytes, ht, hsec, hs.part, miscOffset, Nat.mul_one]

/-- Read, replace and write is a copy of what is replaced. -/
theorem run_updateSector (h : Ready b s) (obj : Mem) {n blk : ℕ} (hblk : blk = 4 ∨ blk = 64)
    (hn : n ≤ 512) :
    ∃ s', (updateSector obj n blk).run s = (some .ok, s') ∧ s'.outcomes = s.outcomes ∧
      s'.part = Function.update s.part USER_PARTITION
        ((s.part USER_PARTITION).copy (miscOffset b blk) obj 0 n) := by
  obtain ⟨buf, t, hread, hs, hbuf⟩ := run_readSectorFromMisc h blk (by omega)
  have ht : Ready b t := h.of_disk (Disk.of_sameStore hs)
  obtain ⟨s', hwrite, hout, hpart⟩ := run_writeSectorToMisc ht (buf.copy 0 obj 0 n) blk
    (by omega)
  refine ⟨s', ?_, hout.trans hs.outcomes, ?_⟩
  · unfold updateSector
    rw [Prog.run_bind_of_some hread]
    simp only [ne_eq, not_true_eq_false, if_false]
    exact hwrite
  · rw [hpart, hs.part, Mem.copy_modified hbuf hn]

end RCar.Bl2
