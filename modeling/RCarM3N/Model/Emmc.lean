import RCarM3N.Lib.Prog
import RCarM3N.Lib.Bytes

/-! The eMMC as BL2 sees it through its driver: hardware partitions of bytes, the one that
is selected, and commands that may fail. `outcomes n` is what becomes of the `n`-th command
sequence, so that a theorem about every `outcomes` is one about every pattern of failures. -/

namespace RCar.Bl2

def EMMC_SECTOR_SIZE : ℕ := 512
def PARTITION_ID_USER : ℕ := 0
def PARTITION_ID_BOOT_1 : ℕ := 1
def PARTITION_ID_BOOT_2 : ℕ := 2

/-- A transfer that fails may have moved some of its bytes before. -/
inductive Outcome where
  | success
  | failure (moved : ℕ)

structure State where
  /-- content of each hardware partition -/
  part : ℕ → Mem
  /-- the PARTITION_ACCESS bits of EXT_CSD[179] -/
  sel : ℕ
  outcomes : ℕ → Outcome
  pos : ℕ
  /-- DRAM from the IPL load buffer on -/
  dram : Mem
  /-- what a local array holds before it is written -/
  stack : Mem
  /-- `mmc_drv_obj.partition_access` -/
  partitionAccess : ℕ
  /-- `mmc_drv_obj.boot_partition_en` -/
  bootPartitionEn : ℕ
  /-- the static `boot_partition` -/
  bootPartition : ℕ
  /-- the static `avb_ab_flow_success` -/
  avbAbFlowSuccess : ℕ

/-- The outcome of the next command sequence. -/
def command : Prog State Outcome := fun s =>
  (some (s.outcomes s.pos), { s with pos := s.pos + 1 })

/-- Nothing is sent to the card when the partition is selected already. -/
def emmcSelectPartition (id : ℕ) : Prog State Bool := do
  let s ← Prog.get
  if s.sel = id then
    return true
  match ← command with
  | .success =>
    Prog.modify fun s => { s with sel := id }
    return true
  | .failure _ => return false

/-- Reads `count` sectors of the selected partition from sector `blk` on into `buf`. -/
def emmcReadSector (buf : Mem) (blk count : ℕ) : Prog State (Bool × Mem) := do
  if count = 0 then
    return (false, buf)
  let s ← Prog.get
  match ← command with
  | .success => return (true, buf.copy 0 (s.part s.sel) (512 * blk) (512 * count))
  | .failure moved =>
    return (false, buf.copy 0 (s.part s.sel) (512 * blk) (min moved (512 * count)))

def storeBytes (s : State) (buf : Mem) (blk n : ℕ) : State :=
  { s with part := Function.update s.part s.sel ((s.part s.sel).copy (512 * blk) buf 0 n) }

def emmcWriteSector (buf : Mem) (blk count : ℕ) : Prog State Bool := do
  if count = 0 then
    return false
  match ← command with
  | .success =>
    Prog.modify fun s => storeBytes s buf blk (512 * count)
    return true
  | .failure moved =>
    Prog.modify fun s => storeBytes s buf blk (min moved (512 * count))
    return false

/-- What every access to the eMMC leaves alone when it only reads. -/
structure SameStore (s s' : State) : Prop where
  part : s'.part = s.part
  outcomes : s'.outcomes = s.outcomes
  flow : s'.bootPartition = s.bootPartition ∧ s'.avbAbFlowSuccess = s.avbAbFlowSuccess

theorem SameStore.refl (s : State) : SameStore s s := ⟨rfl, rfl, rfl, rfl⟩

theorem SameStore.trans {a b c : State} (h : SameStore a b) (h' : SameStore b c) :
    SameStore a c :=
  ⟨h'.part.trans h.part, h'.outcomes.trans h.outcomes, h'.flow.1.trans h.flow.1,
    h'.flow.2.trans h.flow.2⟩

instance : IsPreorder State SameStore where
  refl := SameStore.refl
  trans _ _ _ := SameStore.trans

/-- Every command sequence from here on succeeds. -/
def AllSucceed (s : State) : Prop := ∀ n, s.outcomes n = .success

theorem AllSucceed.of_sameStore {s s' : State} (h : AllSucceed s) (hs : SameStore s s') :
    AllSucceed s' := by
  intro n
  rw [hs.outcomes]
  exact h n

theorem run_command (s : State) :
    command.run s = (some (s.outcomes s.pos), { s with pos := s.pos + 1 }) := rfl

theorem run_emmcSelectPartition {s : State} (hs : AllSucceed s) (id : ℕ) :
    ∃ p, (emmcSelectPartition id).run s = (some true, { s with sel := id, pos := p }) := by
  unfold emmcSelectPartition
  rw [Prog.run_bind_get, Prog.run_ite]
  split
  · exact ⟨s.pos, by subst id; rfl⟩
  · refine ⟨s.pos + 1, ?_⟩
    rw [Prog.run_bind_of_some (run_command s), hs]
    rfl

theorem run_emmcReadSector {s : State} (hs : AllSucceed s) (buf : Mem) (blk : ℕ) {count : ℕ}
    (hc : count ≠ 0) :
    (emmcReadSector buf blk count).run s =
      (some (true, buf.copy 0 (s.part s.sel) (512 * blk) (512 * count)),
        { s with pos := s.pos + 1 }) := by
  unfold emmcReadSector
  rw [if_neg hc, Prog.run_bind_get, Prog.run_bind_of_some (run_command s), hs]
  rfl

theorem run_emmcWriteSector {s : State} (hs : AllSucceed s) (buf : Mem) (blk : ℕ) {count : ℕ}
    (hc : count ≠ 0) :
    (emmcWriteSector buf blk count).run s =
      (some true, storeBytes { s with pos := s.pos + 1 } buf blk (512 * count)) := by
  unfold emmcWriteSector
  rw [if_neg hc, Prog.run_bind_of_some (run_command s), hs]
  rfl

/-- Whatever becomes of it, a selection changes no content. -/
theorem emmcSelectPartition_sameStore (id : ℕ) :
    Prog.Keeps SameStore (emmcSelectPartition id) := by
  intro s
  unfold emmcSelectPartition
  rw [Prog.run_bind_get, Prog.run_ite]
  split
  · exact SameStore.refl s
  · rw [Prog.run_bind_of_some (run_command s)]
    cases s.outcomes s.pos <;> exact ⟨rfl, rfl, rfl, rfl⟩

theorem emmcReadSector_sameStore (buf : Mem) (blk count : ℕ) :
    Prog.Keeps SameStore (emmcReadSector buf blk count) := by
  intro s
  unfold emmcReadSector
  split
  · exact SameStore.refl s
  · rw [Prog.run_bind_get, Prog.run_bind_of_some (run_command s)]
    cases s.outcomes s.pos <;> exact ⟨rfl, rfl, rfl, rfl⟩

end RCar.Bl2
