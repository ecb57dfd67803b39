import RCarM3N.Model.FbStorage

/-! The hardware partition that the eMMC has selected while a bootloader image is flashed. The card keeps the
selection, and the block descriptor keeps the number of the last switch that succeeded; a switch that is
reported as failed may have taken effect in the card all the same. -/

namespace RCar.Fastboot.HwPart

def MMC_DEFAULT_PARTITION : ℕ := 0
def ENODEV : ℤ := 19

/-- One `mmc_switch` to a partition: its result, and whether the card has made the switch. -/
structure Attempt where
  ret : ℤ
  taken : Bool
  taken_of_done : ret = 0 → taken = true

structure Emmc where
  board : Board
  /-- the partition that the card has selected, and the one in the block descriptor -/
  selected : ℕ
  hwpart : ℕ
  /-- the configuration of the card says that it has no hardware partitions -/
  notAvailable : Bool
  /-- the attempts of the `n`-th switch -/
  switches : ℕ → ℕ → Attempt
  pos : ℕ
  /-- the attempts of the switch that the `n`-th access of the A/B library begins with, if it looks up a
  partition -/
  lookups : ℕ → Option (ℕ → Attempt)

namespace Emmc

def mmcSwitch (a : Attempt) (part : ℕ) (e : Emmc) : Emmc := if a.taken then { e with selected := part } else e

/-- The loop of the switch, from its `i`-th attempt on. -/
def switchLoop (attempts : ℕ → Attempt) (part : ℕ) : ℕ → ℕ → Emmc → ℤ × Emmc
  | 0, i, e => ((attempts i).ret, e.mmcSwitch (attempts i) part)
  | retry + 1, i, e =>
    let e := e.mmcSwitch (attempts i) part
    if (attempts i).ret ≠ 0 then switchLoop attempts part retry (i + 1) e else ((attempts i).ret, e)

def mmcSetCapacity (part : ℕ) : ℤ := if part ≤ 7 then 0 else -1

def mmcSwitchPart (attempts : ℕ → Attempt) (part : ℕ) (e : Emmc) : ℤ × Emmc :=
  let (ret, e) := switchLoop attempts part 3 0 e
  if ret = 0 ∨ (ret = -ENODEV ∧ part = 0) then (mmcSetCapacity part, { e with hwpart := part }) else (ret, e)

/-- `get_partition` in front of an access of the A/B library. -/
def getPartition (n : ℕ) (e : Emmc) : Emmc :=
  match e.lookups n with
  | some attempts => (e.mmcSwitchPart attempts 0).2
  | none => e

/-- `get_partition` in front of a number of accesses. -/
def getPartitions (start count : ℕ) (e : Emmc) : Emmc :=
  (List.range' start count).foldl (fun e n => e.getPartition n) e

end Emmc

def mmcSwitchPart (part : ℕ) : Prog Emmc ℤ := fun e =>
  let r := e.mmcSwitchPart (e.switches e.pos) part
  (some r.1, { r.2 with pos := e.pos + 1 })

def onBoard {α : Type} (x : Prog Board α) : Prog Emmc α := fun e =>
  let r := x.run e.board
  (r.1, { e with board := r.2 })

/-- A function of the A/B library: it looks up its partition for each access anew. -/
def onMetadata {α : Type} (x : Prog Board α) : Prog Emmc α := fun e =>
  let r := x.run e.board
  (r.1, { e with board := r.2 }.getPartitions e.board.avb.pos (r.2.avb.pos - e.board.avb.pos))

/-- `blk_get_dev`, over whether the device is found: the user area is selected unless the descriptor has it
already. -/
def blkGetDev (found : Bool) : Prog Emmc Bool := do
  if !found then return false
  let e ← Prog.get
  if e.hwpart = MMC_DEFAULT_PARTITION then return true
  if e.notAvailable then return false
  return (← mmcSwitchPart MMC_DEFAULT_PARTITION) = 0

/-- Blocks that are written to the partition that the card has selected. -/
def writeSelected (buffer : Mem) (n : ℕ) : Prog Emmc Unit := Prog.modify fun e =>
  { e with
    board :=
      if e.selected = 0 then { e.board with user := e.board.user.copy 0 buffer 0 (n * BLKSZ) }
      else if e.selected = 1 then { e.board with boot1 := e.board.boot1.copy 0 buffer 0 (n * BLKSZ) }
      else if e.selected = 2 then { e.board with boot2 := e.board.boot2.copy 0 buffer 0 (n * BLKSZ) }
      else e.board }

/-- The boot partition of a slot. -/
def hwPart (slot : UInt8) : ℕ := if slot = 0 then 1 else 2

variable (dev : Device)

/-- The end of the function, from the switch to the boot partition on. -/
def writeBootloader (slot : UInt8) (image : Mem) (blocks : ℕ) (a : Outcome) : Prog Emmc CStr := do
  if (← mmcSwitchPart (hwPart slot)) ≠ 0 then return fastbootFail (ascii "failed switching to partition")
  writeSelected image (if a.moved then blocks else min a.reached blocks)
  if !a.moved then return fastbootFail (ascii "failed writing to device")
  let _ ← onMetadata (avbSetActiveSlot dev slot)
  if (← mmcSwitchPart MMC_DEFAULT_PARTITION) ≠ 0 then return fastbootFail (ascii "failed switching to partition")
  return fastbootOkay

def fbHandleBootloaderFlashing : Prog Emmc CStr := do
  let slot ← onMetadata (fastbootGetSlotIndex dev)
  let b := (← Prog.get).board
  if b.imageSize.toNat > getBootloaderSize dev b.env then
    return fastbootFail (ascii "too large for partition")
  let a ← onBoard access
  if !(← blkGetDev a.found) then return fastbootFail (ascii "failed to get block device")
  if !a.described then return fastbootFail (ascii "failed to get block device")
  writeBootloader dev slot b.image (writeBlocks b.imageSize) a

end RCar.Fastboot.HwPart
