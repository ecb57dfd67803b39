import RCarM3N.Model.Emmc
import RCarM3N.Model.LoadArea

/-! The storage layer below the image loader of BL2: the pool of entities, and the two
backends, HyperFlash and eMMC, each with the state of one open file. Calls through a function
table go to the backend that the handle names. -/

namespace RCar.Bl2

def ENOMEM : ℤ := 12
def EINVAL : ℤ := 22

def MAX_IO_HANDLES : ℕ := 4
def FLASH0_BASE : ℕ := 0x08000000
def FLASH_MEMORY_SIZE : ℕ := 0x04000000

/-- The backend devices. A device handle is the device, an open handle the device it is of. -/
inductive Dev where
  | memdrv
  | emmcdrv
deriving DecidableEq

/-- `file_state_t` of `io_memdrv.c` and `io_emmcdrv.c`. -/
structure FileState where
  inUse : Bool
  base : ℕ
  filePos : ℤ
  partition : ℕ

def FileState.zero : FileState := ⟨false, 0, 0, 0⟩

/-- `file_state_t` of `io_rcar.c`. -/
structure RcarFile where
  position : ℕ
  noLoad : ℕ
  offset : ℕ
  size : ℕ
  dst : ℕ
  partition : ℕ

def RcarFile.zero : RcarFile := ⟨0, 0, 0, 0, 0, 0⟩

/-- The statics of `io_rcar.c`. -/
structure RcarStatics where
  /-- `rcar_handle`, with `rcar_spec` the specification of the same device -/
  handle : Option Dev
  currentFile : RcarFile
  imageHeader : ℕ → ℕ
  imageHeaderPrttn : ℕ → ℕ
  imageNumber : ℕ
  certLoad : Bool
  /-- `loaded` of `load_bl33x` -/
  loaded : ℤ
  loadBl33xCounter : ℕ

structure IoState where
  card : State
  /-- the address space: DRAM, SRAM, registers that only hold a value, and the flash -/
  mem : Mem
  /-- where the stack has the buffer for the boot header -/
  headerAddr : ℕ
  /-- `entity_count` -/
  entityCount : ℕ
  /-- the static `current_file` of each backend -/
  file : Dev → FileState
  emmcdrvBootpartition : ℕ
  /-- the `partition` of the two `io_drv_spec_t` -/
  specPartition : Dev → ℕ
  rcar : RcarStatics

def modifyRcar (f : RcarStatics → RcarStatics) : Prog IoState Unit :=
  Prog.modify fun s => { s with rcar := f s.rcar }

/-- A call into the eMMC driver. -/
def onCard {α : Type} (x : Prog State α) : Prog IoState α := fun s =>
  ((x.run s.card).1, { s with card := (x.run s.card).2 })

def setFile (dev : Dev) (f : FileState) : Prog IoState Unit :=
  Prog.modify fun s => { s with file := Function.update s.file dev f }

/-- A `size_t` cast to `signed long long`. -/
def toSigned (n : ℕ) : ℤ := if n < 2 ^ 63 then n else n - 2 ^ 64

/-! ## eMMC -/

/-- The end of `emmcdrv_block_open`, from the label `done` on. -/
def emmcdrvSelect (partition : ℕ) : Prog IoState ℤ := do
  let f := (← Prog.get).file .emmcdrv
  setFile .emmcdrv { f with partition := partition }
  if !(← onCard (emmcSelectPartition partition)) then
    return IO_FAIL
  return IO_SUCCESS

def emmcdrvBlockOpen : Prog IoState ℤ := do
  let s ← Prog.get
  let f := s.file .emmcdrv
  if f.inUse then
    return IO_RESOURCES_EXHAUSTED
  setFile .emmcdrv { f with filePos := 0, inUse := true }
  if s.emmcdrvBootpartition = PARTITION_ID_USER then
    let boot := s.card.bootPartitionEn
    Prog.modify fun s => { s with emmcdrvBootpartition := boot }
    if boot = PARTITION_ID_BOOT_1 ∨ boot = PARTITION_ID_BOOT_2 then
      emmcdrvSelect boot
    else
      return IO_FAIL
  else
    let p := s.specPartition .emmcdrv
    emmcdrvSelect <|
      if p = PARTITION_ID_USER ∨ p = PARTITION_ID_BOOT_1 ∨ p = PARTITION_ID_BOOT_2 then p
      else s.emmcdrvBootpartition

/-- The result and `*length_read`, which is set whether or not the read succeeds. -/
def emmcdrvBlockRead (buffer length : ℕ) : Prog IoState (ℤ × Option ℕ) := do
  let s ← Prog.get
  let f := s.file .emmcdrv
  let sectorAdd := (f.filePos / EMMC_SECTOR_SIZE % 2 ^ 32).toNat
  let sectorNum := (length + EMMC_SECTOR_SIZE - 1) % 2 ^ 64 / EMMC_SECTOR_SIZE % 2 ^ 32
  let (ok, data) ← onCard (emmcReadSector (fun i => s.mem (buffer + i)) sectorAdd sectorNum)
  Prog.modify fun s => { s with mem := s.mem.copy buffer data 0 (EMMC_SECTOR_SIZE * sectorNum) }
  setFile .emmcdrv { f with filePos := f.filePos + toSigned length }
  return (if ok then IO_SUCCESS else IO_FAIL, some length)

/-! ## HyperFlash -/

/-- `FLASH_TRANS_SIZE_UNIT`, of which `DMA_FRACTION_MASK` is one less. -/
def DMA_SIZE_UNIT : ℕ := 0x100
def DMA_LENGTH_LIMIT : ℕ := 0x3FFFFF00
def DMADAR_BOUNDARY_ADDR : ℕ := 0x100000000
def DMA_DST_LIMIT : ℕ := 0x10000000000

/-- The arguments are those that the DMA takes; with any other the machine stops. -/
def rcarDmaExec (dst src len : ℕ) : Prog IoState Unit :=
  let dmaLen :=
    if len % DMA_SIZE_UNIT ≠ 0 then (len + DMA_SIZE_UNIT) % 2 ^ 32 / DMA_SIZE_UNIT * DMA_SIZE_UNIT
    else len
  if dmaLen = 0 ∨ dmaLen > DMA_LENGTH_LIMIT then
    Prog.stuck
  else if src % DMA_SIZE_UNIT ≠ 0 then
    Prog.stuck
  else if dst % 2 ^ 32 + dmaLen > DMADAR_BOUNDARY_ADDR ∨ (dst + dmaLen) % 2 ^ 64 > DMA_DST_LIMIT ∨
      dst % DMA_SIZE_UNIT ≠ 0 then
    Prog.stuck
  else
    Prog.modify fun s => { s with mem := s.mem.copy dst s.mem src dmaLen }

def memdrvBlockOpen : Prog IoState ℤ := do
  let f := (← Prog.get).file .memdrv
  if f.inUse then
    return IO_RESOURCES_EXHAUSTED
  setFile .memdrv { f with base := FLASH0_BASE, filePos := 0, inUse := true }
  return IO_SUCCESS

def memdrvBlockRead (buffer length : ℕ) : Prog IoState (ℤ × Option ℕ) := do
  let f := (← Prog.get).file .memdrv
  if FLASH_MEMORY_SIZE < f.filePos + toSigned length then
    return (IO_FAIL, none)
  rcarDmaExec buffer ((f.base + f.filePos) % 2 ^ 32).toNat (length % 2 ^ 32)
  setFile .memdrv { f with filePos := f.filePos + toSigned length }
  return (IO_SUCCESS, some length)

/-! ## The calls through the function tables -/

def blockOpen : Dev → Prog IoState ℤ
  | .memdrv => memdrvBlockOpen
  | .emmcdrv => emmcdrvBlockOpen

/-- An entity is taken from the pool and given back if the device refuses. -/
def ioOpen (dev : Dev) : Prog IoState ℤ := do
  if (← Prog.get).entityCount < MAX_IO_HANDLES then
    Prog.modify fun s => { s with entityCount := s.entityCount + 1 }
    let result ← blockOpen dev
    if result ≠ 0 then
      Prog.modify fun s => { s with entityCount := s.entityCount - 1 }
    return result
  else
    return -ENOMEM

/-- With `IO_SEEK_SET`. -/
def ioSeek (dev : Dev) (offset : ℤ) : Prog IoState ℤ := do
  let f := (← Prog.get).file dev
  setFile dev { f with filePos := offset }
  return IO_SUCCESS

def ioRead (dev : Dev) (buffer length : ℕ) : Prog IoState (ℤ × Option ℕ) :=
  match dev with
  | .memdrv => memdrvBlockRead buffer length
  | .emmcdrv => emmcdrvBlockRead buffer length

def ioClose (dev : Dev) : Prog IoState ℤ := do
  setFile dev FileState.zero
  Prog.modify fun s => { s with entityCount := s.entityCount - 1 }
  return IO_SUCCESS

/-- `open_memmap` opens the device once for a trial; `open_emmcdrv` has nothing to do. -/
def openDrv : Dev → Prog IoState ℤ
  | .memdrv => do
    let result ← ioOpen .memdrv
    if result = IO_SUCCESS then
      let _ ← ioClose .memdrv
    return result
  | .emmcdrv => return IO_SUCCESS

def platGetDrvSource (dev : Dev) : Prog IoState ℤ := do
  let result ← openDrv dev
  if result ≠ IO_SUCCESS then
    return result
  modifyRcar fun r => { r with handle := some dev }
  return IO_SUCCESS

end RCar.Bl2
