import RCarM3N.Model.FbControlBlock
import RCarM3N.Model.FbDownload
import RCarM3N.Model.UBootAb

/-! What fastboot reads and writes: the control block in boot partition 2, the partitions of the
eMMC user area, the bootloader in the boot partitions, the images in HyperFlash and the environment.
Every access selects its own hardware partition first, so that the selected one is not kept.
Partition tables, the writers of whole tables and of sparse images, S-records, the command line and
the flags of environment variables are parameters. -/

namespace RCar.Fastboot

abbrev Env := CStr → Option CStr

/-- A damaged block, as a read may deliver it. -/
abbrev Garbled := { c : ControlBlock // ¬ c.Intact }

/-- What becomes of one access to the world outside. -/
structure Outcome where
  /-- the device and its descriptor are found, the hardware partition is selected -/
  found : Bool
  switched : Bool
  described : Bool
  /-- the transfer is complete; otherwise `reached` blocks have reached the storage -/
  moved : Bool
  reached : ℕ
  /-- the control block that the read delivers in place of the stored one -/
  garbled : Option Garbled
  /-- what the caller's structure and an allocated buffer hold before -/
  junk : ControlBlock
  heap : Mem
  /-- what the trusted application and the confirm pin say -/
  ability : Bool
  pressed : Bool

/-- What the completion of the next answer does. -/
inductive Completion where
  | nothing
  | bootm
  | exit
  | reset

/-- `saved` is a mark of the model: the block of the last save that has reported success. -/
structure Board where
  user : Mem
  boot1 : Mem
  boot2 : Mem
  hyper : Mem
  env : Env
  savedEnv : Env
  session : Session
  complete : Completion
  /-- the INFO lines of the command -/
  sent : List CStr
  avb : UBoot.State
  io : ℕ → Outcome
  pos : ℕ
  saved : ControlBlock

namespace Board

def image (b : Board) : Mem := fun i => b.session.mem (b.session.bufAddr + i)

def imageSize (b : Board) : UInt32 := b.session.imageSize

end Board

/-- A partition, in blocks. -/
structure PartInfo where
  start : ℕ
  size : ℕ

def BLKSZ : ℕ := 512

def PartInfo.Covers (p : PartInfo) (a : ℕ) : Prop :=
  p.start * BLKSZ ≤ a ∧ a < p.start * BLKSZ + p.size * BLKSZ

/-- The writes of the user area that go through code of their own. -/
inductive UserImage where
  | gpt
  | mbr
  | zimage
  | sparse (info : PartInfo)
  | format

/-- The board, and the code around fastboot. -/
structure Device where
  /-- `BOOT_SIZE_MULT`: the boot partitions have this many times 128 KiB -/
  bootMult : UInt8
  two_le_bootMult : 2 ≤ bootMult.toNat
  eraseGrpBits : ℕ
  erased : UInt8
  /-- `part_get_info_by_name` over the user area -/
  lookup : Mem → CStr → Option PartInfo
  /-- the partition table lies outside `misc` -/
  lookup_outside : ∀ user user' : Mem,
    (∀ a, (∀ p, lookup user (ascii "misc") = some p → ¬ p.Covers a) → user' a = user a) →
      lookup user' = lookup user
  writeUser : UserImage → Mem → Mem → UInt32 → Mem × CStr
  srecToBin : Mem → ℕ → Option Mem
  runCommand : CStr → Board → Board
  envAccepts : CStr → CStr → Bool
  envDeletes : CStr → Bool
  defaultEnv : Env
  defaultEnv_confirm : defaultEnv (ascii "confirm_user_unlock") = none
  defaultEnv_bootcmd : defaultEnv (ascii "fastboot_bootcmd") = none
  platform : Option CStr
  /-- the bytes that stand at address 0 -/
  nullText : CStr
  /-- how deep the calls of `load_metadata` may be -/
  depth : ℕ

def access : Prog Board Outcome := fun b => (some (b.io b.pos), { b with pos := b.pos + 1 })

def sendResponse (line : CStr) : Prog Board Unit :=
  Prog.modify fun b => { b with sent := b.sent ++ [line] }

section

variable (dev : Device)

/-! ## Control block -/

def CONFIG_ENV_SIZE : ℕ := 0x20000
def CONFIG_FASTBOOT_CB_SIZE : ℕ := 512

def capacityBoot : ℕ := dev.bootMult.toNat * 0x20000

/-- The block counts from the end of the hardware partition, which is aligned to blocks. -/
def cbBlkStart : ℕ := capacityBoot dev / BLKSZ - (CONFIG_ENV_SIZE + CONFIG_FASTBOOT_CB_SIZE) / BLKSZ

def cbOffset : ℕ := cbBlkStart dev * BLKSZ

inductive LoadResult where
  | FB_OK
  | FB_ERR_GENERIC
  | FB_ERR_CRC
  | EIO
deriving DecidableEq

def fastbootLoadControlBlock : Prog Board (LoadResult × ControlBlock) := do
  let a ← access
  let b ← Prog.get
  if !a.found then return (.FB_ERR_GENERIC, a.junk)
  if !a.switched then return (.FB_ERR_GENERIC, a.junk)
  if !a.described then return ( LoadResult.EIO, a.junk)
  if !a.moved then return (.FB_ERR_GENERIC, a.junk)
  let ctrlb := match a.garbled with
    | some c => c.val
    | none => ControlBlock.ofMem b.boot2 (cbOffset dev)
  if ctrlb.Intact then return (.FB_OK, ctrlb.cleared)
  return (.FB_ERR_CRC, ctrlb.cleared)

/-- The block that goes to the storage: the structure, and what the buffer held behind it. -/
def blockBuffer (heap : Mem) (ctrlb : ControlBlock) : Mem :=
  heap.copy 0 (Mem.ofList ctrlb.bytes) 0 ControlBlock.SIZE

/-- Whether it succeeds. A save that fails may have stored its block. -/
def fastbootSaveControlBlock (ctrlb : ControlBlock) : Prog Board Bool := do
  let a ← access
  if !a.found then return false
  if !a.switched then return false
  if !a.described then return false
  if a.moved || 0 < a.reached then
    Prog.modify fun b => { b with
      boot2 := b.boot2.copy (cbOffset dev) (blockBuffer a.heap ctrlb.sealed) 0 CONFIG_FASTBOOT_CB_SIZE }
  if !a.moved then return false
  Prog.modify fun b => { b with saved := ctrlb.sealed }
  return true

/-- The locks of the eMMC and of the IPL, if the block could be loaded. -/
def fastbootGetLockStatus : Prog Board (Option (Bool × Bool)) := do
  let (ret, ctrlb) ← fastbootLoadControlBlock dev
  if ret ≠ .FB_OK then return none
  return some (ctrlb.mmcLock = FASTBOOT_MAGIC_LOCKED, ctrlb.iplLock = FASTBOOT_MAGIC_LOCKED)

def fastbootSetRollbackIndex (location : ℕ) (idx : UInt64) : Prog Board Bool := do
  let (ret, ctrlb) ← fastbootLoadControlBlock dev
  if ret ≠ .FB_OK then return false
  if h : location < MAX_ROLLBACK_LOCATIONS then
    fastbootSaveControlBlock dev
      { ctrlb with rollbackCnt := Function.update ctrlb.rollbackCnt ⟨location, h⟩ idx }
  else return false

/-! ## User area -/

def PART_NAME_LEN : ℕ := 32

/-- `part_get_info_by_name_or_alias` -/
def partGetInfo (b : Board) (name : CStr) : Option PartInfo :=
  match dev.lookup b.user name with
  | some info => some info
  | none =>
    match b.env (ascii "fastboot_partition_alias_" ++ name.take PART_NAME_LEN) with
    | some aliased => dev.lookup b.user aliased
    | none => none

/-- One request: how many blocks it reports. -/
def blkDwrite (start count : ℕ) (buffer : Mem) (src : ℕ) : Prog Board ℕ := do
  let a ← access
  let n := if a.moved then count else min a.reached count
  Prog.modify fun b => { b with user := b.user.copy (start * BLKSZ) buffer src (n * BLKSZ) }
  return if a.moved then count else 0

def FASTBOOT_MAX_BLK_WRITE : ℕ := 16384

def fbMmcBlkWrite (start blkcnt : ℕ) (buffer : Mem) : Prog Board ℕ :=
  (List.range ((blkcnt + FASTBOOT_MAX_BLK_WRITE - 1) / FASTBOOT_MAX_BLK_WRITE)).foldlM
    (fun blks k => do
      let i := k * FASTBOOT_MAX_BLK_WRITE
      let written ← blkDwrite (start + blks) (min (blkcnt - i) FASTBOOT_MAX_BLK_WRITE) buffer (i * BLKSZ)
      return blks + written) 0

def writeRawImage (info : PartInfo) : Prog Board CStr := do
  let b ← Prog.get
  let blkcnt := (b.imageSize.toNat + (BLKSZ - 1)) / BLKSZ
  if blkcnt > info.size then return fastbootFail (ascii "too large for partition")
  let blks ← fbMmcBlkWrite info.start blkcnt b.image
  if blks ≠ blkcnt then return fastbootFail (ascii "failed writing to device")
  return fastbootOkay

def writeUserImage (image : UserImage) : Prog Board CStr := fun b =>
  let r := dev.writeUser image b.user b.image b.imageSize
  (some r.2, { b with user := r.1 })

/-! ## The partition `misc` -/

/-- A function of the A/B library, on the contents of the partition. -/
def onMisc {α : Type} (x : Prog UBoot.State α) : Prog Board α := fun b =>
  match dev.lookup b.user (ascii "misc") with
  | some info =>
    let r := x.run { b.avb with misc := fun i => b.user (info.start * BLKSZ + i) }
    (r.1, { b with
      user := b.user.copy (info.start * BLKSZ) r.2.misc 0 (info.size * BLKSZ)
      avb := r.2 })
  | none =>
    let r := x.run { b.avb with io := fun _ => ⟨.errorNoSuchPartition, 0⟩ }
    (r.1, { b with avb := { r.2 with io := b.avb.io } })

def loadMetadata : Prog UBoot.State (UBoot.IoResult × AvbABData × AvbABData) :=
  UBoot.loadMetadata dev.depth UBoot.unused UBoot.unused

def fastbootGetSlotIndex : Prog Board UInt8 := onMisc dev (UBoot.avbGetSlotIndexWith (loadMetadata dev))

/-- The library asserts that there is such a slot. -/
def avbSetActiveSlot (slot : UInt8) : Prog Board Bool := onMisc dev do
  if !(← UBoot.avbOpsAlloc) then return false
  if h : slot.toNat < 2 then
    return (← UBoot.avbAbMarkSlotActive dev.depth ⟨slot.toNat, h⟩) = .ok
  else Prog.stuck

def virtualAbIsInProgress : Prog Board Bool := onMisc dev do
  match ← UBoot.loadVirtualAbMsgWith (loadMetadata dev) with
  | none => return false
  | some abData =>
    if abData.mergeStatus = VIRTUAL_AB_MERGING then return true
    if abData.mergeStatus ≠ VIRTUAL_AB_SNAPSHOTED then return false
    return abData.sourceSlot ≠ (← UBoot.avbGetSlotIndexWith (loadMetadata dev))

/-! The message to the bootloader stands in the first blocks of the partition, which may also be
found by its alias. -/

def BOOTLOADER_MESSAGE_BLOCKS : ℕ := 4
def BCB_RECOVERY_OFFSET : ℕ := 64

def putText (message : Mem) (off size : ℕ) (text : CStr) : Mem :=
  message.copy off (Mem.ofList text) 0 size

def getBootloaderMessage : Prog Board (Option Mem) := do
  let a ← access
  let b ← Prog.get
  if !a.found then return none
  if !a.described then return none
  match partGetInfo dev b (ascii "misc") with
  | none => return none
  | some info =>
    if !a.moved then return none
    return some fun i => b.user (info.start * BLKSZ + i)

def setBootloaderMessage (message : Mem) : Prog Board Bool := do
  let a ← access
  let b ← Prog.get
  if !a.found then return false
  if !a.described then return false
  match partGetInfo dev b (ascii "misc") with
  | none => return false
  | some info =>
    let blks ← blkDwrite info.start BOOTLOADER_MESSAGE_BLOCKS message 0
    return blks = BOOTLOADER_MESSAGE_BLOCKS

def fastbootSetRebootFlag : Prog Board Bool :=
  setBootloaderMessage dev (putText (fun _ => 0) 0 32 (ascii "bootloader"))

def fastbootSetFastbootdFlag : Prog Board Bool :=
  setBootloaderMessage dev
    (putText (putText (fun _ => 0) 0 32 (ascii "boot-recovery")) BCB_RECOVERY_OFFSET 768
      (ascii "recovery\n--fastboot\n"))

def fastbootSetWipeData : Prog Board Bool := do
  match ← getBootloaderMessage dev with
  | none => return false
  | some bcb =>
    setBootloaderMessage dev
      (putText (putText bcb 0 32 (ascii "boot-recovery")) BCB_RECOVERY_OFFSET 768
        (ascii "recovery\n--wipe_data\n--reboot_bl"))

/-! ## Bootloader -/

def CONFIG_DEFAULT_IPL_IMAGE_SIZE : ℕ := 4194304

def getBootPartFreeSpace : ℕ := capacityBoot dev - CONFIG_ENV_SIZE

def getBootloaderSize (env : Env) : ℕ :=
  let freeSpace := getBootPartFreeSpace dev
  if freeSpace < CONFIG_DEFAULT_IPL_IMAGE_SIZE then freeSpace
  else match env (ascii "ipl_image_size") with
    | none => CONFIG_DEFAULT_IPL_IMAGE_SIZE
    | some blSizeVal =>
      let bootloaderSize := (simpleStrtoul blSizeVal 16).toUInt32.toNat
      if bootloaderSize < CONFIG_DEFAULT_IPL_IMAGE_SIZE then CONFIG_DEFAULT_IPL_IMAGE_SIZE
      else if bootloaderSize > freeSpace then freeSpace
      else bootloaderSize

/-- The number of blocks that an image fills. -/
def writeBlocks (downloadBytes : UInt32) : ℕ :=
  if downloadBytes % 512 ≠ 0 then (downloadBytes >>> 9).toNat + 1 else (downloadBytes >>> 9).toNat

/-- The hardware partition of a slot, from its first block on. -/
def writeBootPart (slot : UInt8) (buffer : Mem) (n : ℕ) : Prog Board Unit :=
  Prog.modify fun b =>
    if slot = 0 then { b with boot1 := b.boot1.copy 0 buffer 0 (n * BLKSZ) }
    else { b with boot2 := b.boot2.copy 0 buffer 0 (n * BLKSZ) }

def fbHandleBootloaderFlashing : Prog Board CStr := do
  let slot ← fastbootGetSlotIndex dev
  let b ← Prog.get
  let blocks := writeBlocks b.imageSize
  if b.imageSize.toNat > getBootloaderSize dev b.env then
    return fastbootFail (ascii "too large for partition")
  let a ← access
  if !a.found then return fastbootFail (ascii "failed to get block device")
  if !a.described then return fastbootFail (ascii "failed to get block device")
  if !a.switched then return fastbootFail (ascii "failed switching to partition")
  writeBootPart slot b.image (if a.moved then blocks else min a.reached blocks)
  if !a.moved then return fastbootFail (ascii "failed writing to device")
  let _ ← avbSetActiveSlot dev slot
  let a ← access
  if !a.switched then return fastbootFail (ascii "failed switching to partition")
  return fastbootOkay

/-! ## HyperFlash -/

def HF_SECTOR_SIZE : ℕ := 0x40000

structure ImgParam where
  imgName : CStr
  startAddr : ℕ
  sectorsNum : ℕ

def imgSstdata : ImgParam := ⟨ascii "ssdata", 0x300000, 4⟩

/-- The images in the order of their numbers. -/
def imgParams : List ImgParam :=
  [⟨ascii "param", 0, 1⟩, ⟨ascii "bl2", 0x140000, 1⟩, ⟨ascii "cert", 0x180000, 1⟩,
    ⟨ascii "bl31", 0x1C0000, 1⟩, ⟨ascii "optee", 0x200000, 2⟩, ⟨ascii "uboot", 0x640000, 5⟩, imgSstdata]

def contains (s sub : CStr) : Bool := s.tails.any fun t => sub.isPrefixOf t

/-- The image of a name, and whether it comes as S-records. -/
def getImageType (name : CStr) : Option (ImgParam × Bool) :=
  if contains name (ascii ".bin") then
    (imgParams.find? fun p => (p.imgName ++ ascii ".bin").isPrefixOf name).map (·, false)
  else if contains name (ascii ".srec") then
    (imgParams.find? fun p => (p.imgName ++ ascii ".srec").isPrefixOf name).map (·, true)
  else none

/-- One sector, through the trusted application. -/
def hfWriteSector (p : ImgParam) (buffer : Mem) (i : ℕ) : Prog Board Bool := do
  let a ← access
  Prog.modify fun b => { b with
    hyper := b.hyper.copy (p.startAddr + i * HF_SECTOR_SIZE) buffer (i * HF_SECTOR_SIZE)
      (if a.moved then HF_SECTOR_SIZE else min a.reached HF_SECTOR_SIZE) }
  return a.moved

def hfWriteImage (p : ImgParam) (buffer : Mem) : Prog Board Bool := do
  let a ← access
  if !a.found then return false
  (List.range p.sectorsNum).foldlM (fun ok i => if ok then hfWriteSector p buffer i else return false) true

def flashHyper (p : ImgParam) (srec : Bool) : Prog Board CStr := do
  let b ← Prog.get
  match if srec then dev.srecToBin b.image (p.sectorsNum * HF_SECTOR_SIZE) else some b.image with
  | none => return fastbootFail (ascii "Failed to convert srec to bin")
  | some buffer =>
    if !(← hfWriteImage p buffer) then return fastbootFail (ascii "Failed to write to HyperFlash")
    return fastbootOkay

/-! ## Flashing and erasing by name -/

def tolower (c : UInt8) : UInt8 := if 65 ≤ c && c ≤ 90 then c + 32 else c

/-- Where an image of a name goes. -/
inductive Target where
  | whole (image : UserImage)
  | hyperFlash (p : ImgParam) (srec : Bool)
  | partition (info : PartInfo)
  | bootloader
  | missing

/-- The tests of `fastboot_mmc_flash_write`, in their order. -/
def flashTarget (b : Board) (cmd : CStr) : Target :=
  if cmd = ascii "gpt" then .whole .gpt
  else if cmd = ascii "mbr" then .whole .mbr
  else if (cmd.take 6).map tolower = ascii "zimage" then .whole .zimage
  else match getImageType cmd with
    | some (p, srec) => .hyperFlash p srec
    | none =>
      match partGetInfo dev b cmd with
      | some info => .partition info
      | none => if (ascii "bootloader").isPrefixOf cmd then .bootloader else .missing

def isSparseImage (image : Mem) : Bool := image.le32 0 = 0xED26FF3A && image 4 = 1 && image 5 = 0

def flashTo (t : Target) : Prog Board CStr := do
  match t with
  | .whole image => writeUserImage dev image
  | .hyperFlash p srec => flashHyper dev p srec
  | .bootloader => fbHandleBootloaderFlashing dev
  | .missing => return fastbootFail (ascii "cannot find partition")
  | .partition info =>
    let b ← Prog.get
    if isSparseImage b.image then writeUserImage dev (.sparse info) else writeRawImage info

def fastbootMmcFlashWrite (cmd : CStr) : Prog Board CStr := do
  let a ← access
  if !a.found then return fastbootFail (ascii "invalid mmc device")
  if !a.described then return fastbootFail (ascii "invalid mmc device")
  let b ← Prog.get
  flashTo dev (flashTarget dev b cmd)

/-- The blocks are aligned to erase groups, inwards. -/
def fastbootMmcErase (cmd : CStr) : Prog Board CStr := do
  let a ← access
  if !a.found then return fastbootFail (ascii "invalid mmc device")
  if !a.described then return fastbootFail (ascii "invalid mmc device")
  let b ← Prog.get
  match partGetInfo dev b cmd with
  | none => return fastbootFail (ascii "cannot find partition")
  | some info =>
    let grpSize := 2 ^ dev.eraseGrpBits
    let blksStart := (info.start + grpSize - 1) / grpSize * grpSize
    let blksSize :=
      if info.size ≥ grpSize then (info.size - (blksStart - info.start)) / grpSize * grpSize else 0
    let blks ← fbMmcBlkWrite blksStart blksSize fun _ => dev.erased
    if blks ≠ blksSize then return fastbootFail (ascii "failed erasing from device")
    return fastbootOkay

end

end RCar.Fastboot
