import RCarM3N.Model.IoDrv

/-! `io_rcar.c`: the boot header with the addresses of the images, the certificates, and the
files that BL2 opens and reads through a backend. An access outside the 64 words of the header
or outside the tables does not return. -/

namespace RCar.Bl2

/-- The build options that the file depends on, apart from `TRUSTED_BOARD_BOOT`, which the
platform always sets. -/
structure BuildOptions where
  rcarBootEmmc : Bool
  emmcBootP2 : Bool

/-! ## Names -/

def BL31_IMAGE_ID : ℤ := 3
def BL32_IMAGE_ID : ℤ := 4
def BL33_IMAGE_ID : ℤ := 5
def TRUSTED_KEY_CERT_ID : ℤ := 7
def SOC_FW_KEY_CERT_ID : ℤ := 9
def TRUSTED_OS_FW_KEY_CERT_ID : ℤ := 10
def NON_TRUSTED_FW_KEY_CERT_ID : ℤ := 11
def SOC_FW_CONTENT_CERT_ID : ℤ := 13
def TRUSTED_OS_FW_CONTENT_CERT_ID : ℤ := 14
def NON_TRUSTED_FW_CONTENT_CERT_ID : ℤ := 15
def NS_BL2U_IMAGE_ID : ℤ := 20
def BL332_IMAGE_ID : ℤ := NS_BL2U_IMAGE_ID + 1
def BL333_IMAGE_ID : ℤ := NS_BL2U_IMAGE_ID + 2
def BL334_IMAGE_ID : ℤ := NS_BL2U_IMAGE_ID + 3
def BL335_IMAGE_ID : ℤ := NS_BL2U_IMAGE_ID + 4
def BL336_IMAGE_ID : ℤ := NS_BL2U_IMAGE_ID + 5
def BL337_IMAGE_ID : ℤ := NS_BL2U_IMAGE_ID + 6
def BL338_IMAGE_ID : ℤ := NS_BL2U_IMAGE_ID + 7
def BL332_CERT_ID : ℤ := NS_BL2U_IMAGE_ID + 15
def BL333_CERT_ID : ℤ := NS_BL2U_IMAGE_ID + 16
def BL334_CERT_ID : ℤ := NS_BL2U_IMAGE_ID + 17
def BL335_CERT_ID : ℤ := NS_BL2U_IMAGE_ID + 18
def BL336_CERT_ID : ℤ := NS_BL2U_IMAGE_ID + 19
def BL337_CERT_ID : ℤ := NS_BL2U_IMAGE_ID + 20
def BL338_CERT_ID : ℤ := NS_BL2U_IMAGE_ID + 21

/-- An entry of the name tables, with the three parts of its attribute. -/
structure NameOffset where
  name : ℤ
  calcaddr : ℕ
  isnoload : ℕ
  certoff : ℕ

def nameOffset : List NameOffset :=
  [⟨BL31_IMAGE_ID, 0, 0, 0⟩,
   ⟨BL32_IMAGE_ID, 1, 0, 1⟩,
   ⟨BL33_IMAGE_ID, 2, 0, 2⟩,
   ⟨BL332_IMAGE_ID, 3, 0, 3⟩,
   ⟨BL333_IMAGE_ID, 4, 0, 4⟩,
   ⟨BL334_IMAGE_ID, 5, 0, 5⟩,
   ⟨BL335_IMAGE_ID, 6, 0, 6⟩,
   ⟨BL336_IMAGE_ID, 7, 0, 7⟩,
   ⟨BL337_IMAGE_ID, 8, 0, 8⟩,
   ⟨BL338_IMAGE_ID, 9, 0, 9⟩]

def certOffset : List NameOffset :=
  [⟨TRUSTED_KEY_CERT_ID, 0, 1, 0⟩,
   ⟨SOC_FW_KEY_CERT_ID, 0, 1, 0⟩,
   ⟨TRUSTED_OS_FW_KEY_CERT_ID, 0, 1, 0⟩,
   ⟨NON_TRUSTED_FW_KEY_CERT_ID, 0, 1, 0⟩,
   ⟨SOC_FW_CONTENT_CERT_ID, 0, 1, 0⟩,
   ⟨TRUSTED_OS_FW_CONTENT_CERT_ID, 0, 1, 1⟩,
   ⟨NON_TRUSTED_FW_CONTENT_CERT_ID, 0, 1, 2⟩,
   ⟨BL332_CERT_ID, 0, 1, 3⟩,
   ⟨BL333_CERT_ID, 0, 1, 4⟩,
   ⟨BL334_CERT_ID, 0, 1, 5⟩,
   ⟨BL335_CERT_ID, 0, 1, 6⟩,
   ⟨BL336_CERT_ID, 0, 1, 7⟩,
   ⟨BL337_CERT_ID, 0, 1, 8⟩,
   ⟨BL338_CERT_ID, 0, 1, 9⟩]

def RCAR_MAX_BL3X_IMAGE : ℕ := 8
def RCAR_SECTOR6_CERT_OFFSET : ℕ := 0x400
def RCAR_SDRAM_certESS : ℕ := 0x43F00000
def RCAR_CERT_SIZE : ℕ := 0x800
def RCAR_FLASH_CERT_HEADER : ℕ := 0x40000 * 6
def RCAR_TRUSTED_SRAM_SIZE : ℕ := 0x3E000
def RCAR_COUNT_LOAD_BL33 : ℕ := 2
def RCAR_COUNT_LOAD_BL33X : ℕ := 3

def BuildOptions.RCAR_EMMC_CERT_HEADER (build : BuildOptions) : ℕ :=
  if build.emmcBootP2 then 0x6C400 else 0x30000

/-- What `file_to_offset` finds for a name. -/
structure FileEntry where
  offset : ℕ
  cert : ℕ
  noLoad : ℕ
  partition : ℕ
deriving DecidableEq

/-- `none` is `-EINVAL`. -/
def fileToOffset (s : IoState) (name : ℤ) : Option FileEntry :=
  match nameOffset.find? fun e =>
      e.name = name ∧ ¬ (s.rcar.imageNumber + 2) % 2 ^ 64 < e.calcaddr with
  | some e => some
      { offset := s.rcar.imageHeader e.calcaddr
        cert := RCAR_CERT_SIZE * e.certoff + RCAR_SDRAM_certESS
        noLoad := e.isnoload
        partition := s.rcar.imageHeaderPrttn e.calcaddr }
  | none =>
    match certOffset.find? fun e => e.name = name with
    | some e => some ⟨0, 0, e.isnoload, 0⟩
    | none => none

/-! ## Certificates -/

def RCAR_BOOT_KEY_CERT_NEW : ℕ := 0xE6300F00
def RCAR_CERT_MAGIC_NUM : ℕ := 0xE291F358
def RCAR_CERT_INFO_SIZE_OFFSET : ℕ := 0x264
def RCAR_CERT_INFO_DST_OFFSET : ℕ := 0x154
def RCAR_CERT_INFO_SIZE_OFFSET1 : ℕ := 0x364
def RCAR_CERT_INFO_DST_OFFSET1 : ℕ := 0x1D4
def RCAR_CERT_INFO_SIZE_OFFSET2 : ℕ := 0x464
def RCAR_CERT_INFO_DST_OFFSET2 : ℕ := 0x254

/-- The length and the destination in the certificate at `cert`. -/
def rcarReadCertificate (mem : Mem) (cert : ℕ) : ℕ × ℕ :=
  let cert := cert % 2 ^ 32
  let read (sizeOff dstOff : ℕ) : ℕ × ℕ :=
    ((mem.le32 (cert + sizeOff)).toNat * 4 % 2 ^ 32,
      (mem.le32 (cert + dstOff + 4)).toNat * 2 ^ 32 + (mem.le32 (cert + dstOff)).toNat)
  let info1 := (mem.le32 (RCAR_BOOT_KEY_CERT_NEW + 0xC)).toNat / 2 ^ 18 % 4
  let info2 := (mem.le32 (cert + 0xC)).toNat / 2 ^ 21 % 4
  if (mem.le32 RCAR_BOOT_KEY_CERT_NEW).toNat = RCAR_CERT_MAGIC_NUM then
    if info1 ≠ 1 then (0, 0)
    else
      match info2 with
      | 2 => read RCAR_CERT_INFO_SIZE_OFFSET2 RCAR_CERT_INFO_DST_OFFSET2
      | 1 => read RCAR_CERT_INFO_SIZE_OFFSET1 RCAR_CERT_INFO_DST_OFFSET1
      | 0 => read RCAR_CERT_INFO_SIZE_OFFSET RCAR_CERT_INFO_DST_OFFSET
      | _ => (0, 0)
  else
    read RCAR_CERT_INFO_SIZE_OFFSET RCAR_CERT_INFO_DST_OFFSET

/-! ## The device -/

/-- `((io_drv_spec_t *) rcar_spec)->partition = partition`. -/
def setSpecPartition (partition : ℕ) : Prog IoState Dev := do
  match (← Prog.get).rcar.handle with
  | none => Prog.stuck
  | some dev =>
    Prog.modify fun s =>
      { s with specPartition := Function.update s.specPartition dev (partition % 2 ^ 32) }
    return dev

section Bl33x

-- `auth_mod_verify_img` on the image in memory: 0 if it is authentic
variable (authModVerifyImg : ℤ → Mem → ℕ → ℕ → ℤ)

/-- One round of the loop of `load_bl33x`, which leaves the backend open when it fails. -/
def loadImg (img : ℤ) : Prog IoState Bool := do
  match fileToOffset (← Prog.get) img with
  | none => return false
  | some f =>
    let (len, dst) := rcarReadCertificate (← Prog.get).mem f.cert
    let dev ← setSpecPartition f.partition
    if (← ioOpen dev) ≠ IO_SUCCESS then
      return false
    if (← ioSeek dev (toSigned f.offset)) ≠ IO_SUCCESS then
      return false
    if checkLoadArea (.ofNat dst) (.ofNat len) ≠ IO_SUCCESS then
      return false
    if (← ioRead dev dst len).1 ≠ IO_SUCCESS then
      return false
    if authModVerifyImg img (← Prog.get).mem dst len ≠ 0 then
      Prog.modify fun s => { s with mem := s.mem.copy dst (fun _ => 0) 0 len }
      return false
    let _ ← ioClose dev
    return true

/-- The loop of `load_bl33x` over the images that are left. -/
def loadImgs : List ℤ → Prog IoState Bool
  | [] => return true
  | img :: l => do
    if !(← loadImg authModVerifyImg img) then
      return false
    loadImgs l

/-- `img`: an index past its end is a read outside the array. -/
def bl33Images : List ℤ :=
  [BL33_IMAGE_ID, BL332_IMAGE_ID, BL333_IMAGE_ID, BL334_IMAGE_ID, BL335_IMAGE_ID, BL336_IMAGE_ID,
    BL337_IMAGE_ID, BL338_IMAGE_ID]

def loadBl33x : Prog IoState ℤ := do
  let r := (← Prog.get).rcar
  if r.loaded ≠ IO_NOT_SUPPORTED then
    return r.loaded
  let ok ← loadImgs authModVerifyImg ((bl33Images.take r.imageNumber).drop 1)
  if !ok then
    modifyRcar fun r => { r with loaded := IO_FAIL }
    return IO_FAIL
  if bl33Images.length < r.imageNumber then
    Prog.stuck
  modifyRcar fun r => { r with loaded := IO_SUCCESS }
  return IO_SUCCESS

end Bl33x

/-- A word of the header buffer. -/
def headerWord (k : ℕ) : Prog IoState ℕ := do
  let s ← Prog.get
  if k < 64 then return s.mem.le64 (s.headerAddr + 8 * k) else Prog.stuck

/-- The copy loop of `rcar_dev_init` from entry `i` on, for `n` more entries. -/
def copyEntries (build : BuildOptions) : ℕ → ℕ → Prog IoState Unit
  | 0, _ => return ()
  | n + 1, i =>
    if i < RCAR_MAX_BL3X_IMAGE + 2 then do
      let offset ← headerWord (i * 2 + 1)
      modifyRcar fun r => { r with imageHeader := Function.update r.imageHeader i offset }
      let prttn ← if build.rcarBootEmmc then pure (← Prog.get).card.bootPartition
        else headerWord (i * 2 + 2)
      modifyRcar fun r => { r with imageHeaderPrttn := Function.update r.imageHeaderPrttn i prttn }
      copyEntries build n (i + 1)
    else
      Prog.stuck

/-- What `rcar_dev_init` does between `io_open` and `io_close`: the value of `rc` at `error`. -/
def readBootHeader (build : BuildOptions) (name : Dev) : Prog IoState ℤ := do
  let offset := if name = .emmcdrv then build.RCAR_EMMC_CERT_HEADER else RCAR_FLASH_CERT_HEADER
  let rc ← ioSeek name offset
  if rc ≠ IO_SUCCESS then
    return rc
  let headerAddr := (← Prog.get).headerAddr
  let (rc, _) ← ioRead name headerAddr 512
  if rc ≠ IO_SUCCESS then
    return rc
  let number ← headerWord 0
  modifyRcar fun r => { r with imageNumber := number }
  copyEntries build ((number + 2) % 2 ^ 64) 0
  if number = 0 ∨ number > RCAR_MAX_BL3X_IMAGE then
    return rc
  let rc ← ioSeek name (offset + RCAR_SECTOR6_CERT_OFFSET : ℕ)
  if rc ≠ IO_SUCCESS then
    return rc
  let (rc, _) ← ioRead name RCAR_SDRAM_certESS (RCAR_CERT_SIZE * (2 + number))
  if rc ≠ IO_SUCCESS then
    return rc
  modifyRcar fun r => { r with certLoad := true }
  return rc

def rcarDevInit (build : BuildOptions) (name : Dev) : Prog IoState ℤ := do
  Prog.modify fun s => { s with mem := s.mem.copy s.headerAddr (fun _ => 0) 0 512 }
  let rc ← platGetDrvSource name
  if rc ≠ IO_SUCCESS then
    return IO_FAIL
  if (← Prog.get).rcar.certLoad then
    return IO_SUCCESS
  let rc ← ioOpen name
  if rc ≠ IO_SUCCESS then
    return IO_FAIL
  let rc ← readBootHeader build name
  let _ ← ioClose name
  return if rc ≠ IO_SUCCESS then IO_FAIL else rc

def rcarFileOpen (name : ℤ) : Prog IoState ℤ := do
  let s ← Prog.get
  if s.rcar.currentFile.offset ≠ 0 then
    return IO_RESOURCES_EXHAUSTED
  match fileToOffset s name with
  | none => return IO_FAIL
  | some f =>
    if f.noLoad ≠ 0 then
      modifyRcar fun r => { r with
        currentFile := { position := 0, noLoad := f.noLoad, offset := 1, size := 1, dst := 0,
                         partition := 0 } }
      return IO_SUCCESS
    let (len, dst) := rcarReadCertificate s.mem f.cert
    let len := if name = BL31_IMAGE_ID ∧ len < RCAR_TRUSTED_SRAM_SIZE then RCAR_TRUSTED_SRAM_SIZE
      else len
    modifyRcar fun r => { r with
      currentFile := { position := 0, noLoad := f.noLoad, offset := f.offset, size := len,
                       dst := dst, partition := f.partition } }
    return IO_SUCCESS

/-- What `rcar_file_read` does while the backend is open: its `rc` and `*cnt`. -/
def readPayload (dev : Dev) (buffer length : ℕ) : Prog IoState (ℤ × Option ℕ) := do
  let r := (← Prog.get).rcar
  let rc ← ioSeek dev (toSigned ((r.currentFile.offset + r.currentFile.position) % 2 ^ 64))
  if rc ≠ IO_SUCCESS then
    return (rc, none)
  if r.loadBl33xCounter = RCAR_COUNT_LOAD_BL33 ∧
      checkLoadArea (.ofNat buffer) (.ofNat length) ≠ IO_SUCCESS then
    return (IO_FAIL, none)
  ioRead dev buffer length

def rcarFileRead (authModVerifyImg : ℤ → Mem → ℕ → ℕ → ℤ) (buffer length : ℕ) :
    Prog IoState (ℤ × Option ℕ) := do
  let fp := (← Prog.get).rcar.currentFile
  if fp.noLoad ≠ 0 then
    return (IO_SUCCESS, some length)
  let dev ← setSpecPartition fp.partition
  if (← ioOpen dev) ≠ IO_SUCCESS then
    return (IO_FAIL, none)
  let (rc, cnt) ← readPayload dev buffer length
  if rc ≠ IO_SUCCESS then
    let _ ← ioClose dev
    return (IO_FAIL, cnt)
  modifyRcar fun r => { r with
    currentFile := { r.currentFile with
      position := (r.currentFile.position + cnt.getD 0) % 2 ^ 32 } }
  let _ ← ioClose dev
  modifyRcar fun r => { r with loadBl33xCounter := (r.loadBl33xCounter + 1) % 2 ^ 32 }
  if (← Prog.get).rcar.loadBl33xCounter = RCAR_COUNT_LOAD_BL33X then
    return (← loadBl33x authModVerifyImg, cnt)
  else
    return (IO_SUCCESS, cnt)

def rcarFileClose : Prog IoState ℤ := do
  if (← Prog.get).rcar.currentFile.offset ≠ 0 then
    modifyRcar fun r => { r with currentFile := RcarFile.zero }
  return IO_SUCCESS

def rcarDevClose : Prog IoState ℤ := do
  modifyRcar fun r => { r with handle := none }
  return IO_SUCCESS

end RCar.Bl2
