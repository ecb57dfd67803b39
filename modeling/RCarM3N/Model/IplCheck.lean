import RCarM3N.Model.Gpt
import RCarM3N.Model.Sha256Armv8

/-! The check of the IPLs of a boot partition: every IPL of the image is read into the one
load buffer in DRAM and its SHA-256 is compared with the digest before it. -/

namespace RCar.Bl2

def MMC_BOOT0 : ℕ := 1
def MMC_BOOT1 : ℕ := 2

def MAX_IPLS : ℕ := 4
def IPL_EMMC_BOOT_MAGIC : String := "BOOTMMC"
def IPL_EMMC_BOOT_MAGIC_SIZE : ℕ := 8
def SHA_256 : UInt32 := 0xF2

/-- Bytes mapped from the load buffer at `0x50000000` to the end of the DRAM area. -/
def IPL_BUFF_SIZE : ℕ := 0x70000000

/-- `img.hdr.ipl_offset[i]` of an image at address 0. -/
def iplOffset (m : Mem) (i : ℕ) : ℕ := (m.le32 (12 + 4 * i)).toNat

/-- The fields of `struct ipl_params` that the check uses, and where they are. -/
structure IplParams where
  fsize : ℕ
  digestType : UInt32
  digest : List UInt8
deriving DecidableEq

/-- `sizeof(struct ipl_params)`. -/
def IPL_PARAMS_SIZE : ℕ := 364

def IplParams.ofMem (m : Mem) (p : ℕ) : IplParams where
  fsize := (m.le32 (p + 4)).toNat
  digestType := m.le32 (p + 40)
  digest := m.read (p + 44) AVB_SHA256_DIGEST_SIZE

def isHashOk (buf len : ℕ) (digest : List UInt8) (digestType : UInt32) : Prog State Bool := do
  if digestType = SHA_256 then
    let s ← Prog.get
    match sha256 s.stack s.dram IPL_BUFF_SIZE buf len with
    | none => Prog.stuck
    | some hash => return hash = digest
  else
    return false

/-- `emmc_read_sector(ipl_image_buf, ...)`; nothing is mapped after the DRAM area. -/
def readIplSector (blk count : ℕ) : Prog State Bool :=
  if IPL_BUFF_SIZE < 512 * count then
    Prog.stuck
  else do
    let s ← Prog.get
    let (ok, buf) ← emmcReadSector s.dram blk count
    Prog.modify fun s => { s with dram := buf }
    return ok

/-- The body of the loop for an IPL that is there. The results of the two reads are not
looked at. -/
def checkIpl (off : ℕ) : Prog State Bool := do
  let _ ← readIplSector (addrToBlk off) 1
  let offsetInBlock := off % EMMC_SECTOR_SIZE
  let s ← Prog.get
  let fsize := (IplParams.ofMem s.dram offsetInBlock).fsize
  let _ ← readIplSector (addrToBlk off) (addrToBlk ((fsize + EMMC_SECTOR_SIZE - 1) % 2 ^ 32) + 1)
  let s ← Prog.get
  let iplParam := IplParams.ofMem s.dram offsetInBlock
  isHashOk (offsetInBlock + IPL_PARAMS_SIZE) iplParam.fsize iplParam.digest iplParam.digestType

/-- One turn of the loop over the offsets, on `(total_ipls, unpacked_ipls)`. -/
def checkIpls (acc : ℕ × ℕ) (off : ℕ) : Prog State (ℕ × ℕ) := do
  if 0 < off then
    if ← checkIpl off then
      return (acc.1 + 1, acc.2 + 1)
    else
      return (acc.1 + 1, acc.2)
  else
    return acc

def checkEmmcHash (partition : ℕ) : Prog State ℤ := do
  if !(← emmcSelectPartition partition) then
    return -1
  let _ ← readIplSector 0 1
  let img := (← Prog.get).dram
  if !strncmpEq IPL_EMMC_BOOT_MAGIC_SIZE img (cstring IPL_EMMC_BOOT_MAGIC) then
    return -1
  let (totalIpls, unpackedIpls) ← ((List.range MAX_IPLS).map (iplOffset img)).foldlM checkIpls (0, 0)
  return -((totalIpls : ℤ) - unpackedIpls)

end RCar.Bl2
