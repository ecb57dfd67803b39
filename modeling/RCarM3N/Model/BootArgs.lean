import RCarM3N.Lib.Crc
import RCarM3N.Lib.Text
import RCarM3N.Model.FbCommand

/-! The functions of `boota` that extend the kernel's command line: each of them allocates a buffer of
a counted size, formats its argument and the old value into it and sets `bootargs`. -/

namespace RCar.Boota

open Fastboot (CStr ascii cstrOf simpleStrtoul)

/-- What the functions read of the board: the memory for the new value can be allocated, the identifier of
the platform, the product register, the size for the bootloader, the lock of the IPL if the control block could be
loaded, the variable `rtc_time`, and the messages with a boot reason in the memory and in `misc`. -/
structure BoardState where
  allocated : Bool
  platId : UInt64
  prr : UInt32
  blSize : UInt32
  iplLocked : Option Bool
  rtcTime : Option CStr
  ramReason : Option (List UInt8 × UInt32)
  bcbReason : Option (List UInt8 × UInt32)

/-- A value formatted into a new buffer: its size, the size that `snprintf` is given, and the whole text. -/
structure Update where
  allocated : ℕ
  limit : ℕ
  text : CStr

def Update.value (u : Update) : CStr := snprintf u.limit u.text

/-- The bytes that are written, with the terminator. -/
def Update.written (u : Update) : ℕ := min u.limit (u.text.length + 1)

/-- `%s` of a pointer that may be NULL. -/
def stringArg (s : Option CStr) : CStr := s.getD (ascii "<NULL>")

def argsLength (bootargs : Option CStr) : ℕ := (bootargs.map List.length).getD 0

/-- The common end of the functions: `extra` bytes beside the old value. -/
def formatArgs (extra : ℕ) (arg : CStr) (bootargs : Option CStr) : Update :=
  let len := argsLength bootargs + extra
  ⟨len, len, arg ++ ascii " " ++ stringArg bootargs⟩

/-! ## Board and processor -/

def setBoardIdArgs (platId : UInt64) (bootargs : Option CStr) : Update :=
  formatArgs 34 (ascii "androidboot.board_id=0x" ++ numberText 16 platId.toNat) bootargs

def PRR_MASK : UInt32 := 0x7FFF
def R8A7796_REV_1_1 : UInt32 := 0x5210
def R8A7796_REV_1_3 : UInt32 := 0x5211
def CPU_ID_R8A7796 : UInt32 := 0x52

def rmobileGetCpuType (prr : UInt32) : UInt32 := (prr &&& 0x7F00) >>> 8

def rmobileGetCpuRevInteger (prr : UInt32) : UInt32 :=
  if prr &&& PRR_MASK = R8A7796_REV_1_1 ∨ prr &&& PRR_MASK = R8A7796_REV_1_3 then 1
  else ((prr &&& 0xF0) >>> 4) + 1

def rmobileGetCpuRevFraction (prr : UInt32) : UInt32 :=
  if prr &&& PRR_MASK = R8A7796_REV_1_1 then 1
  else if prr &&& PRR_MASK = R8A7796_REV_1_3 then 3
  else prr &&& 0xF

/-- The two numbers of the revision; version 2.0 of the R8A7796 counts as 1.1. -/
def cpuRevision (prr : UInt32) : UInt32 × UInt32 :=
  let revInteger := rmobileGetCpuRevInteger prr
  let revFraction := rmobileGetCpuRevFraction prr
  if rmobileGetCpuType prr = CPU_ID_R8A7796 ∧ revInteger = 2 ∧ revFraction = 0 then (1, 1)
  else (revInteger, revFraction)

def setCpuRevisionArgs (prr : UInt32) (bootargs : Option CStr) : Update :=
  let (revInteger, revFraction) := cpuRevision prr
  formatArgs 27 (ascii "androidboot.revision=" ++ numberText 10 revInteger.toNat ++ ascii "." ++
    numberText 10 revFraction.toNat) bootargs

/-! ## Partitions and time -/

def otaCriticalPart (blSize : UInt32) : CStr :=
  ascii "blkdevparts=mmcblk0boot0:" ++ numberText 10 blSize.toNat ++ ascii "(bootloader_a);mmcblk0boot1:" ++
    numberText 10 blSize.toNat ++ ascii "(bootloader_b)"

/-- Only with the IPL unlocked. -/
def setBlkdevpartsArgs (iplLocked : Option Bool) (blSize : UInt32) (bootargs : Option CStr) : Option Update :=
  match iplLocked with
  | some false =>
    let buf := otaCriticalPart blSize
    some (formatArgs (buf.length + 2) buf bootargs)
  | _ => none

def RTC_TIME_SEC : UInt64 := 1563524000

def rtcSeconds (rtcTime : Option CStr) : UInt32 :=
  ((rtcTime.map fun s => simpleStrtoul s 10).getD RTC_TIME_SEC).toUInt32

def setFakertcArgs (rtcTime : Option CStr) (bootargs : Option CStr) : Update :=
  formatArgs 21 (ascii "init_time=" ++ numberText 10 (rtcSeconds rtcTime).toNat) bootargs

/-! ## Boot reason -/

def REASON_MIN_LEN : ℕ := 2
def REASON_MAX_LEN : ℕ := 128

def crc32 (buf : List UInt8) : UInt32 := buf.foldl (Crc.byteStep 0xEDB88320) 0xFFFFFFFF ^^^ 0xFFFFFFFF

/-- The reason of a message with the right checksum and a length that is taken. -/
def reasonOf (msg : List UInt8 × UInt32) : Option CStr :=
  if crc32 msg.1 = msg.2 ∧ REASON_MIN_LEN < (cstrOf msg.1).length ∧ (cstrOf msg.1).length < REASON_MAX_LEN then
    some (cstrOf msg.1)
  else none

/-- The message in the memory first, then the one in `misc`. -/
def bootReason (ramReason bcbReason : Option (List UInt8 × UInt32)) : CStr :=
  ((ramReason.bind reasonOf).or (bcbReason.bind reasonOf)).getD (ascii "unknown")

def setBootreasonArgs (reason : CStr) (bootargs : Option CStr) : Update :=
  formatArgs REASON_MAX_LEN (snprintf REASON_MAX_LEN (ascii "androidboot.bootreason=" ++ reason)) bootargs

/-! ## Calls -/

inductive Call where
  | boardId
  | cpuRevision
  | blkdevparts
  | fakertc
  | bootreason

/-- The value that a call formats, where it does. -/
def setArgs (s : BoardState) (bootargs : Option CStr) : Call → Option Update
  | .boardId => some (setBoardIdArgs s.platId bootargs)
  | .cpuRevision => some (setCpuRevisionArgs s.prr bootargs)
  | .blkdevparts => setBlkdevpartsArgs s.iplLocked s.blSize bootargs
  | .fakertc => some (setFakertcArgs s.rtcTime bootargs)
  | .bootreason => some (setBootreasonArgs (bootReason s.ramReason s.bcbReason) bootargs)

/-- `bootargs` after a call. -/
def call (s : BoardState) (bootargs : Option CStr) (c : Call) : Option CStr :=
  if s.allocated then
    match setArgs s bootargs c with
    | some u => some u.value
    | none => bootargs
  else bootargs

/-- `bootargs` after some calls, each with the board as it is then. -/
def calls (bootargs : Option CStr) (l : List (BoardState × Call)) : Option CStr :=
  l.foldl (fun bootargs x => call x.1 bootargs x.2) bootargs

end RCar.Boota
