import RCarM3N.Lib.Bytes

/-! The command layer of fastboot, `fb_command.c` and the part of `fb_common.c` it answers with:
C strings, the table of the command words and its lookup, the texts of the answers. The table is
the one of the boards' configuration, with `CONFIG_FASTBOOT_FLASH` and without
`CONFIG_FASTBOOT_CMD_OEM_FORMAT`. -/

namespace RCar.Fastboot

/-- A C string, without its terminator. -/
abbrev CStr := List UInt8

def ascii (s : String) : CStr := s.toList.map fun c => c.toUInt8

/-- The string that a buffer holds: what stands before the first NUL. -/
def cstrOf (buffer : List UInt8) : CStr := buffer.takeWhile (· ≠ 0)

/-- `strsep`: the text before the first delimiter and, where there is one, the text after it. -/
def strsep (s : CStr) (delim : UInt8) : CStr × Option CStr :=
  match s.dropWhile (· ≠ delim) with
  | [] => (s, none)
  | _ :: rest => (s.takeWhile (· ≠ delim), some rest)

def isdigit (c : UInt8) : Bool := 48 ≤ c && c ≤ 57

def islower (c : UInt8) : Bool := 97 ≤ c && c ≤ 122

def isxdigit (c : UInt8) : Bool := isdigit c || (65 ≤ c && c ≤ 70) || (97 ≤ c && c ≤ 102)

def digitValue (c : UInt8) : ℕ :=
  if isdigit c then c.toNat - 48 else (if islower c then c.toNat - 32 else c.toNat) - 65 + 10

/-- `_parse_integer_fixup_radix`, for a radix that the caller names. -/
def fixupRadix (cp : CStr) (base : ℕ) : CStr :=
  match cp with
  | 48 :: x :: rest => if base = 16 ∧ (x = 120 ∨ x = 88) then rest else cp
  | _ => cp

/-- The digits that `simple_strtoul` takes into the number. -/
def numeral (cp : CStr) (base : ℕ) : CStr :=
  (fixupRadix cp base).takeWhile fun c => isxdigit c && digitValue c < base

def simpleStrtoul (cp : CStr) (base : ℕ) : UInt64 :=
  (numeral cp base).foldl (fun result c => result * UInt64.ofNat base + UInt64.ofNat (digitValue c)) 0

/-! ## Answers -/

/-- The 64 defined bytes plus the terminator. -/
def FASTBOOT_RESPONSE_LEN : ℕ := 64 + 1

/-- `fastboot_response`: the text is cut to what `vsnprintf` may still write. -/
def fastbootResponse (tag text : CStr) : CStr :=
  tag ++ text.take (FASTBOOT_RESPONSE_LEN - tag.length - 1 - 1)

def fastbootFail (reason : CStr) : CStr := fastbootResponse (ascii "FAIL") reason

def fastbootOkay : CStr := ascii "OKAY"

/-! ## The command words -/

inductive Command where
  | GETVAR
  | DOWNLOAD
  | FLASHING
  | FLASH
  | ERASE
  | BOOT
  | CONTINUE
  | REBOOT
  | REBOOT_BOOTLOADER
  | SET_ACTIVE
  | OEM
deriving DecidableEq

def Command.command : Command → CStr
  | .GETVAR => ascii "getvar"
  | .DOWNLOAD => ascii "download"
  | .FLASHING => ascii "flashing"
  | .FLASH => ascii "flash"
  | .ERASE => ascii "erase"
  | .BOOT => ascii "boot"
  | .CONTINUE => ascii "continue"
  | .REBOOT => ascii "reboot"
  | .REBOOT_BOOTLOADER => ascii "reboot-bootloader"
  | .SET_ACTIVE => ascii "set_active"
  | .OEM => ascii "oem"

/-- The table, in the order of the enumeration: `flashing` stands before `flash`. -/
def commands : List Command :=
  [.GETVAR, .DOWNLOAD, .FLASHING, .FLASH, .ERASE, .BOOT, .CONTINUE, .REBOOT, .REBOOT_BOOTLOADER,
    .SET_ACTIVE, .OEM]

/-- The first entry whose word the string starts with. -/
def findCommand (cmdString : CStr) : Option Command :=
  commands.find? fun c => c.command.isPrefixOf cmdString

end RCar.Fastboot
