import RCarM3N.Model.FbStorage

/-! The commands of fastboot over the storage: `flash`, `erase`, `flashing`, `oem`, `getvar`,
`set_active` and the reboots, with the lock checks as each of them makes them, and what happens once
the answer has been sent. A step takes one USB transfer or one update of a rollback index. -/

namespace RCar.Fastboot

section

variable (dev : Device)

/-! ## Flash and erase -/

/-- The check that the two commands make on the lock status, where it could be read. -/
def deviceLocked (name : CStr) : Option (Bool × Bool) → Bool
  | none => false
  | some (mmcLocked, iplLocked) =>
    let bootloader := name = ascii "bootloader"
    (mmcLocked && !bootloader) || (iplLocked && bootloader)

/-- Whether an update in progress protects the partition. -/
def formatRefused (name : CStr) : Prog Board Bool :=
  if name = ascii "userdata" ∨ name = ascii "metadata" then virtualAbIsInProgress dev else pure false

def flash (cmdParameter : CStr) : Prog Board CStr := do
  match (strsep cmdParameter 58).2 with
  | none => return fastbootFail (ascii "missing partition name")
  | some name =>
    if deviceLocked name (← fastbootGetLockStatus dev) then
      return fastbootFail (ascii "flash device locked")
    if ← formatRefused dev name then
      return fastbootFail (ascii "Virtual A/B is in progress, formatting is not allowed")
    fastbootMmcFlashWrite dev name

def erase (cmdParameter : CStr) : Prog Board CStr := do
  match (strsep cmdParameter 58).2 with
  | none => return fastbootFail (ascii "missing partition name")
  | some name =>
    if deviceLocked name (← fastbootGetLockStatus dev) then
      return fastbootFail (ascii "flash device locked")
    if ← formatRefused dev name then
      return fastbootFail (ascii "Virtual A/B is in progress, erase is not allowed")
    fastbootMmcErase dev name

/-! ## Locking and unlocking -/

def fastbootGetUnlockAbility : Prog Board Bool := do
  return (← access).ability

def isUserConfirmed : Prog Board Bool := do
  let b ← Prog.get
  if b.env (ascii "confirm_user_unlock") = some (ascii "1") then return true
  return (← access).pressed

def fastbootWipeRam : Prog Board Unit :=
  Prog.modify fun b => { b with session := { b.session with mem := fun _ => 0 } }

/-- The end of the four commands that change a lock. -/
def saveAndReset (ctrlb : ControlBlock) (wipeRam : Bool) : Prog Board CStr := do
  if !(← fastbootSaveControlBlock dev ctrlb) then
    return fastbootFail (ascii "save control block failed")
  let _ ← fastbootSetWipeData dev
  if wipeRam then fastbootWipeRam
  Prog.modify fun b => { b with complete := .reset }
  return fastbootOkay

/-- What `unlock` and `unlock_critical` ask for. -/
def unlockTo (ctrlb : ControlBlock) : Prog Board CStr := do
  if !(← fastbootGetUnlockAbility) then return fastbootFail (ascii "unlock ability is 0")
  if !(← isUserConfirmed) then return fastbootFail (ascii "user abort")
  saveAndReset dev ctrlb true

/-- The block that the command works on, after a load with this result. -/
def blockAfterLoad : LoadResult → ControlBlock → ControlBlock
  | .FB_ERR_CRC, ctrlb =>
    { ctrlb with
      iplLock := FASTBOOT_MAGIC_UNLOCKED
      mmcLock := FASTBOOT_MAGIC_UNLOCKED
      rollbackCnt := fun _ => 0 }
  | _, ctrlb => ctrlb

def flashingCommand (cmd : CStr) (ctrlb : ControlBlock) : Prog Board CStr := do
  if cmd = ascii "lock" then
    saveAndReset dev { ctrlb with mmcLock := FASTBOOT_MAGIC_LOCKED } false
  else if cmd = ascii "unlock" then
    unlockTo dev { ctrlb with mmcLock := FASTBOOT_MAGIC_UNLOCKED }
  else if cmd = ascii "lock_critical" then
    saveAndReset dev { ctrlb with iplLock := FASTBOOT_MAGIC_LOCKED } false
  else if cmd = ascii "unlock_critical" then
    unlockTo dev { ctrlb with iplLock := FASTBOOT_MAGIC_UNLOCKED }
  else if cmd = ascii "get_unlock_ability" then
    let unlock ← fastbootGetUnlockAbility
    sendResponse (ascii "INFO unlock ability: " ++ if unlock then ascii "1" else ascii "0")
    return fastbootOkay
  else
    return fastbootFail (ascii "not implemented")

/-- The argument of a command of two words; a missing one is read at address 0. -/
def flashingArgument (cmdString : CStr) : CStr := (strsep cmdString 32).2.getD dev.nullText

def fastbootCbFlashing (cmdString : CStr) : Prog Board CStr := do
  let (ret, ctrlb) ← fastbootLoadControlBlock dev
  if ret = .FB_ERR_GENERIC then return fastbootFail (ascii "load control block failed")
  flashingCommand dev (flashingArgument dev cmdString) (blockAfterLoad ret ctrlb)

/-! ## Environment -/

def CONFIG_SYS_CBSIZE : ℕ := 2048

inductive MacroState where
  | waiting
  | dollar
  | varname (chars : CStr)
  | quoted

/-- One character of `cli_simple_process_macros`: `raw` is it with the backslash before it. -/
def macroStep (env : Env) (prev c : UInt8) (raw : CStr) : MacroState → CStr → MacroState × CStr
  | .waiting, out =>
    if c = 39 ∧ prev ≠ 92 then (.quoted, out)
    else if c = 36 ∧ prev ≠ 92 then (.dollar, out)
    else (.waiting, out ++ [c])
  | .dollar, out =>
    if c = 40 ∨ c = 123 then (.varname [], out)
    else (.waiting, (out ++ [36, c]).take CONFIG_SYS_CBSIZE)
  | .varname chars, out =>
    if c = 41 ∨ c = 125 then
      let envname := (chars ++ raw).dropLast
      (.waiting, (out ++ (env envname).getD []).take CONFIG_SYS_CBSIZE)
    else (.varname (chars ++ raw), out)
  | .quoted, out =>
    if c = 39 ∧ prev ≠ 92 then (.waiting, out) else (.quoted, out ++ [c])

def macroLoop (env : Env) : CStr → UInt8 → MacroState → CStr → CStr
  | [], _, _, out => out
  | [c], prev, state, out =>
    if CONFIG_SYS_CBSIZE ≤ out.length then out
    else match state with
      | .quoted => (macroStep env prev c [c] .quoted out).2
      | state => if c = 92 ∧ prev ≠ 92 then out else (macroStep env prev c [c] state out).2
  | c :: d :: rest, prev, state, out =>
    if CONFIG_SYS_CBSIZE ≤ out.length then out
    else match state with
      | .quoted =>
        let r := macroStep env prev c [c] .quoted out
        macroLoop env (d :: rest) c r.1 r.2
      | state =>
        if c = 92 ∧ prev ≠ 92 then
          let r := macroStep env c d [c, d] state out
          macroLoop env rest d r.1 r.2
        else
          let r := macroStep env prev c [c] state out
          macroLoop env (d :: rest) c r.1 r.2

/-- The terminator replaces the last character of a buffer that is full. -/
def cliSimpleProcessMacros (env : Env) (input : CStr) : CStr :=
  let out := macroLoop env input 0 .waiting []
  if CONFIG_SYS_CBSIZE ≤ out.length then out.dropLast else out

def envDelete (name : CStr) (env : Env) : Option Env :=
  if (env name).isSome ∧ dev.envDeletes name then some (Function.update env name none) else none

/-- `env_set`, where it succeeds. A name that begins with a dash is taken for options: with a value,
the variable that the value names is deleted. -/
def envSet (name value : CStr) (env : Env) : Option Env :=
  match name with
  | 45 :: options =>
    if options.any (· ≠ 102) ∨ value.head? = some 45 ∨ value.contains 61 then none
    else envDelete dev value env
  | _ =>
    if name.contains 61 then none
    else if value = [] then envDelete dev name env
    else if dev.envAccepts name value then some (Function.update env name (some value))
    else none

/-- A save that fails may have torn the stored environment, which then loads as the default one. -/
def envSave : Prog Board Bool := do
  let a ← access
  Prog.modify fun b => { b with
    savedEnv :=
      if a.moved ∨ 256 ≤ a.reached then b.env else if a.reached = 0 then b.savedEnv else dev.defaultEnv }
  return a.moved

def noResetVars : List CStr := [ascii "ethaddr", ascii "ethact", ascii "board_id", ascii "serialno"]

def rcarPresetEnv (env : Env) : Env :=
  match dev.platform with
  | some platform => Function.update env (ascii "platform") (some platform)
  | none => env

def envSetDefault (env : Env) : Env :=
  let default := rcarPresetEnv dev dev.defaultEnv
  fun name => if name ∈ noResetVars then env name else default name

/-! ## The commands of the manufacturer -/

def oemDumpHelp : Prog Board CStr := do
  sendResponse (ascii "INFO")
  sendResponse (ascii "INFO  format	   - create new GPT partition table on eMMC.")
  sendResponse (ascii "INFO  lock_status  - show lock status of the IPL and eMMC.")
  sendResponse (ascii "INFO  setenv NAME <VALUE>  - set environment variable.")
  sendResponse (ascii "INFO  setenv default	   - set environment variables to default.")
  sendResponse (ascii "INFO  erase		   - erase a secure storage on HyperFlash")
  return fastbootOkay

def oemFormat : Prog Board CStr := do
  let a ← access
  if !a.found then return fastbootFail (ascii "FAIL eMMC device not found!")
  if !a.described then return fastbootFail (ascii "FAIL eMMC device not found!")
  writeUserImage dev .format

def lockWord (locked : Bool) : CStr := if locked then ascii "locked" else ascii "unlocked"

def oemLockStatus : Prog Board CStr := do
  match ← fastbootGetLockStatus dev with
  | some (mmcLocked, iplLocked) =>
    sendResponse (ascii "INFO IPL " ++ lockWord iplLocked)
    sendResponse (ascii "INFO MMC " ++ lockWord mmcLocked)
    return fastbootOkay
  | none => return fastbootOkay

/-- The value that the command stores: its second argument with the macros replaced. -/
def setenvValue (env : Env) (value : Option CStr) : CStr :=
  cliSimpleProcessMacros env (value.getD dev.nullText)

def oemSetenvDefault : Prog Board CStr := do
  Prog.modify fun b => { b with env := envSetDefault dev b.env }
  if !(← envSave dev) then return fastbootFail (ascii "Save environment variable error")
  Prog.modify fun b => { b with env := rcarPresetEnv dev b.env }
  return fastbootOkay

def oemSetenv (varval : CStr) : Prog Board CStr := do
  if varval = ascii "default" then oemSetenvDefault dev
  else
    let (key, value) := strsep varval 32
    let b ← Prog.get
    let finaltoken := setenvValue dev b.env value
    if value.isSome ∧ finaltoken ≠ [] then sendResponse (ascii "INFOsetting env " ++ key)
    else sendResponse (ascii "INFOerase env " ++ key)
    match envSet dev key finaltoken b.env with
    | none =>
      return fastbootResponse (ascii "FAIL") (ascii "Setting environment variable '" ++ key ++ ascii "' error")
    | some env =>
      Prog.modify fun b => { b with env := env }
      if !(← envSave dev) then
        return fastbootResponse (ascii "FAIL") (ascii "Save environment variable '" ++ key ++ ascii "' error")
      return fastbootOkay

/-- Where it fails, the text goes into a string of the code and the answer stays empty. -/
def oemErase : Prog Board CStr := do
  let a ← access
  if !a.found then return []
  Prog.modify fun b => { b with
    hyper := b.hyper.copy imgSstdata.startAddr (fun _ => 0xFF) 0
      (if a.moved then imgSstdata.sectorsNum * HF_SECTOR_SIZE
        else min a.reached (imgSstdata.sectorsNum * HF_SECTOR_SIZE)) }
  if !a.moved then return []
  return fastbootOkay

/-- The word after `oem` and its argument. -/
def oemArguments (cmdString : CStr) : CStr × Option CStr :=
  match (strsep cmdString 32).2 with
  | none => (dev.nullText, none)
  | some cmd => strsep cmd 32

def fastbootCbOem (cmdString : CStr) : Prog Board CStr := do
  let (cmd, cmdarg) := oemArguments dev cmdString
  if cmd = ascii "help" then oemDumpHelp
  else if cmd = ascii "lock_status" then oemLockStatus dev
  else
    let status ← fastbootGetLockStatus dev
    let (mmcLocked, iplLocked) := status.getD (false, false)
    if cmd = ascii "format" then
      if mmcLocked || iplLocked then return fastbootFail (ascii "flash device locked")
      oemFormat dev
    else if cmd = ascii "setenv" then
      match cmdarg with
      | none => return fastbootFail (ascii "oem setenv command requires one or two arguments")
      | some varval => oemSetenv dev varval
    else if cmd = ascii "erase" then oemErase
    else return fastbootResponse (ascii "FAIL") (ascii " unsupported oem command: " ++ cmd)

/-! ## Variables -/

def varTable : List CStr :=
  [ascii "version-baseband", ascii "version-bootloader", ascii "version", ascii "product",
    ascii "platform", ascii "revision", ascii "serialno", ascii "variant", ascii "secure",
    ascii "unlocked", ascii "max-download-size", ascii "partition-size:", ascii "partition-type:",
    ascii "has-slot:", ascii "slot-suffixes", ascii "slot-count", ascii "current-slot",
    ascii "slot-successful:", ascii "slot-unbootable:", ascii "slot-retry-count:",
    ascii "snapshot-update-status", ascii "is-userspace"]

/-- The callbacks of the other variables: what they do to `misc`, the lines they send, which begin
with their variable's name, and the value they leave, if they succeed. -/
structure Variables where
  avb : CStr → CStr → Prog UBoot.State Unit
  lines : CStr → CStr → Board → List CStr
  text : CStr → CStr → Board → Option CStr

variable (vars : Variables)

def cbUnlocked : Prog Board CStr := do
  match ← fastbootGetLockStatus dev with
  | some (mmcLocked, _) => return if mmcLocked then ascii "no" else ascii "yes"
  | none => return ascii "yes"

/-- The callback of an entry of the table, on the text of the variable. -/
def callback (entry val : CStr) : Prog Board (Option CStr) := do
  if entry = ascii "unlocked" then
    return some (← cbUnlocked dev)
  else
    onMisc dev (vars.avb entry val)
    let b ← Prog.get
    Prog.modify fun b => { b with
      sent := b.sent ++ (vars.lines entry val b).map fun line => ascii "INFO" ++ entry ++ line }
    return vars.text entry val b

/-- A name with a colon is compared up to it. -/
def entryMatches (var entry : CStr) : Bool :=
  if entry.contains 58 then entry.isPrefixOf var else var = entry

/-- One entry of the answer to `all`. -/
def listVariable (entry : CStr) : Prog Board Unit := do
  match ← callback dev vars entry (ascii "all") with
  | some val => sendResponse (ascii "INFO" ++ entry ++ ascii ":" ++ val)
  | none => return ()

def fastbootCbGetvar (var : CStr) : Prog Board CStr := do
  if var = ascii "all" then
    varTable.foldlM (fun _ entry => listVariable dev vars entry) ()
    return fastbootResponse (ascii "OKAY") (ascii "listed above")
  else
    let found ← (match varTable.find? (entryMatches var) with
      | some entry => callback dev vars entry var
      | none => pure none)
    let b ← Prog.get
    match found, b.env var with
    | some val, _ => return fastbootResponse (ascii "OKAY") val
    | none, some s => return fastbootResponse (ascii "OKAY") s
    | none, none =>
      return fastbootResponse (ascii "FAIL") (ascii "variable '" ++ var ++ ascii "' not found")

def getvar (cmdParameter : CStr) : Prog Board CStr :=
  fastbootCbGetvar dev vars ((strsep cmdParameter 58).2.getD dev.nullText)

/-! ## Slots and reboots -/

def cbSetActiveBootSlot (cmd : CStr) : Prog Board CStr := do
  match (strsep cmd 58).2 with
  | none => return fastbootFail (ascii "missing slot suffix")
  | some val =>
    if val.head? = some 97 ∨ val.head? = some 98 then
      if ← avbSetActiveSlot dev (if val.head? = some 97 then 0 else 1) then return fastbootOkay
      return fastbootFail (ascii "avb operation error")
    else return fastbootFail (ascii "wrong slot suffix")

def setReset : Prog Board CStr := do
  Prog.modify fun b => { b with complete := .reset }
  return fastbootOkay

def reboot (cmd : CStr) : Prog Board CStr := do
  if cmd = ascii "reboot-bootloader" then
    if !(← fastbootSetRebootFlag dev) then return fastbootFail (ascii "Cannot set reboot flag")
    setReset
  else if cmd = ascii "reboot-fastboot" then
    if !(← fastbootSetFastbootdFlag dev) then return fastbootFail (ascii "Cannot set fastbootd flag")
    setReset
  else setReset

def rebootBootloader : Prog Board CStr := do
  if !(← fastbootSetRebootFlag dev) then return fastbootFail (ascii "Cannot set reboot flag")
  return fastbootOkay

def okay : Prog Board CStr := pure fastbootOkay

/-! ## Commands -/

def downloadCommand (cmdParameter : CStr) : Prog Board CStr := fun b =>
  let r := download cmdParameter b.session
  (some r.2, { b with session := r.1 })

/-- The table's handlers. -/
def dispatch (cmdString : CStr) : Command → Prog Board CStr
  | .GETVAR => getvar dev vars cmdString
  | .DOWNLOAD => downloadCommand cmdString
  | .FLASHING => fastbootCbFlashing dev cmdString
  | .FLASH => flash dev cmdString
  | .ERASE => erase dev cmdString
  | .BOOT => okay
  | .CONTINUE => okay
  | .REBOOT => reboot dev cmdString
  | .REBOOT_BOOTLOADER => rebootBootloader dev
  | .SET_ACTIVE => cbSetActiveBootSlot dev cmdString
  | .OEM => fastbootCbOem dev cmdString

/-- What the completion of the answer to a command is to do. -/
def completionOf : Command → Completion → Completion
  | .BOOT, _ => .bootm
  | .CONTINUE, _ => .exit
  | .REBOOT, _ => .reset
  | .REBOOT_BOOTLOADER, _ => .reset
  | _, complete => complete

/-- The command and the string of a transfer that is taken as a command. -/
def request (b : Board) (data : List UInt8) : Option (Command × CStr) :=
  if b.session.complete = .command ∧ UInt32.ofNat data.length < b.session.length then
    (findCommand (cstrOf data)).map (·, cstrOf data)
  else none

/-- What `rx_handler_command` does with the answer. -/
def queueAnswer (c : Command) (response : CStr) (b : Board) : Board :=
  let b := if (ascii "DATA").isPrefixOf response then
      { b with session := { b.session with complete := .dlImage, length := rxBytesExpected b.session } }
    else b
  if (ascii "OKAY").isPrefixOf response then { b with complete := completionOf c b.complete } else b

/-! ## Steps -/

/-- A reset brings back the environment that is stored. -/
def restart (b : Board) : Board :=
  { b with
    env := b.savedEnv
    session := fastbootInit b.session.bufAddr b.session.bufSize b.session.maxpacket b.session.mem
    complete := .nothing }

/-- `fastboot_boot`: an image that does not start ends in a reset. -/
def fastbootBoot (b : Board) : Board :=
  match b.env (ascii "fastboot_bootcmd") with
  | some s => { dev.runCommand s b with complete := .nothing }
  | none => restart b

def completed (b : Board) : Board :=
  match b.complete with
  | .nothing => b
  | .exit => { b with complete := .nothing }
  | .bootm => fastbootBoot dev b
  | .reset => restart b

/-- What reaches the board: a transfer from the host, or an update by verified boot. -/
inductive Event where
  | transfer (data : List UInt8)
  | setRollbackIndex (location : ℕ) (idx : UInt64)

/-- The answer to a transfer that is no command. -/
def refusal (b : Board) (data : List UInt8) : CStr :=
  if b.session.length = 0 then []
  else if UInt32.ofNat data.length < b.session.length then fastbootFail (ascii "unrecognized command")
  else fastbootFail (ascii "buffer overflow")

/-- The answer and the state after an event, if it is handled to the end. -/
def handle (b : Board) : Event → Option CStr × Board
  | .setRollbackIndex location idx =>
    let r := (fastbootSetRollbackIndex dev location idx).run { b with sent := [] }
    (r.1.map fun _ => [], r.2)
  | .transfer data =>
    match request b data with
    | some (c, cmdString) =>
      match (dispatch dev vars cmdString c).run { b with sent := [] } with
      | (some response, b') => (some response, completed dev (queueAnswer c response b'))
      | (none, b') => (none, b')
    | none =>
      if b.session.complete = .dlImage then
        (some [], { b with sent := [], session := rxHandlerDlImage data b.session })
      else (some (refusal b data), { b with sent := [] })

end

end RCar.Fastboot
