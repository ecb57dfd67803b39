import RCarM3N.Model.FbHandlers
import RCarM3N.Lib.Text

/-! The strings of fastboot's commands: what each command copies into a buffer of a fixed size and
what it queues to the host, `f_fastboot.c` with its callbacks for variables, `oem` and `flashing`.
What the handlers read of the board is given. What the storage and the environment copy for
themselves is not followed. -/

namespace RCar.Fastboot.Buffers

inductive Action where
  /-- So many bytes are written from the start of a buffer of so many. -/
  | copy (capacity length : ℕ)
  /-- The formatted message, the buffer that holds what was kept of it and the bytes that are sent. -/
  | queue (message : CStr) (buffer : List UInt8) (length : ℕ)
deriving DecidableEq

/-- A copy ends inside its buffer; a response has 64 bytes at most, each of them of the message. -/
def Action.safe : Action → Prop
  | .copy capacity length => length ≤ capacity
  | .queue message buffer length =>
    length ≤ 64 ∧ length ≤ message.length ∧ buffer.take length = message.take length

def strcpy (capacity : ℕ) (s : CStr) : Action := .copy capacity (s.length + 1)

/-- `snprintf` of a text, called with a size for a buffer of this capacity. -/
def print (capacity size : ℕ) (text : CStr) : Action := .copy capacity ((snprintf size text).length + 1)

/-- What `%s` prints. -/
def printed (s : Option CStr) : CStr := s.getD (ascii "<NULL>")

def PART_NAME_LEN : ℕ := 32

/-! ## What is sent -/

def fastbootTxWrite (message : CStr) (buffer : List UInt8) (bufferSize : ℕ) : List Action :=
  [.copy EP_BUFFER_SIZE.toNat bufferSize, .queue message buffer bufferSize]

/-- The length that is sent is the one that `vsnprintf` returns: that of the whole message. -/
def fastbootSendResponse (message : CStr) : List Action :=
  let response := snprintf FASTBOOT_RESPONSE_LEN message
  .copy FASTBOOT_RESPONSE_LEN (response.length + 1) :: fastbootTxWrite message (response ++ [0]) message.length

inductive Tag where
  | OKAY
  | FAIL
  | DATA

def Tag.text : Tag → CStr
  | .OKAY => ascii "OKAY"
  | .FAIL => ascii "FAIL"
  | .DATA => ascii "DATA"

/-- What a handler does, and the answer that it leaves, if any. -/
structure Report where
  actions : List Action
  answer : Option (Tag × CStr)

def fail (reason : CStr) : Report := ⟨[], some (.FAIL, reason)⟩

def okay : Report := ⟨[], some (.OKAY, [])⟩

/-- The tag and the text are written into a buffer one after the other. -/
def respond (capacity : ℕ) (tag : Tag) (text : CStr) : List Action :=
  [strcpy capacity tag.text, strcpy capacity (fastbootResponse tag.text text)]

/-- The answer is sent up to its terminator. -/
def sendAnswer : Option (Tag × CStr) → List Action
  | none => fastbootTxWrite [] [0] 0
  | some (tag, text) =>
    let response := fastbootResponse tag.text text
    respond FASTBOOT_RESPONSE_LEN tag text ++ fastbootTxWrite (tag.text ++ text) (response ++ [0]) response.length

/-! ## What the handlers read -/

/-- A partition of the device tree. -/
structure OemPart where
  name : CStr
  slot : Option CStr
  fs : CStr

def OemPart.fullName (p : OemPart) : CStr := p.name ++ p.slot.getD []

/-- A partition of the eMMC and its size in bytes. -/
structure PartInfo where
  name : CStr
  bytes : UInt64

structure BlkDesc where
  vendor : CStr
  product : CStr
  revision : CStr
  mebibytes : UInt64

/-- Where the erasing of the secure storage ends, with the strings of the code that then take the
answer's place. -/
inductive EraseFailure where
  | device
  | session
  | params
  | invoke

def EraseFailure.text : EraseFailure → CStr
  | .device => ascii " failed to find tee device"
  | .session => ascii " failed to open session"
  | .params => ascii " failed to get erase params"
  | .invoke => ascii " failed to invoke command"

inductive SnapshotStatus where
  | unknown
  | none
  | snapshotted
  | merging
  | canceled

def SnapshotStatus.text : SnapshotStatus → CStr
  | .unknown => ascii "unknown"
  | .none => ascii "none"
  | .snapshotted => ascii "snapshotted"
  | .merging => ascii "merging"
  | .canceled => ascii "canceled"

/-- What the handlers read of the board while they handle one command: `nullText` is the string at
address 0, a device of unknown type counts as none, and `gptRestore` gives the table that is read
once a new one is written. -/
structure Readings where
  nullText : CStr
  env : Env
  parts : List OemPart
  blkdev : Option BlkDesc
  partGetInfoByName : CStr → Option PartInfo
  allocated : Bool
  gptRestore : Option (CStr → Option PartInfo)
  lockStatus : Option (Bool × Bool)
  currentSlot : Option (Fin 2)
  slotSuccessful : Fin 2 → Option Bool
  slotBootable : Fin 2 → Option Bool
  slotRetry : Fin 2 → Option UInt8
  revInteger : UInt8
  revFraction : UInt8
  uBootVersion : CStr
  CONFIG_FASTBOOT_BUF_SIZE : UInt32
  fastbootBufSize : UInt32
  snapshotStatus : SnapshotStatus
  inProgress : Bool
  fastbootMmcFlashWrite : CStr → Tag × CStr
  fastbootMmcErase : CStr → Tag × CStr
  setActive : Bool
  setRebootFlag : Bool
  setFastbootdFlag : Bool
  loadControlBlock : Bool
  unlockAbility : Bool
  userConfirmed : Bool
  saveControlBlock : Bool
  setWipeData : Option CStr
  envSet : CStr → CStr → Bool
  envSave : Bool
  erase : Option EraseFailure

variable (w : Readings)

/-! ## Variables -/

/-- What a callback does and the text it leaves in the buffer of the value, if it succeeds. -/
abbrev Filled := List Action × Option CStr

/-- A callback is told one byte less than the buffer has. -/
def fill (text : CStr) : Filled :=
  ([print FASTBOOT_RESPONSE_LEN (FASTBOOT_RESPONSE_LEN - 1) text], some (snprintf (FASTBOOT_RESPONSE_LEN - 1) text))

def failed : Filled := ([], none)

/-- The value of a variable of the environment, or the text that the buffer had. -/
def cbEnv (name val : CStr) : Filled :=
  match w.env name with
  | some env => fill env
  | none => ([], some val)

/-- What is left of a buffer whose first token has been cut off. -/
def firstToken (delim : UInt8) (buf : CStr) : CStr :=
  buf.takeWhile (· = delim) ++ (buf.dropWhile (· = delim)).takeWhile (· ≠ delim)

/-- The second token of a variable. -/
def argument (buf : CStr) : Option CStr := (tokens 58 buf)[1]?

def slotChar (slot : Fin 2) : CStr := if slot = 0 then ascii "a" else ascii "b"

def hexadecimal (n : ℕ) : CStr := ascii "0x" ++ numberText 16 n

/-- The search for a partition by its name with its slot; what it prints for the comparison. -/
def findOemPartitionWithSlot (partname : CStr) : List OemPart → List Action × Option OemPart
  | [] => ([], none)
  | p :: rest =>
    match w.currentSlot, p.slot with
    | some curSlot, some slot =>
      if slotChar curSlot = slot ∧ partname = p.name then ([], some p)
      else
        let printing := print PART_NAME_LEN PART_NAME_LEN p.fullName
        if partname = snprintf PART_NAME_LEN p.fullName then ([printing], some p)
        else
          let r := findOemPartitionWithSlot partname rest
          (printing :: r.1, r.2)
    | _, _ => findOemPartitionWithSlot partname rest

/-- The name that a partition of the tree has on the eMMC, as the listing of the sizes forms it. -/
def tableName (p : OemPart) : CStr :=
  match p.slot with
  | some _ => snprintf PART_NAME_LEN p.fullName
  | none => p.name

def formName (p : OemPart) : Action :=
  match p.slot with
  | some _ => print PART_NAME_LEN PART_NAME_LEN p.fullName
  | none => strcpy PART_NAME_LEN p.name

/-- The lines of the sizes end before the first partition that is not found. -/
def listSizes : List OemPart → List Action
  | [] => []
  | p :: rest =>
    match w.partGetInfoByName (tableName p) with
    | none => [formName p]
    | some info =>
      formName p ::
        fastbootSendResponse (ascii "INFOpartition-size:" ++ tableName p ++ ascii ":" ++ hexadecimal info.bytes.toNat) ++
          listSizes rest

def cbPartitionSize (val : CStr) : Filled :=
  match w.blkdev with
  | none => failed
  | some _ =>
    if firstToken 58 val = ascii "all" then (listSizes w w.parts, none)
    else match argument val with
      | none => failed
      | some part =>
        let found := findOemPartitionWithSlot w part w.parts
        let name := match found.2 with
          | some p => snprintf PART_NAME_LEN p.fullName
          | none => part
        let naming := match found.2 with
          | some p => [print PART_NAME_LEN PART_NAME_LEN p.fullName]
          | none => []
        let actions := strcpy PART_NAME_LEN part :: found.1 ++ naming
        match w.partGetInfoByName name with
        | none => (actions, none)
        | some info =>
          let r := fill (hexadecimal info.bytes.toNat)
          (actions ++ r.1, r.2)

def cbPartitionType (val : CStr) : Filled :=
  if firstToken 58 val = ascii "all" then
    (w.parts.flatMap fun p => fastbootSendResponse (ascii "INFOpartition-type:" ++ p.fullName ++ ascii ":" ++ p.fs), none)
  else match argument val with
    | none => failed
    | some part =>
      let found := findOemPartitionWithSlot w part w.parts
      match found.2.or (w.parts.find? fun p => part = p.name) with
      | some p =>
        let r := fill p.fs
        (found.1 ++ r.1, r.2)
      | none => (found.1, none)

def yesNo (b : Bool) : CStr := if b then ascii "yes" else ascii "no"

/-- A partition with slots is reported once. -/
def slotLine (p : OemPart) : List Action :=
  match p.slot with
  | some slot =>
    if slot = ascii "_a" then fastbootSendResponse (ascii "INFOhas-slot:" ++ p.name ++ ascii ":" ++ yesNo true) else []
  | none => fastbootSendResponse (ascii "INFOhas-slot:" ++ p.name ++ ascii ":" ++ yesNo false)

def cbHasSlot (val : CStr) : Filled :=
  if firstToken 58 val = ascii "all" then (w.parts.flatMap slotLine, none)
  else match (argument val).bind fun part => w.parts.find? fun p => p.name = part with
    | some p => fill (yesNo p.slot.isSome)
    | none => fill (ascii "no")

/-- The three variables of a slot: the line of each slot, or the text of the one that is named. -/
def cbSlot (var : CStr) (text : Fin 2 → Option CStr) (val : CStr) : Filled :=
  if firstToken 58 val = ascii "all" then
    (([0, 1] : List (Fin 2)).flatMap fun slot => match text slot with
      | some t => fastbootSendResponse (ascii "INFO" ++ var ++ slotChar slot ++ ascii ":" ++ t)
      | none => [], none)
  else match argument val with
    | none => ([], some [])
    | some slotText =>
      if slotText = ascii "a" ∨ slotText = ascii "b" then
        match text (if slotText = ascii "a" then 0 else 1) with
        | some t => fill t
        | none => ([], some [])
      else failed

inductive Variable where
  | versionBaseband
  | versionBootloader
  | version
  | product
  | platform
  | revision
  | serialno
  | variant
  | secure
  | unlocked
  | maxDownloadSize
  | partitionSize
  | partitionType
  | hasSlot
  | slotSuffixes
  | slotCount
  | currentSlot
  | slotSuccessful
  | slotUnbootable
  | slotRetryCount
  | snapshotUpdateStatus
  | isUserspace
deriving DecidableEq

def Variable.var : Variable → CStr
  | .versionBaseband => ascii "version-baseband"
  | .versionBootloader => ascii "version-bootloader"
  | .version => ascii "version"
  | .product => ascii "product"
  | .platform => ascii "platform"
  | .revision => ascii "revision"
  | .serialno => ascii "serialno"
  | .variant => ascii "variant"
  | .secure => ascii "secure"
  | .unlocked => ascii "unlocked"
  | .maxDownloadSize => ascii "max-download-size"
  | .partitionSize => ascii "partition-size:"
  | .partitionType => ascii "partition-type:"
  | .hasSlot => ascii "has-slot:"
  | .slotSuffixes => ascii "slot-suffixes"
  | .slotCount => ascii "slot-count"
  | .currentSlot => ascii "current-slot"
  | .slotSuccessful => ascii "slot-successful:"
  | .slotUnbootable => ascii "slot-unbootable:"
  | .slotRetryCount => ascii "slot-retry-count:"
  | .snapshotUpdateStatus => ascii "snapshot-update-status"
  | .isUserspace => ascii "is-userspace"

def Variable.cb (val : CStr) : Variable → Filled
  | .versionBaseband => fill (ascii "N/A")
  | .versionBootloader => fill w.uBootVersion
  | .version => fill (ascii "0.4")
  | .product => cbEnv w (ascii "product") val
  | .platform => cbEnv w (ascii "platform") val
  | .revision => fill (numberText 10 w.revInteger.toNat ++ ascii "." ++ numberText 10 w.revFraction.toNat)
  | .serialno => cbEnv w (ascii "serialno") val
  | .variant => ([], some [])
  | .secure => fill (ascii "no")
  | .unlocked => fill (yesNo !(w.lockStatus.any (·.1)))
  | .maxDownloadSize => fill (hexadecimal w.CONFIG_FASTBOOT_BUF_SIZE.toNat)
  | .partitionSize => cbPartitionSize w val
  | .partitionType => cbPartitionType w val
  | .hasSlot => cbHasSlot w val
  | .slotSuffixes => fill (ascii "a,b")
  | .slotCount => fill (ascii "2")
  | .currentSlot => match w.currentSlot with
    | some slot => fill (slotChar slot)
    | none => ([], some [])
  | .slotSuccessful => cbSlot (ascii "slot-successful:") (fun slot => (w.slotSuccessful slot).map yesNo) val
  | .slotUnbootable => cbSlot (ascii "slot-unbootable:") (fun slot => (w.slotBootable slot).map fun b => yesNo !b) val
  | .slotRetryCount =>
    cbSlot (ascii "slot-retry-count:") (fun slot => (w.slotRetry slot).map fun n => numberText 10 n.toNat) val
  | .snapshotUpdateStatus => fill w.snapshotStatus.text
  | .isUserspace => fill (ascii "no")

/-- The table, in its order. -/
def varDispatchInfo : List Variable :=
  [.versionBaseband, .versionBootloader, .version, .product, .platform, .revision, .serialno, .variant, .secure,
    .unlocked, .maxDownloadSize, .partitionSize, .partitionType, .hasSlot, .slotSuffixes, .slotCount, .currentSlot,
    .slotSuccessful, .slotUnbootable, .slotRetryCount, .snapshotUpdateStatus, .isUserspace]

theorem varDispatchInfo_var : varDispatchInfo.map Variable.var = varTable := rfl

/-- One entry of the answer to `all`. -/
def listVariable (v : Variable) : List Action :=
  let r := v.cb w (ascii "all")
  strcpy FASTBOOT_RESPONSE_LEN (ascii "all") :: r.1 ++
    match r.2 with
    | some val => fastbootSendResponse (ascii "INFO" ++ v.var ++ ascii ":" ++ val)
    | none => []

/-- The name of the variable is read at address 0 where the command has none. -/
def fastbootCbGetvar (var : Option CStr) : Report :=
  let name := var.getD w.nullText
  if name = ascii "all" then ⟨varDispatchInfo.flatMap (listVariable w), some (.OKAY, ascii "listed above")⟩
  else
    let r : Filled := match varDispatchInfo.find? fun v => entryMatches name v.var with
      | some v =>
        let r := v.cb w name
        (strcpy FASTBOOT_RESPONSE_LEN name :: r.1, r.2)
      | none => failed
    match r.2, w.env name with
    | some val, _ => ⟨r.1, some (.OKAY, val)⟩
    | none, some s => ⟨r.1, some (.OKAY, s)⟩
    | none, none => ⟨r.1, some (.FAIL, ascii "variable '" ++ printed var ++ ascii "' not found")⟩

def getvar (cmdParameter : CStr) : Report := fastbootCbGetvar w (strsep cmdParameter 58).2

/-! ## The commands of the manufacturer -/

def helpLines : List CStr :=
  [ascii "INFO", ascii "INFO  format	   - create new GPT partition table on eMMC.",
    ascii "INFO  lock_status  - show lock status of the IPL and eMMC.",
    ascii "INFO  setenv NAME <VALUE>  - set environment variable.",
    ascii "INFO  setenv default	   - set environment variables to default.",
    ascii "INFO  erase		   - erase a secure storage on HyperFlash"]

def oemDumpHelp : Report := ⟨helpLines.flatMap fastbootSendResponse, okay.answer⟩

/-- The title of a partition is copied and its slot appended, into the new table and again for the
listing. -/
def copyName (p : OemPart) : List Action :=
  strcpy PART_NAME_LEN p.name ::
    match p.slot with
    | some slot => [strcpy PART_NAME_LEN (p.name ++ slot)]
    | none => []

def deviceLine (d : BlkDesc) : CStr :=
  ascii "INFO eMMC: " ++ d.vendor ++ ascii " " ++ d.product ++ ascii " " ++ d.revision ++ ascii " " ++
    numberText 10 d.mebibytes.toNat ++ ascii "MiB"

/-- The line of a partition in the table that has been written. -/
def formatLine (table : CStr → Option PartInfo) (p : OemPart) : CStr :=
  match table p.fullName with
  | some info =>
    ascii "INFO     /" ++ info.name ++ ascii " (" ++ numberText 10 (info.bytes.toNat / 1024) ++ ascii " KiB, " ++
      p.fs ++ ascii ")"
  | none => ascii "INFO     /" ++ p.name ++ ascii " (ERROR unable to get info)"

def oemFormat : Report :=
  match w.blkdev with
  | none => fail (ascii "FAIL eMMC device not found!")
  | some d =>
    let described := fastbootSendResponse (deviceLine d)
    if !w.allocated then ⟨described, none⟩
    else
      let named := described ++ w.parts.flatMap copyName
      match w.gptRestore with
      | none => ⟨named, some (.FAIL, ascii " Save partitions layout to disk failed")⟩
      | some table =>
        ⟨named ++ fastbootSendResponse (ascii "INFO Created new GPT partition table:") ++
          w.parts.flatMap fun p => copyName p ++ fastbootSendResponse (formatLine table p), okay.answer⟩

def oemLockStatus : Report :=
  match w.lockStatus with
  | some (mmcLocked, iplLocked) =>
    ⟨fastbootSendResponse (ascii "INFO IPL " ++ lockWord iplLocked) ++
      fastbootSendResponse (ascii "INFO MMC " ++ lockWord mmcLocked), okay.answer⟩
  | none => okay

/-- The names of the references that a character ends. -/
def lookedUp (c : UInt8) (raw : CStr) : MacroState → List CStr
  | .varname chars => if c = 41 ∨ c = 125 then [(chars ++ raw).dropLast] else []
  | _ => []

/-- The names that the scan of the macros looks up, each of which it copies first. -/
def macroNames (env : Env) : CStr → UInt8 → MacroState → CStr → List CStr
  | [], _, _, _ => []
  | [c], prev, state, out =>
    if CONFIG_SYS_CBSIZE ≤ out.length then []
    else match state with
      | .quoted => []
      | state => if c = 92 ∧ prev ≠ 92 then [] else lookedUp c [c] state
  | c :: d :: rest, prev, state, out =>
    if CONFIG_SYS_CBSIZE ≤ out.length then []
    else match state with
      | .quoted =>
        let r := macroStep env prev c [c] .quoted out
        macroNames env (d :: rest) c r.1 r.2
      | state =>
        if c = 92 ∧ prev ≠ 92 then
          let r := macroStep env c d [c, d] state out
          lookedUp d [c, d] state ++ macroNames env rest d r.1 r.2
        else
          let r := macroStep env prev c [c] state out
          lookedUp c [c] state ++ macroNames env (d :: rest) c r.1 r.2

def namesOf (env : Env) (input : CStr) : List CStr := macroNames env input 0 .waiting []

/-- Each name goes into a buffer of its own, the result into that of the caller. -/
def processMacros (input : CStr) : List Action :=
  (namesOf w.env input).map (strcpy CONFIG_SYS_CBSIZE) ++
    [strcpy CONFIG_SYS_CBSIZE (cliSimpleProcessMacros w.env input)]

/-- The line that announces what the command does to the environment. -/
def setenvLine (varval : CStr) : CStr :=
  let (key, value) := strsep varval 32
  if value.isSome ∧ cliSimpleProcessMacros w.env (value.getD w.nullText) ≠ [] then ascii "INFOsetting env " ++ key
  else ascii "INFOerase env " ++ key

def oemSetenv (varval : CStr) : Report :=
  if varval = ascii "default" then
    if w.envSave then okay else fail (ascii "Save environment variable error")
  else
    let (key, value) := strsep varval 32
    let input := value.getD w.nullText
    let actions := processMacros w input ++ fastbootSendResponse (setenvLine w varval)
    if !(w.envSet key (cliSimpleProcessMacros w.env input)) then
      ⟨actions, some (.FAIL, ascii "Setting environment variable '" ++ key ++ ascii "' error")⟩
    else if !w.envSave then
      ⟨actions, some (.FAIL, ascii "Save environment variable '" ++ key ++ ascii "' error")⟩
    else ⟨actions, okay.answer⟩

/-- The reports of a failure take the text for the answer's buffer. -/
def oemErase : Report :=
  match w.erase with
  | some failure => ⟨respond (failure.text.length + 1) .FAIL (ascii "FAIL"), none⟩
  | none => okay

/-- The word after `oem`, read at address 0 where there is none, and what follows it. -/
def oemArguments (cmd : Option CStr) : CStr × Option CStr :=
  match cmd with
  | none => (w.nullText, none)
  | some cmd => strsep cmd 32

def fastbootCbOem (cmdString : CStr) : Report :=
  let cmd := (strsep cmdString 32).2
  let (word, cmdarg) := oemArguments w cmd
  let (mmcLocked, iplLocked) := w.lockStatus.getD (false, false)
  if word = ascii "help" then oemDumpHelp
  else if word = ascii "lock_status" then oemLockStatus w
  else if word = ascii "format" then
    if mmcLocked || iplLocked then fail (ascii "flash device locked") else oemFormat w
  else if word = ascii "setenv" then
    match cmdarg with
    | none => fail (ascii "oem setenv command requires one or two arguments")
    | some varval => oemSetenv w varval
  else if word = ascii "erase" then oemErase w
  else fail (ascii " unsupported oem command: " ++ printed (cmd.map fun _ => word))

/-! ## The other commands -/

def download (cmdParameter : CStr) : Report :=
  match (strsep cmdParameter 58).2 with
  | none => fail (ascii "Expected command parameter")
  | some text =>
    let expected := (simpleStrtoul text 16).toUInt32
    if expected = 0 then fail (ascii "Expected nonzero image size")
    else if expected > w.fastbootBufSize then fail text
    else ⟨[], some (.DATA, text)⟩

/-- The checks that `flash` and `erase` share, the refusal of an update in progress and the storage. -/
def overStorage (refusal : CStr) (storage : CStr → Tag × CStr) (cmdParameter : CStr) : Report :=
  match (strsep cmdParameter 58).2 with
  | none => fail (ascii "missing partition name")
  | some name =>
    if deviceLocked name w.lockStatus then fail (ascii "flash device locked")
    else if (name = ascii "userdata" ∨ name = ascii "metadata") ∧ w.inProgress then fail refusal
    else ⟨respond FASTBOOT_RESPONSE_LEN .FAIL (ascii "no flash device defined"), some (storage name)⟩

def flash (cmdParameter : CStr) : Report :=
  overStorage w (ascii "Virtual A/B is in progress, formatting is not allowed") w.fastbootMmcFlashWrite cmdParameter

def erase (cmdParameter : CStr) : Report :=
  overStorage w (ascii "Virtual A/B is in progress, erase is not allowed") w.fastbootMmcErase cmdParameter

/-- What a failed request for the wiping of the data leaves in the answer is replaced. -/
def saveAndReset : Report :=
  if w.saveControlBlock then
    ⟨match w.setWipeData with
      | some reason => respond FASTBOOT_RESPONSE_LEN .FAIL reason
      | none => [], okay.answer⟩
  else fail (ascii "save control block failed")

def unlockTo : Report :=
  if !w.unlockAbility then fail (ascii "unlock ability is 0")
  else if !w.userConfirmed then fail (ascii "user abort")
  else saveAndReset w

def fastbootCbFlashing (cmdString : CStr) : Report :=
  let cmd := (strsep cmdString 32).2.getD w.nullText
  if !w.loadControlBlock then fail (ascii "load control block failed")
  else if cmd = ascii "lock" ∨ cmd = ascii "lock_critical" then saveAndReset w
  else if cmd = ascii "unlock" ∨ cmd = ascii "unlock_critical" then unlockTo w
  else if cmd = ascii "get_unlock_ability" then
    ⟨fastbootSendResponse (ascii "INFO unlock ability: " ++ if w.unlockAbility then ascii "1" else ascii "0"), okay.answer⟩
  else fail (ascii "not implemented")

def cbSetActiveBootSlot (cmd : CStr) : Report :=
  match (strsep cmd 58).2 with
  | none => fail (ascii "missing slot suffix")
  | some val =>
    if val.head? = some 97 ∨ val.head? = some 98 then
      if w.setActive then okay else fail (ascii "avb operation error")
    else fail (ascii "wrong slot suffix")

def rebootBootloader : Report :=
  if w.setRebootFlag then okay else fail (ascii "Cannot set reboot flag")

def reboot (cmd : CStr) : Report :=
  if cmd = ascii "reboot-bootloader" then rebootBootloader w
  else if cmd = ascii "reboot-fastboot" then
    if w.setFastbootdFlag then okay else fail (ascii "Cannot set fastbootd flag")
  else okay

/-! ## A packet -/

def dispatch (cmdString : CStr) : Command → Report
  | .GETVAR => getvar w cmdString
  | .DOWNLOAD => download w cmdString
  | .FLASHING => fastbootCbFlashing w cmdString
  | .FLASH => flash w cmdString
  | .ERASE => erase w cmdString
  | .BOOT => okay
  | .CONTINUE => okay
  | .REBOOT => reboot w cmdString
  | .REBOOT_BOOTLOADER => rebootBootloader w
  | .SET_ACTIVE => cbSetActiveBootSlot w cmdString
  | .OEM => fastbootCbOem w cmdString

def fastbootHandleCommand (cmdString : CStr) : Report :=
  match findCommand cmdString with
  | some c => dispatch w cmdString c
  | none => fail (ascii "unrecognized command")

/-- A packet that fills the buffer of the endpoint is not handled. -/
def rxHandlerCommand (packet : List UInt8) : List Action :=
  let report :=
    if packet.length < EP_BUFFER_SIZE.toNat then fastbootHandleCommand w (cstrOf packet)
    else fail (ascii "buffer overflow")
  report.actions ++ sendAnswer report.answer

end RCar.Fastboot.Buffers
