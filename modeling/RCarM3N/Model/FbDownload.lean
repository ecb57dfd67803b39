import RCarM3N.Model.FbCommand

/-! Downloads over USB: `download`, `fastboot_data_download` and `fastboot_data_complete` of
`fb_command.c` and the two receive handlers of `f_fastboot.c` that call them. The handlers of the
other command words are a parameter: they may change the memory and answer OKAY, FAIL or nothing. -/

namespace RCar.Fastboot

inductive RxHandler where
  | command
  | dlImage
deriving DecidableEq

/-- `announced`, `chunks`, `stores` and `completed` are marks of the model. -/
structure Session where
  imageSize : UInt32
  bytesReceived : UInt32
  bytesExpected : UInt32
  bufAddr : ℕ
  bufSize : UInt32
  mem : Mem
  /-- `complete` and `length` of the receive request -/
  complete : RxHandler
  length : UInt32
  maxpacket : UInt32
  /-- the size that the last accepted download has named -/
  announced : ℕ
  /-- the data taken since then, in order -/
  chunks : List (List UInt8)
  /-- the address and the length of every copy into the buffer -/
  stores : List (ℕ × ℕ)
  /-- how many downloads have been completed -/
  completed : ℕ

/-- What the handler of another command word answers. -/
inductive Reply where
  | silent
  | okay (text : CStr)
  | fail (text : CStr)

def Reply.response : Reply → CStr
  | .silent => []
  | .okay text => fastbootResponse (ascii "OKAY") text
  | .fail text => fastbootFail text

abbrev Handlers := Command → CStr → Mem → Mem × Reply

def EP_BUFFER_SIZE : UInt32 := 4096

/-- The number that the hexadecimal digits of a text spell. -/
def hexValue (cp : CStr) : ℕ := (numeral cp 16).foldl (fun n c => n * 16 + digitValue c) 0

def download (cmdParameter : CStr) (s : Session) : Session × CStr :=
  match (strsep cmdParameter 58).2 with
  | none => (s, fastbootFail (ascii "Expected command parameter"))
  | some cmdParameter =>
    let expected := (simpleStrtoul cmdParameter 16).toUInt32
    let s := { s with bytesReceived := 0, bytesExpected := expected }
    if expected = 0 then
      (s, fastbootFail (ascii "Expected nonzero image size"))
    else if expected > s.bufSize then
      (s, fastbootFail cmdParameter)
    else
      ({ s with announced := hexValue cmdParameter, chunks := [] },
        fastbootResponse (ascii "DATA") cmdParameter)

def fastbootDataRemaining (s : Session) : UInt32 := s.bytesExpected - s.bytesReceived

/-- The sum of the check is one of 32-bit words. -/
def fastbootDataDownload (data : List UInt8) (s : Session) : Session × CStr :=
  let len := UInt32.ofNat data.length
  if len = 0 ∨ s.bytesReceived + len > s.bytesExpected then
    (s, fastbootFail (ascii "Received invalid data length"))
  else
    ({ s with
        mem := s.mem.copy (s.bufAddr + s.bytesReceived.toNat) (Mem.ofList data) 0 len.toNat
        bytesReceived := s.bytesReceived + len
        chunks := s.chunks ++ [data]
        stores := (s.bufAddr + s.bytesReceived.toNat, len.toNat) :: s.stores }, [])

def fastbootDataComplete (s : Session) : Session × CStr :=
  ({ s with
      imageSize := s.bytesReceived
      bytesExpected := 0
      bytesReceived := 0
      completed := s.completed + 1 }, fastbootOkay)

/-- The count is compared as a signed one. -/
def rxBytesExpected (s : Session) : UInt32 :=
  let rxRemain := fastbootDataRemaining s
  if rxRemain = 0 ∨ 0x80000000 ≤ rxRemain then 0
  else if rxRemain > EP_BUFFER_SIZE then EP_BUFFER_SIZE
  else if rxRemain % s.maxpacket > 0 then rxRemain + (s.maxpacket - rxRemain % s.maxpacket)
  else rxRemain

def fastbootHandleCommand (others : Handlers) (cmdString : CStr) (s : Session) : Session × CStr :=
  match findCommand cmdString with
  | none => (s, fastbootFail (ascii "unrecognized command"))
  | some .DOWNLOAD => download cmdString s
  | some c =>
    let r := others c cmdString s.mem
    ({ s with mem := r.1 }, r.2.response)

/-- What the USB controller reports: a transfer into the request's buffer with its status, or the
host selecting the interface anew. -/
inductive UsbEvent where
  | transfer (status : ℤ) (data : List UInt8)
  | setAlt

def rxHandlerCommand (others : Handlers) (data : List UInt8) (s : Session) : Session :=
  let r := if UInt32.ofNat data.length < s.length then
      fastbootHandleCommand others (cstrOf data) s
    else (s, fastbootFail (ascii "buffer overflow"))
  if (ascii "DATA").isPrefixOf r.2 then
    { r.1 with complete := .dlImage, length := rxBytesExpected r.1 }
  else r.1

def rxHandlerDlImage (data : List UInt8) (s : Session) : Session :=
  let transferSize := min (fastbootDataRemaining s) (UInt32.ofNat data.length)
  let r := fastbootDataDownload (data.take transferSize.toNat) s
  if r.2 ≠ [] then r.1
  else if fastbootDataRemaining r.1 = 0 then
    { (fastbootDataComplete r.1).1 with complete := .command, length := EP_BUFFER_SIZE }
  else { r.1 with length := rxBytesExpected r.1 }

/-- One report of the controller. A request that has failed is not queued again. -/
def usbStep (others : Handlers) (s : Session) : UsbEvent → Session
  | .setAlt => { s with complete := .command, length := EP_BUFFER_SIZE }
  | .transfer status data =>
    if status ≠ 0 then s
    else match s.complete with
      | .command => if s.length = 0 then s else rxHandlerCommand others data s
      | .dlImage => rxHandlerDlImage data s

/-- `fastboot_init`, over the static variables of a boot. -/
def fastbootInit (bufAddr : ℕ) (bufSize maxpacket : UInt32) (mem : Mem) : Session :=
  { imageSize := 0, bytesReceived := 0, bytesExpected := 0, bufAddr := bufAddr, bufSize := bufSize,
    mem := mem, complete := .command, length := EP_BUFFER_SIZE, maxpacket := maxpacket,
    announced := 0, chunks := [], stores := [], completed := 0 }

end RCar.Fastboot
