import RCarM3N.Model.UsbhsQueue

/-! The pipes of the USB gadget from the probe on: which are in use, which endpoint has which, and the calls of
`usbhsg_ep_enable` and `usbhsg_ep_disable` that change it. -/

namespace RCar.Usbhsg

def EIO : ℤ := 5

def USB_ENDPOINT_XFER_CONTROL : ℕ := 0

def USB_ENDPOINT_XFER_BULK : ℕ := 2

def USB_ENDPOINT_XFERTYPE_MASK : ℕ := 3

/-- `usbhs_pipe_probe` and `usbhs_mod_gadget_probe`: the first pipe has to be the DCP. -/
def usbhsProbe (pipeConfigs : List ℕ) : Option State :=
  match pipeConfigs with
  | [] => none
  | type :: _ =>
    if type ≠ USB_ENDPOINT_XFER_CONTROL then none
    else
      some ⟨pipeConfigs.length,
        fun i => ⟨pipeConfigs.getD i 0 &&& USB_ENDPOINT_XFERTYPE_MASK, [], false, false, none, none, 0⟩,
        fun _ => none, [], []⟩

def usbhsPipeInit (s : State) : State :=
  { s with pipe := fun i =>
      if i < s.size then { s.pipe i with isUsed := false, isRunning := false, modPrivate := none, list := [] } else s.pipe i }

def usbhsDcpMalloc (s : State) : Option ℕ × State :=
  match usbhspGetPipe USB_ENDPOINT_XFER_CONTROL s with
  | none => (none, s)
  | some p => (some p, s.setPipe p { s.pipe p with isUsed := true, isRunning := false, list := [] })

/-- `usbhsg_try_start`; a null pointer is dereferenced where there is no pipe for the DCP. -/
def usbhsgTryStart (s : State) : Option State :=
  match usbhsDcpMalloc (usbhsPipeInit s) with
  | (none, _) => none
  | (some p, s) =>
    some { s.setPipe p { s.pipe p with modPrivate := some 0, maxp := 64 } with uep := Function.update s.uep 0 (some p) }

/-- The gadget after its probe and start. -/
def usbhsgStarted (pipeConfigs : List ℕ) : Option State := (usbhsProbe pipeConfigs).bind usbhsgTryStart

/-- What `usbhsg_ep_enable` returns. -/
def usbhsgEpEnableRet (e type : ℕ) (barrier : Bool) (s : State) : ℤ :=
  match s.uep e with
  | some _ => 0
  | none =>
    match usbhspGetPipe type s with
    | none => - EIO
    | some _ => if barrier then 0 else - EIO

/-- A call for an endpoint, with the type, direction and packet size of the descriptor and the outcome of the barrier. -/
inductive EpCall where
  | epEnable (uep type : ℕ) (dirIn : Bool) (maxp : ℕ) (barrier : Bool)
  | epDisable (uep : ℕ)

def State.call (s : State) : EpCall → Option State
  | .epEnable e type dirIn maxp barrier => some (usbhsgEpEnable e type dirIn maxp barrier s)
  | .epDisable e => usbhsgEpDisable e s

end RCar.Usbhsg
