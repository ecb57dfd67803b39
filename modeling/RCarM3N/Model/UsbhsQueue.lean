import RCarM3N.Lib.Queues

/-! The request queues of the USB gadget, up to where control goes to the gadget driver: a call or an interrupt runs until
it returns or calls a complete callback, and what remains of it is on a stack. In the callback the driver may make any
call. DMA is off (`USBHS_DMA_ENABLE`). -/

namespace RCar.Usbhsg

def ECONNRESET : ℤ := 104
def ESHUTDOWN : ℤ := 108

/-- The packet handlers of the gadget. -/
inductive Handler where
  | usbhsfNull | usbhsFifoPioPush | usbhsFifoPioPop | usbhsCtrlStageEnd | usbhsFifoDmaPush | usbhsFifoDmaPop
deriving DecidableEq

/-- A packet: the request that it belongs to, and what the handlers use. -/
structure Pkt where
  req : ℕ
  handler : Handler
  length : ℕ
  zero : Bool
  actual : ℕ
deriving DecidableEq

/-- What a handler finds at the FIFO. -/
structure Fifo where
  /-- `usbhs_pipe_is_busy` -/
  busy : Bool
  /-- `usbhsf_fifo_select` succeeds -/
  selected : Bool
  /-- `usbhs_pipe_is_accessible` succeeds -/
  accessible : Bool
  /-- `usbhsf_fifo_barrier` succeeds -/
  ready : Bool
  rcvLen : ℕ

/-- What a handler leaves behind: the packet, the IS_RUNNING flag and `is_done`. -/
structure Outcome where
  pkt : Pkt
  running : Bool
  isDone : Bool

section Handlers

variable (maxp : ℕ) (running : Bool) (pkt : Pkt) (f : Fifo)

def usbhsfPioTryPush : Outcome :=
  if !f.selected then
    ⟨pkt, running, false⟩
  else if !f.accessible || !f.ready then
    ⟨pkt, true, false⟩
  else
    let totalLen := min (pkt.length - pkt.actual) maxp
    let isShort := totalLen < maxp
    let actual := pkt.actual + totalLen
    let isDone := if actual < pkt.length then false else if isShort then true else !pkt.zero
    ⟨{ pkt with actual := actual }, !isDone, isDone⟩

def usbhsfPioPreparePush : Outcome :=
  if running then ⟨pkt, running, false⟩ else usbhsfPioTryPush maxp running pkt f

def usbhsfPreparePop : Outcome :=
  if f.busy || running then ⟨pkt, running, false⟩ else ⟨pkt, true, false⟩

def usbhsfPioTryPop : Outcome :=
  if !f.selected || !f.ready then
    ⟨pkt, running, false⟩
  else
    let totalLen := min (pkt.length - pkt.actual) f.rcvLen
    let actual := pkt.actual + totalLen
    let pkt := { pkt with actual := actual, zero := f.rcvLen = 0 || pkt.zero }
    if actual = pkt.length ∨ totalLen < maxp then ⟨pkt, false, true⟩ else ⟨pkt, running, false⟩

def usbhsfCtrlStageEnd : Outcome := ⟨pkt, running, true⟩

def usbhsfNullHandle : Outcome := ⟨pkt, running, false⟩

/-- The handler is changed to PIO. -/
def usbhsfDmaPreparePush : Outcome :=
  if f.busy then ⟨pkt, running, false⟩
  else usbhsfPioPreparePush maxp running { pkt with handler := .usbhsFifoPioPush } f

def usbhsfDmaTryPop : Outcome :=
  if f.busy then ⟨pkt, running, false⟩ else usbhsfPioTryPop maxp running { pkt with handler := .usbhsFifoPioPop } f

/-- `handler->prepare`. -/
def Handler.prepare : Handler → Outcome
  | .usbhsfNull => usbhsfNullHandle running pkt
  | .usbhsFifoPioPush => usbhsfPioPreparePush maxp running pkt f
  | .usbhsFifoPioPop => usbhsfPreparePop running pkt f
  | .usbhsCtrlStageEnd => usbhsfCtrlStageEnd running pkt
  | .usbhsFifoDmaPush => usbhsfDmaPreparePush maxp running pkt f
  | .usbhsFifoDmaPop => usbhsfPreparePop running pkt f

/-- `handler->try_run`, which the DMA push handler does not have. -/
def Handler.tryRun : Handler → Outcome
  | .usbhsfNull => usbhsfNullHandle running pkt
  | .usbhsFifoPioPush => usbhsfPioTryPush maxp running pkt f
  | .usbhsFifoPioPop => usbhsfPioTryPop maxp running pkt f
  | .usbhsCtrlStageEnd => usbhsfCtrlStageEnd running pkt
  | .usbhsFifoDmaPush => ⟨pkt, running, false⟩
  | .usbhsFifoDmaPop => usbhsfDmaTryPop maxp running pkt f

end Handlers

inductive PktType where
  | USBHSF_PKT_PREPARE | USBHSF_PKT_TRY_RUN
deriving DecidableEq

def Handler.func (h : Handler) (type : PktType) (maxp : ℕ) (running : Bool) (pkt : Pkt) (f : Fifo) : Outcome :=
  match type with
  | .USBHSF_PKT_PREPARE => h.prepare maxp running pkt f
  | .USBHSF_PKT_TRY_RUN => h.tryRun maxp running pkt f

/-- `struct usbhs_pipe`; the endpoint is its `mod_private`. -/
structure Pipe where
  pipeType : ℕ
  list : List Pkt
  isUsed : Bool
  isRunning : Bool
  handler : Option Handler
  modPrivate : Option ℕ
  maxp : ℕ

/-- What remains of a call that is in a complete callback. -/
inductive Cont where
  /-- `usbhs_pkt_start` of the pipe, after the done callback -/
  | start (pipe : ℕ)
  /-- `usbhsg_ep_disable` of the endpoint, in the loop of `usbhsg_pipe_disable` -/
  | disable (uep pipe : ℕ)
  /-- `__usbhsg_ep_set_halt_wedge`, in the loop -/
  | halt (pipe : ℕ)
deriving DecidableEq

structure State where
  /-- the number of pipes -/
  size : ℕ
  pipe : ℕ → Pipe
  /-- the pipe of an endpoint, `uep->pipe` -/
  uep : ℕ → Option ℕ
  stack : List Cont
  /-- the requests that were accepted into the list of a pipe, and the complete callbacks -/
  log : List (QueueEvent (Option ℕ) ℕ ℤ)

namespace State

def setPipe (s : State) (p : ℕ) (x : Pipe) : State := { s with pipe := Function.update s.pipe p x }

/-- `list_del_init` of the node of a request. -/
def listDel (s : State) (req : ℕ) : State :=
  { s with pipe := fun p => { s.pipe p with list := (s.pipe p).list.filter fun pkt => pkt.req ≠ req } }

/-- The complete callback of a request of a pipe (or of no pipe). -/
def giveBack (s : State) (p : Option ℕ) (req : ℕ) (status : ℤ) : State :=
  { s with log := s.log ++ [.completed p req status] }

def push (s : State) (c : Cont) : State := { s with stack := c :: s.stack }

end State

/-- `usbhsg_queue_done`. -/
def usbhsgQueueDone (p : ℕ) (pkt : Pkt) (s : State) : State :=
  match (s.pipe p).modPrivate with
  | some _ => s.giveBack (some p) pkt.req 0
  | none => s

def usbhsfPktHandler (type : PktType) (p : ℕ) (f : Fifo) (s : State) : State :=
  let x := s.pipe p
  match x.list with
  | [] => s
  | pkt :: rest =>
    let r := pkt.handler.func type x.maxp x.isRunning pkt f
    if r.isDone then
      (usbhsgQueueDone p r.pkt (s.setPipe p { x with list := rest, isRunning := r.running })).push (.start p)
    else
      s.setPipe p { x with list := r.pkt :: rest, isRunning := r.running }

/-- `usbhs_pkt_push`, of a request whose `done` is not null. -/
def usbhsPktPush (p req length : ℕ) (zero : Bool) (s : State) : State :=
  let s := s.listDel req
  let x := s.pipe p
  let handler := x.handler.getD .usbhsfNull
  { s.setPipe p { x with list := x.list ++ [⟨req, handler, length, zero, 0⟩], handler := some handler } with
    log := s.log ++ [.accepted (some p) req] }

/-- `connected` is false when the speed of the bus is unknown or no driver is bound. -/
def usbhsgEpQueue (e req length : ℕ) (zero connected : Bool) (f : Fifo) (s : State) : State :=
  match s.uep e with
  | none => s
  | some p =>
    if !connected then s
    else usbhsfPktHandler .USBHSF_PKT_PREPARE p f (usbhsPktPush p req length zero s)

def usbhsgEpDequeue (e req : ℕ) (s : State) : State :=
  match s.uep e with
  | none => s.giveBack none req (-ECONNRESET)
  | some p => (s.listDel req).giveBack (some p) req (-ECONNRESET)

/-- The end of a call after the loop of `usbhsg_pipe_disable`; a null pointer is dereferenced where the endpoint has lost
its pipe. -/
def Cont.finish (s : State) : Cont → Option State
  | .start _ => some s
  | .disable e p =>
    let s := s.setPipe p { s.pipe p with isUsed := false, isRunning := false }
    match s.uep e with
    | none => none
    | some q => some { s.setPipe q { s.pipe q with modPrivate := none } with uep := Function.update s.uep e none }
  | .halt _ => some s

/-- One turn of the loop of `usbhsg_pipe_disable`, for what `c` goes on with. -/
def usbhsgPipeDisable (c : Cont) (p : ℕ) (s : State) : Option State :=
  match (s.pipe p).list with
  | [] => c.finish s
  | pkt :: rest =>
    some (((s.setPipe p { s.pipe p with list := rest }).giveBack (some p) pkt.req (-ESHUTDOWN)).push c)

def usbhsgEpDisable (e : ℕ) (s : State) : Option State :=
  match s.uep e with
  | none => some s
  | some p => usbhsgPipeDisable (.disable e p) p s

def usbhsgEpSetHalt (e : ℕ) (s : State) : Option State :=
  match s.uep e with
  | none => none
  | some p => usbhsgPipeDisable (.halt p) p s

/-- `usbhsp_get_pipe`. -/
def usbhspGetPipe (type : ℕ) (s : State) : Option ℕ :=
  (List.range s.size).find? fun p => (s.pipe p).pipeType = type && !(s.pipe p).isUsed

/-- `barrier` says whether `usbhsp_pipe_barrier` succeeds. -/
def usbhsgEpEnable (e type : ℕ) (dirIn : Bool) (maxp : ℕ) (barrier : Bool) (s : State) : State :=
  match s.uep e with
  | some _ => s
  | none =>
    match usbhspGetPipe type s with
    | none => s
    | some p =>
      let x : Pipe := { s.pipe p with isUsed := true, isRunning := false, list := [] }
      if !barrier then
        s.setPipe p x
      else
        { s.setPipe p { x with
            modPrivate := some e
            maxp := maxp
            handler := some (if dirIn then .usbhsFifoDmaPush else .usbhsFifoDmaPop) } with
          uep := Function.update s.uep e (some p) }

/-- The stages in which `usbhsg_irq_ctrl_stage` hands a request to the driver. -/
inductive CtrlStage where
  | READ_DATA_STAGE | WRITE_DATA_STAGE | NODATA_STATUS_STAGE
deriving DecidableEq

def CtrlStage.handler : CtrlStage → Handler
  | .READ_DATA_STAGE => .usbhsFifoPioPush
  | .WRITE_DATA_STAGE => .usbhsFifoPioPop
  | .NODATA_STATUS_STAGE => .usbhsCtrlStageEnd

inductive Action where
  | queue (uep req length : ℕ) (zero connected : Bool) (f : Fifo)
  | dequeue (uep req : ℕ)
  | disable (uep : ℕ)
  | setHalt (uep : ℕ)
  | enable (uep type : ℕ) (dirIn : Bool) (maxp : ℕ) (barrier : Bool)
  /-- a ready or an empty interrupt of a pipe -/
  | irq (pipe : ℕ) (f : Fifo)
  | ctrlStage (stage : CtrlStage)
  /-- the complete callback returns -/
  | resume (f : Fifo)

/-- What a call or an interrupt does up to its return or its next callback; none when a null pointer is dereferenced. -/
def State.step (s : State) : Action → Option State
  | .queue e req length zero connected f => some (usbhsgEpQueue e req length zero connected f s)
  | .dequeue e req => some (usbhsgEpDequeue e req s)
  | .disable e => usbhsgEpDisable e s
  | .setHalt e => usbhsgEpSetHalt e s
  | .enable e type dirIn maxp barrier => some (usbhsgEpEnable e type dirIn maxp barrier s)
  | .irq p f => some (usbhsfPktHandler .USBHSF_PKT_TRY_RUN p f s)
  | .ctrlStage stage =>
    match s.uep 0 with
    | none => none
    | some p => some (s.setPipe p { s.pipe p with handler := some stage.handler })
  | .resume f =>
    match s.stack with
    | [] => none
    | .start p :: l => some (usbhsfPktHandler .USBHSF_PKT_PREPARE p f { s with stack := l })
    | .disable e p :: l => usbhsgPipeDisable (.disable e p) p { s with stack := l }
    | .halt p :: l => usbhsgPipeDisable (.halt p) p { s with stack := l }

end RCar.Usbhsg
