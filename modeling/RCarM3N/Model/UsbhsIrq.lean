import Mathlib

/-! The interrupt handler of the USB function controller, one register access or callback at a time, so that the hardware
can raise events in between. The gadget is the current module and its callbacks are registered. -/

namespace RCar.Usbhs

def VBINT : BitVec 16 := 1 <<< 15
def DVST : BitVec 16 := 1 <<< 12
def CTRT : BitVec 16 := 1 <<< 11
def BEMP : BitVec 16 := 1 <<< 10
def NRDY : BitVec 16 := 1 <<< 9
def BRDY : BitVec 16 := 1 <<< 8
def VALID : BitVec 16 := 1 <<< 3

/-- The resume and the frame number interrupts, which the driver does not name. -/
def RESM : BitVec 16 := 1 <<< 14
def SOFR : BitVec 16 := 1 <<< 13

def INTSTS0_MAGIC : BitVec 16 := 0xF800
def INTSTS1_MAGIC : BitVec 16 := 0xA870

/-- The bits of INTSTS0 that are set by an event and stay set until 0 is written to them. -/
def LATCHED : BitVec 16 := VBINT ||| RESM ||| SOFR ||| DVST ||| CTRT ||| VALID

/-- VBSTS, DVSQ and CTSQ: the state of the device, which cannot be written. -/
def DEVICE_STATE : BitVec 16 := 0x00F7

inductive Reg where
  | INTSTS0 | BRDYSTS | NRDYSTS | BEMPSTS
deriving DecidableEq

/-- The status registers, of INTSTS0 the latched bits. -/
structure Regs where
  intsts0 : BitVec 16
  brdysts : BitVec 16
  nrdysts : BitVec 16
  bempsts : BitVec 16
deriving DecidableEq

/-- `struct usbhs_irq_state`, without the register of the host mode. -/
structure IrqState where
  intsts0 : BitVec 16
  brdysts : BitVec 16
  nrdysts : BitVec 16
  bempsts : BitVec 16
deriving DecidableEq

namespace Regs

/-- The bits that are set. -/
def get (r : Regs) : Reg → BitVec 16
  | .INTSTS0 => r.intsts0
  | .BRDYSTS => r.brdysts
  | .NRDYSTS => r.nrdysts
  | .BEMPSTS => r.bempsts

/-- A bit of INTSTS0 that is the OR of a pipe register. -/
def summary (bit pipes : BitVec 16) : BitVec 16 := if pipes = 0 then 0 else bit

/-- `usbhs_read`, when the device is in the state `device`. -/
def read (r : Regs) (device : BitVec 16) : Reg → BitVec 16
  | .INTSTS0 => r.intsts0 ||| (device &&& DEVICE_STATE) ||| summary BEMP r.bempsts ||| summary NRDY r.nrdysts |||
      summary BRDY r.brdysts
  | .BRDYSTS => r.brdysts
  | .NRDYSTS => r.nrdysts
  | .BEMPSTS => r.bempsts

/-- `usbhs_write`: it clears the bits that are written as 0. -/
def write (r : Regs) : Reg → BitVec 16 → Regs
  | .INTSTS0, v => { r with intsts0 := r.intsts0 &&& v }
  | .BRDYSTS, v => { r with brdysts := r.brdysts &&& v }
  | .NRDYSTS, v => { r with nrdysts := r.nrdysts &&& v }
  | .BEMPSTS, v => { r with bempsts := r.bempsts &&& v }

/-- The hardware sets the bits `a`. -/
def raise (r a : Regs) : Regs where
  intsts0 := r.intsts0 ||| (a.intsts0 &&& LATCHED)
  brdysts := r.brdysts ||| a.brdysts
  nrdysts := r.nrdysts ||| a.nrdysts
  bempsts := r.bempsts ||| a.bempsts

end Regs

def IrqState.set (st : IrqState) (v : BitVec 16) : Reg → IrqState
  | .INTSTS0 => { st with intsts0 := v }
  | .BRDYSTS => { st with brdysts := v }
  | .NRDYSTS => { st with nrdysts := v }
  | .BEMPSTS => { st with bempsts := v }

/-- The registers that `usbhs_status_get_each_irq` reads, in its order. -/
def usbhsStatusGetEachIrq : List Reg := [.INTSTS0, .BRDYSTS, .NRDYSTS, .BEMPSTS]

inductive Callback where
  | irqVbus | irqDevState | irqCtrlStage | irqEmpty | irqReady
deriving DecidableEq

/-- The branches of `usbhs_interrupt`. -/
inductive Branch where
  | vbint | dvst | ctrt | bemp | brdy | nrdy
deriving DecidableEq

namespace Branch

def bit : Branch → BitVec 16
  | .vbint => VBINT
  | .dvst => DVST
  | .ctrt => CTRT
  | .bemp => BEMP
  | .brdy => BRDY
  | .nrdy => NRDY

/-- The acknowledging write: the register and the value. -/
def ack (st : IrqState) : Branch → Reg × BitVec 16
  | .vbint => (.INTSTS0, ~~~VBINT &&& INTSTS1_MAGIC)
  | .dvst => (.INTSTS0, ~~~DVST &&& INTSTS1_MAGIC)
  | .ctrt => (.INTSTS0, ~~~CTRT &&& INTSTS1_MAGIC)
  | .bemp => (.BEMPSTS, ~~~st.bempsts)
  | .brdy => (.BRDYSTS, ~~~st.brdysts)
  | .nrdy => (.NRDYSTS, ~~~st.nrdysts)

def callback : Branch → Option Callback
  | .vbint => some .irqVbus
  | .dvst => some .irqDevState
  | .ctrt => some .irqCtrlStage
  | .bemp => some .irqEmpty
  | .brdy => some .irqReady
  | .nrdy => none

end Branch

/-- The branches of `usbhs_interrupt`, in its order. -/
def usbhsInterrupt : List Branch := [.vbint, .dvst, .ctrt, .bemp, .brdy, .nrdy]

/-- The pipes whose handler `usbhsf_irq_empty` and `usbhsf_irq_ready` run, of the 16 pipes that there are. -/
def pipesOf (sts : BitVec 16) : List ℕ :=
  if sts = 0 then [] else (List.range 16).filter fun i => sts &&& (1#16 <<< i) ≠ 0

/-- Where the handler is. -/
inductive Pc where
  | idle
  | reading (l : List Reg) (st : IrqState)
  | handling (st : IrqState) (l : List Branch)
  | acked (st : IrqState) (b : Branch) (l : List Branch)
deriving DecidableEq

structure State where
  regs : Regs
  pc : Pc

/-- What happens next: the hardware sets bits, `usbhs_interrupt` is called with this on its stack, or the call goes on,
while the device is in some state. -/
inductive Action where
  | event (a : Regs)
  | call (stack : IrqState)
  | next (device : BitVec 16)

def State.step (s : State) : Action → Option State
  | .event a => some { s with regs := s.regs.raise a }
  | .call stack =>
    match s.pc with
    | .idle => some { s with pc := .reading usbhsStatusGetEachIrq stack }
    | _ => none
  | .next device =>
    match s.pc with
    | .idle => none
    | .reading [] st => some { s with pc := .handling st usbhsInterrupt }
    | .reading (r :: l) st => some { s with pc := .reading l (st.set (s.regs.read device r) r) }
    | .handling _ [] => some { s with pc := .idle }
    | .handling st (b :: l) =>
      if st.intsts0 &&& b.bit ≠ 0 then
        some ⟨s.regs.write (b.ack st).1 (b.ack st).2, .acked st b l⟩
      else
        some { s with pc := .handling st l }
    -- the callback of the branch runs here
    | .acked st _ l => some { s with pc := .handling st l }

end RCar.Usbhs
