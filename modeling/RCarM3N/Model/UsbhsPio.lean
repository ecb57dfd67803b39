import RCarM3N.Lib.Bytes
import RCarM3N.Lib.Packets
import RCarM3N.Model.UsbhsQueue

/-! The data side of the PIO handlers of the USB gadget: what a call of `usbhsf_pio_try_push` or `usbhsf_pio_try_pop` does
at the FIFO port and in the buffer of the request, and the FIFO behind the port. The data toggle, the transaction counter
and the interrupt enables are left out: nothing that is read here depends on them. -/

namespace RCar.UsbhsPio

open Usbhsg

def EBUSY : ℤ := 16

/-- The bits of the control register of the FIFO. -/
def FRDY : ℕ := 1 <<< 13

def DTLN_MASK : ℕ := 0x0FFF

/-- A write to the FIFO port, a byte at its lane, or of BVAL to the control register. -/
inductive PortWrite where
  | iowrite32 (data : UInt32)
  | iowrite8 (lane : ℕ) (data : UInt8)
  | bval

/-- The FIFO at the other end appends every byte, and a word as its four bytes; BVAL ends the packet. -/
def PortWrite.run (maxp : ℕ) (tx : Packetizer UInt8) : PortWrite → Packetizer UInt8
  | .iowrite32 data => tx.appendAll maxp [byte32 data 0, byte32 data 1, byte32 data 2, byte32 data 3]
  | .iowrite8 _ data => tx.append maxp data
  | .bval => tx.flush

/-- `iowrite32_rep` of `n` words from `buf` on. -/
def iowrite32Rep (mem : Mem) (buf n : ℕ) : List PortWrite :=
  (List.range n).map fun i => .iowrite32 (mem.le32 (buf + 4 * i))

/-- The writes of `len` bytes from `buf` on. -/
def writePort (mem : Mem) (buf len : ℕ) : List PortWrite :=
  let words := if 4 ≤ len ∧ buf % 4 = 0 then iowrite32Rep mem buf (len / 4) else []
  let rest := if 4 ≤ len ∧ buf % 4 = 0 then len % 4 else len
  let buf := buf + (len - rest)
  words ++ (List.range rest).map fun i => .iowrite8 (3 - i % 4) (mem (buf + i))

/-- A call of a push handler: what it returns and what it writes. -/
structure Push extends Outcome where
  ret : ℤ
  writes : List PortWrite

section

variable (maxp : ℕ) (running : Bool) (mem : Mem) (buf : ℕ) (pkt : Pkt) (f : Fifo)

def usbhsfPioTryPush : Push :=
  if !f.selected then
    ⟨⟨pkt, running, false⟩, 0, []⟩
  else if !f.accessible then
    ⟨⟨pkt, true, false⟩, 0, []⟩
  else if !f.ready then
    ⟨⟨pkt, true, false⟩, -EBUSY, []⟩
  else
    let totalLen := min (pkt.length - pkt.actual) maxp
    let isShort := totalLen < maxp
    let writes := writePort mem (buf + pkt.actual) totalLen
    let actual := pkt.actual + totalLen
    let isDone := if actual < pkt.length then false else if isShort then true else !pkt.zero
    ⟨⟨{ pkt with actual := actual }, !isDone, isDone⟩, 0, if isShort then writes ++ [.bval] else writes⟩

end

/-- Calls of `usbhsf_pio_try_push` for a request until one reports that it is done. -/
structure PushRun where
  pkt : Pkt
  running : Bool
  tx : Packetizer UInt8
  reports : ℕ

def PushRun.call (maxp : ℕ) (mem : Mem) (buf : ℕ) (r : PushRun) (f : Fifo) : PushRun :=
  if r.reports ≠ 0 then r
  else
    let o := usbhsfPioTryPush maxp r.running mem buf r.pkt f
    ⟨o.pkt, o.running, o.writes.foldl (PortWrite.run maxp) r.tx, r.reports + o.isDone.toNat⟩

def pushRun (maxp : ℕ) (mem : Mem) (buf : ℕ) (r : PushRun) (fifo : ℕ → Fifo) : ℕ → PushRun
  | 0 => r
  | n + 1 => (pushRun maxp mem buf r fifo n).call maxp mem buf (fifo n)

/-- A received packet: its bytes are the first of `data`, what the port gives behind them may be anything. The control
register reports its length in the field DTLN. -/
structure RxPacket where
  data : Mem
  len : ℕ
  fits : len ≤ DTLN_MASK

def RxPacket.bytes (p : RxPacket) : List UInt8 := p.data.read 0 p.len

/-- The packets that wait for the port, and how much of the first was read. -/
structure RxFifo where
  packets : List RxPacket
  pos : ℕ

namespace RxFifo

def ctr (rx : RxFifo) : ℕ :=
  match rx.packets with
  | [] => 0
  | p :: _ => FRDY ||| p.len

def ioread32 (rx : RxFifo) : UInt32 × RxFifo :=
  match rx.packets with
  | [] => (0, rx)
  | p :: _ => (p.data.le32 rx.pos, { rx with pos := rx.pos + 4 })

/-- BCLR. -/
def clear (rx : RxFifo) : RxFifo := ⟨rx.packets.tail, 0⟩

/-- A packet that was read to its end gives its place to the next one. -/
def settle (rx : RxFifo) : RxFifo :=
  match rx.packets with
  | [] => rx
  | p :: ps => if 0 < rx.pos ∧ p.len ≤ rx.pos then ⟨ps, 0⟩ else rx

/-- What a call finds at the FIFO. -/
def atPort (rx : RxFifo) (f : Fifo) : Fifo :=
  { f with ready := f.ready && rx.ctr &&& FRDY ≠ 0, rcvLen := rx.ctr &&& DTLN_MASK }

end RxFifo

/-- `ioread32_rep` of `n` words to `buf`. -/
def ioread32Rep : ℕ → ℕ → Mem → RxFifo → Mem × RxFifo
  | 0, _, mem, rx => (mem, rx)
  | n + 1, buf, mem, rx => ioread32Rep n (buf + 4) (mem.setLe32 buf rx.ioread32.1) rx.ioread32.2

/-- The variables of the loop of the rest operation. -/
structure RestState where
  data : UInt32
  mem : Mem
  rx : RxFifo

def RestState.turn (buf : ℕ) (s : RestState) (i : ℕ) : RestState :=
  let s := if i % 4 = 0 then { s with data := s.rx.ioread32.1, rx := s.rx.ioread32.2 } else s
  { s with mem := Function.update s.mem (buf + i) (byte32 s.data (i % 4)) }

/-- The reads of `len` bytes to `buf`. -/
def readPort (buf len : ℕ) (mem : Mem) (rx : RxFifo) : Mem × RxFifo :=
  let words := if 4 ≤ len ∧ buf % 4 = 0 then ioread32Rep (len / 4) buf mem rx else (mem, rx)
  let rest := if 4 ≤ len ∧ buf % 4 = 0 then len % 4 else len
  let buf := buf + (len - rest)
  let s := (List.range rest).foldl (RestState.turn buf) ⟨0, words.1, words.2⟩
  (s.mem, s.rx)

/-- A call of a pop handler: what it returns, and the memory and the FIFO after it. -/
structure Pop extends Outcome where
  ret : ℤ
  mem : Mem
  rx : RxFifo

section

variable (maxp : ℕ) (running : Bool) (mem : Mem) (buf : ℕ) (pkt : Pkt) (f : Fifo) (rx : RxFifo)

def usbhsfPioTryPop : Pop :=
  if !f.selected then
    ⟨⟨pkt, running, false⟩, 0, mem, rx⟩
  else if !f.ready then
    ⟨⟨pkt, running, false⟩, -EBUSY, mem, rx⟩
  else
    let totalLen := min (pkt.length - pkt.actual) f.rcvLen
    let actual := pkt.actual + totalLen
    let isDone : Bool := actual = pkt.length ∨ totalLen < maxp
    let running := if isDone then false else running
    if f.rcvLen = 0 then
      ⟨⟨{ pkt with actual := actual, zero := true }, running, isDone⟩, 0, mem, rx.clear⟩
    else
      let s := readPort (buf + pkt.actual) totalLen mem rx
      ⟨⟨{ pkt with actual := actual }, running, isDone⟩, 0, s.1, s.2⟩

end

/-- Calls of `usbhsf_pio_try_pop` for a request until one reports that it is done. -/
structure PopRun where
  pkt : Pkt
  running : Bool
  mem : Mem
  rx : RxFifo
  reports : ℕ

def PopRun.call (maxp buf : ℕ) (r : PopRun) (f : Fifo) : PopRun :=
  if r.reports ≠ 0 then r
  else
    let o := usbhsfPioTryPop maxp r.running r.mem buf r.pkt (r.rx.atPort f) r.rx
    ⟨o.pkt, o.running, o.mem, o.rx.settle, r.reports + o.isDone.toNat⟩

def popRun (maxp buf : ℕ) (r : PopRun) (fifo : ℕ → Fifo) : ℕ → PopRun
  | 0 => r
  | n + 1 => (popRun maxp buf r fifo n).call maxp buf (fifo n)

end RCar.UsbhsPio
