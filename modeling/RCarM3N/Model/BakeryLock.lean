import RCarM3N.Lib.Sizes

/-! The bakery locks of BL31, which guard the power controller and the power domains:
`bakery_lock_coherent.c` and `bakery_lock.h`, one access of the shared words to a step. -/

namespace RCar.BakeryLock

/-! ## A lock word -/

def bakeryGetPriority (t pos : ℕ) : ℕ := t <<< 8 ||| pos

def CHOOSING_TICKET : ℕ := 1
def CHOSEN_TICKET : ℕ := 0

def bakeryIsChoosing (info : ℕ) : Bool := info &&& 1 == CHOOSING_TICKET

def bakeryTicketNumber (info : ℕ) : ℕ := info >>> 1 &&& 0x7FFF

def makeBakeryData (choosing num : ℕ) : ℕ := (choosing &&& 1 ||| num <<< 1) % 2 ^ 16

/-! ## The lock, with `n` CPUs -/

/-- What a CPU does next. `scan`: read the ticket of `they`, or past the last one write its own; `check`: the first
wait for `they`; `wait`: the second. -/
inductive Pc
  | idle
  | scan (they myTicket : ℕ)
  | check (they myTicket : ℕ)
  | wait (they myTicket theirTicket : ℕ)
  | held (myTicket : ℕ)
deriving DecidableEq

structure Lock (n : ℕ) where
  lockData : Fin n → ℕ
  pc : Fin n → Pc

variable {n : ℕ}

namespace Lock

/-- The lock as it lies in memory at reset. -/
def cleared : Lock n := ⟨fun _ => 0, fun _ => .idle⟩

def goto (s : Lock n) (me : Fin n) (pc : Pc) : Lock n := { s with pc := Function.update s.pc me pc }

def write (s : Lock n) (me : Fin n) (data : ℕ) (pc : Pc) : Lock n :=
  { lockData := Function.update s.lockData me data, pc := Function.update s.pc me pc }

/-- `bakery_get_ticket`, after its loop has read the words before `they`. -/
def scanStep (s : Lock n) (me : Fin n) (they myTicket : ℕ) : Lock n :=
  if h : they < n then
    let theirTicket := bakeryTicketNumber (s.lockData ⟨they, h⟩)
    s.goto me (.scan (they + 1) (if theirTicket > myTicket then theirTicket else myTicket))
  else
    s.write me (makeBakeryData CHOSEN_TICKET (myTicket + 1)) (.check 0 (myTicket + 1))

/-- The loop of `bakery_lock_get`. -/
def checkStep (s : Lock n) (me : Fin n) (they myTicket : ℕ) : Lock n :=
  if h : they < n then
    if me = ⟨they, h⟩ then
      s.goto me (.check (they + 1) myTicket)
    else
      let theirBakeryData := s.lockData ⟨they, h⟩
      if bakeryIsChoosing theirBakeryData then
        s
      else
        let theirTicket := bakeryTicketNumber theirBakeryData
        if theirTicket ≠ 0 ∧ bakeryGetPriority theirTicket they < bakeryGetPriority myTicket me then
          s.goto me (.wait they myTicket theirTicket)
        else
          s.goto me (.check (they + 1) myTicket)
  else
    s.goto me (.held myTicket)

def waitStep (s : Lock n) (me : Fin n) (they myTicket theirTicket : ℕ) : Lock n :=
  if h : they < n then
    if theirTicket = bakeryTicketNumber (s.lockData ⟨they, h⟩) then s
    else s.goto me (.check (they + 1) myTicket)
  else
    s

/-- The next step of a CPU. One that is idle calls `bakery_lock_get`, one that holds the lock `bakery_lock_release`. -/
def step (s : Lock n) (me : Fin n) : Lock n :=
  match s.pc me with
  | .idle => s.write me (makeBakeryData CHOOSING_TICKET 0) (.scan 0 0)
  | .scan they myTicket => s.scanStep me they myTicket
  | .check they myTicket => s.checkStep me they myTicket
  | .wait they myTicket theirTicket => s.waitStep me they myTicket theirTicket
  | .held _ => s.write me 0 .idle

/-- The steps of the CPUs in the order of a schedule. -/
def run (s : Lock n) (sched : List (Fin n)) : Lock n := sched.foldl step s

/-- What the warm boot of an R-Car CPU does to every lock of the power domains. -/
def clear (s : Lock n) : Lock n := { s with lockData := fun _ => 0 }

def Holds (s : Lock n) (me : Fin n) : Prop := ∃ t, s.pc me = .held t

/-- The step of `me` writes a ticket. -/
def takesTicket (s : Lock n) (me : Fin n) : Bool :=
  match s.pc me with
  | .scan they _ => n ≤ they
  | _ => false

/-- How many tickets are taken on a schedule. -/
def tickets (s : Lock n) : List (Fin n) → ℕ
  | [] => 0
  | me :: sched => (if s.takesTicket me then 1 else 0) + (s.step me).tickets sched

/-- The assertions at the heads of `bakery_get_ticket` and `bakery_lock_release`. -/
def AssertsHold (s : Lock n) (me : Fin n) : Prop :=
  (s.pc me = .idle → bakeryTicketNumber (s.lockData me) = 0) ∧
    (s.Holds me → bakeryTicketNumber (s.lockData me) ≠ 0)

end Lock

end RCar.BakeryLock
