import RCarM3N.Lib.Prog

/-! The power controller of BL31, `pwrc.c`, and the handlers of `plat_pm.c` that turn CPUs off and
suspend and resume them. A handler is the list of the power controller operations that it makes,
since each of them is atomic under the lock; its calls into the GIC, the interconnect, the
mailbox and the system suspend write none of the registers here and are left out. -/

namespace RCar.Bl31

/-- The registers, by address. -/
structure Pwrc where
  reg : ℕ → BitVec 32

def RCAR_PRR : ℕ := 0xFFF00044
def RCAR_WUPMSKCA57 : ℕ := 0xE6180014
def RCAR_WUPMSKCA53 : ℕ := 0xE6180018
def RCAR_CA53CPU0CR : ℕ := 0xE6151100
def RCAR_CA57CPU0CR : ℕ := 0xE6152100
def RCAR_CA53CPUCMCR : ℕ := 0xE6151184
def RCAR_CA57CPUCMCR : ℕ := 0xE6152184
def CPG_CPGWPR : ℕ := 0xE6150900

def MPIDR_CPU_MASK : ℕ := 0xFF
def MPIDR_CLUSTER_MASK : ℕ := 0xFF00
def WUP_IRQ_SHIFT : ℕ := 0
def WUP_FIQ_SHIFT : ℕ := 8
def STATE_CA57_CPU : ℕ := 27
def STATE_CA53_CPU : ℕ := 22
def RCAR_CA53CPU_NUM_MAX : ℕ := 4
def RCAR_CA57CPU_NUM_MAX : ℕ := 4
def CPU_PWR_OFF : BitVec 32 := 0x00000003#32
def MODE_L2_DOWN : BitVec 32 := 0x00000002#32
def PRR_PRODUCT_MASK : BitVec 32 := 0x00007F00#32
def PRR_CUT_MASK : BitVec 32 := 0x000000FF#32
def PRR_PRODUCT_H3 : BitVec 32 := 0x00004F00#32
def PRR_PRODUCT_M3 : BitVec 32 := 0x00005200#32
def PRR_PRODUCT_20 : BitVec 32 := 0x10#32
def PRR_PRODUCT_30 : BitVec 32 := 0x20#32

def mmioRead32 (addr : ℕ) : Prog Pwrc (BitVec 32) := do
  return (← Prog.get).reg addr

def mmioWrite32 (addr : ℕ) (value : BitVec 32) : Prog Pwrc Unit :=
  Prog.modify fun s => { s with reg := Function.update s.reg addr value }

/-- `RCAR_CLUSTER_CA53`, `RCAR_CLUSTER_CA57` and `RCAR_CLUSTER_A53A57`. -/
inductive Cluster where
  | ca53
  | ca57
  | a53a57
deriving DecidableEq

def rcarPwrcGetCluster : Prog Pwrc Cluster := do
  let reg ← mmioRead32 RCAR_PRR
  if reg &&& 1#32 <<< (STATE_CA53_CPU + RCAR_CA53CPU_NUM_MAX) ≠ 0 then
    return .ca57
  if reg &&& 1#32 <<< (STATE_CA57_CPU + RCAR_CA57CPU_NUM_MAX) ≠ 0 then
    return .ca53
  return .a53a57

def rcarPwrcGetMpidrCluster (mpidr : ℕ) : Prog Pwrc Cluster := do
  let c ← rcarPwrcGetCluster
  if c = .a53a57 then
    if mpidr &&& MPIDR_CLUSTER_MASK ≠ 0 then
      return .ca53
    return .ca57
  return c

/-- `self` is what `read_mpidr_el1` returns. -/
def rcarPwrcCpuoff (self mpidr : ℕ) : Prog Pwrc Unit := do
  let cpu := mpidr &&& MPIDR_CPU_MASK
  let c ← rcarPwrcGetMpidrCluster mpidr
  let reg := if c = .ca53 then RCAR_CA53CPU0CR else RCAR_CA57CPU0CR
  if self ≠ mpidr then
    Prog.stuck
  mmioWrite32 CPG_CPGWPR (~~~CPU_PWR_OFF)
  mmioWrite32 (reg + cpu * 0x0010) CPU_PWR_OFF

def rcarPwrcEnableInterruptWakeup (mpidr : ℕ) : Prog Pwrc Unit := do
  let cpu := mpidr &&& MPIDR_CPU_MASK
  let c ← rcarPwrcGetMpidrCluster mpidr
  let reg := if c = .ca53 then RCAR_WUPMSKCA53 else RCAR_WUPMSKCA57
  mmioWrite32 reg (~~~(1#32 <<< (WUP_IRQ_SHIFT + cpu)) &&& ~~~(1#32 <<< (WUP_FIQ_SHIFT + cpu)))

def rcarPwrcDisableInterruptWakeup (mpidr : ℕ) : Prog Pwrc Unit := do
  let cpu := mpidr &&& MPIDR_CPU_MASK
  let c ← rcarPwrcGetMpidrCluster mpidr
  let reg := if c = .ca53 then RCAR_WUPMSKCA53 else RCAR_WUPMSKCA57
  mmioWrite32 reg (1#32 <<< (WUP_IRQ_SHIFT + cpu) ||| 1#32 <<< (WUP_FIQ_SHIFT + cpu))

def rcarPwrcClusteroff (mpidr : ℕ) : Prog Pwrc Unit := do
  let reg ← mmioRead32 RCAR_PRR
  let product := reg &&& PRR_PRODUCT_MASK
  let cut := reg &&& PRR_CUT_MASK
  let c ← rcarPwrcGetMpidrCluster mpidr
  let dst := if c = .ca53 then RCAR_CA53CPUCMCR else RCAR_CA57CPUCMCR
  if PRR_PRODUCT_M3 = product ∧ cut < PRR_PRODUCT_30 then
    return ()
  if PRR_PRODUCT_H3 = product ∧ cut ≤ PRR_PRODUCT_20 then
    return ()
  mmioWrite32 dst MODE_L2_DOWN

/-! ## The handlers -/

inductive PwrcOp where
  | cpuoff
  | clusteroff
  | enableInterruptWakeup
  | disableInterruptWakeup
deriving DecidableEq

/-- A CPU makes every operation for itself. -/
def PwrcOp.prog (mpidr : ℕ) : PwrcOp → Prog Pwrc Unit
  | .cpuoff => rcarPwrcCpuoff mpidr mpidr
  | .clusteroff => rcarPwrcClusteroff mpidr
  | .enableInterruptWakeup => rcarPwrcEnableInterruptWakeup mpidr
  | .disableInterruptWakeup => rcarPwrcDisableInterruptWakeup mpidr

def PLAT_MAX_OFF_STATE : ℕ := 2

/-- `psci_power_state_t`, of a core and of its cluster. -/
structure PsciPowerState where
  core : ℕ
  cluster : ℕ

def rcarPwrDomainOnFinish (_ : PsciPowerState) : List PwrcOp := [.disableInterruptWakeup]

/-- `d3`: the chip is an R-Car D3, where the cluster stays on. -/
def rcarPwrDomainOff (d3 : Bool) (targetState : PsciPowerState) : List PwrcOp :=
  .cpuoff :: if !d3 ∧ targetState.cluster = PLAT_MAX_OFF_STATE then [.clusteroff] else []

def rcarPwrDomainSuspend (targetState : PsciPowerState) : List PwrcOp :=
  if targetState.core ≠ PLAT_MAX_OFF_STATE then
    []
  else
    .enableInterruptWakeup :: .cpuoff ::
      if targetState.cluster = PLAT_MAX_OFF_STATE then [.clusteroff] else []

def rcarPwrDomainSuspendFinish (targetState : PsciPowerState) : List PwrcOp :=
  rcarPwrDomainOnFinish targetState

/-! ## All CPUs -/

/-- A CPU by its cluster and its number there, of which the platform has two and four. -/
structure Cpu where
  cluster : Fin 2
  core : Fin 4
deriving DecidableEq

/-- `MPIDR_EL1`, whose bit 31 is always set. -/
def Cpu.mpidr (c : Cpu) : ℕ := 0x80000000 + 0x100 * c.cluster + c.core

inductive Power where
  | running
  | suspended
  | off
deriving DecidableEq

structure System where
  pwrc : Pwrc
  power : Cpu → Power
  /-- what is left of the handler that a CPU is in -/
  todo : Cpu → List PwrcOp
  /-- history: the last wake-up operation of a CPU was the one that enables it -/
  armed : Cpu → Bool

/-- A CPU enters a handler, or makes the next operation of the one that it is in. -/
inductive PowerEvent where
  | suspend (targetState : PsciPowerState)
  | off (targetState : PsciPowerState)
  | suspendFinish (targetState : PsciPowerState)
  | onFinish (targetState : PsciPowerState)
  | op (op : PwrcOp)

def System.enter (s : System) (c : Cpu) (p : Power) (l : List PwrcOp) : System :=
  { s with power := Function.update s.power c p, todo := Function.update s.todo c l }

def PwrcOp.arm (armed : Bool) : PwrcOp → Bool
  | .enableInterruptWakeup => true
  | .disableInterruptWakeup => false
  | _ => armed

/-- One step of one of the CPUs in `cpus`. -/
inductive PowerStep (d3 : Bool) (cpus : Set Cpu) : System → Cpu × PowerEvent → System → Prop
  | suspend {s : System} {c : Cpu} (st : PsciPowerState) (hc : c ∈ cpus) (h : s.todo c = [])
      (hp : s.power c = .running) : PowerStep d3 cpus s (c, .suspend st)
        (s.enter c .suspended (rcarPwrDomainSuspend st))
  | off {s : System} {c : Cpu} (st : PsciPowerState) (hc : c ∈ cpus) (h : s.todo c = [])
      (hp : s.power c = .running) : PowerStep d3 cpus s (c, .off st)
        (s.enter c .off (rcarPwrDomainOff d3 st))
  | suspendFinish {s : System} {c : Cpu} (st : PsciPowerState) (hc : c ∈ cpus) (h : s.todo c = [])
      (hp : s.power c = .suspended) : PowerStep d3 cpus s (c, .suspendFinish st)
        (s.enter c .running (rcarPwrDomainSuspendFinish st))
  | onFinish {s : System} {c : Cpu} (st : PsciPowerState) (hc : c ∈ cpus) (h : s.todo c = [])
      (hp : s.power c = .off) : PowerStep d3 cpus s (c, .onFinish st)
        (s.enter c .running (rcarPwrDomainOnFinish st))
  | op {s : System} {c : Cpu} {op : PwrcOp} {l : List PwrcOp} {p : Pwrc} (hc : c ∈ cpus)
      (h : s.todo c = op :: l) (hrun : (op.prog c.mpidr).run s.pwrc = (some (), p)) :
      PowerStep d3 cpus s (c, .op op) { s with
        pwrc := p
        todo := Function.update s.todo c l
        armed := Function.update s.armed c (op.arm (s.armed c)) }

end RCar.Bl31
