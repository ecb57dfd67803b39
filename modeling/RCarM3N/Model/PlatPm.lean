import RCarM3N.Model.Pwrc

/-! System off and the suspend requests of the normal world: `plat_pm.c` with the checks of `pwrc.c` and
the generic PSCI code around them. -/

namespace RCar.Bl31

/-! ## System off, on a board without the PMIC -/

def RCAR_CA53PSTR : ℕ := 0xE6151040
def RCAR_CA57PSTR : ℕ := 0xE6152040

/-- The CPUs of a cluster whose bit from `shift` on is clear. -/
def countPresent (reg : BitVec 32) (shift max : ℕ) : ℕ :=
  ((List.range max).filter fun i => reg &&& 1#32 <<< (shift + i) = 0).length

/-- `d3`: the chip is an R-Car D3, which has one CPU. -/
def rcarPwrcGetCpuNum (d3 : Bool) (c : Cluster) : Prog Pwrc ℕ := do
  if d3 then
    return 1
  let reg ← mmioRead32 RCAR_PRR
  let ca53 := if (c = .a53a57 ∨ c = .ca53) ∧ reg &&& 1#32 <<< (STATE_CA53_CPU + RCAR_CA53CPU_NUM_MAX) = 0 then
    countPresent reg STATE_CA53_CPU RCAR_CA53CPU_NUM_MAX else 0
  let ca57 := if (c = .a53a57 ∨ c = .ca57) ∧ reg &&& 1#32 <<< (STATE_CA57_CPU + RCAR_CA57CPU_NUM_MAX) = 0 then
    countPresent reg STATE_CA57_CPU RCAR_CA57CPU_NUM_MAX else 0
  return ca53 + ca57

/-- The inner loop of `rcar_pwrc_cpu_on_check`, over the CPUs `js` of a cluster. -/
def cpuOnCheckCluster (mine : Cluster) (myCpu : ℕ) (cluster : Cluster) (regPSTR : ℕ) :
    List ℕ → ℤ → Prog Pwrc ℤ
  | [], rtn => return rtn
  | j :: js, rtn => do
    if mine ≠ cluster ∨ myCpu ≠ j then
      let status := (← mmioRead32 regPSTR) >>> (j * 4)
      if status &&& 3#32 = 0 then
        cpuOnCheckCluster mine myCpu cluster regPSTR js (rtn - 1)
      else
        cpuOnCheckCluster mine myCpu cluster regPSTR js rtn
    else
      cpuOnCheckCluster mine myCpu cluster regPSTR js rtn

def rcarPwrcCpuOnCheck (d3 : Bool) (mpidr : ℕ) : Prog Pwrc ℤ := do
  let mine ← rcarPwrcGetCluster
  let myCpu := mpidr &&& MPIDR_CPU_MASK
  let n53 ← rcarPwrcGetCpuNum d3 .ca53
  let rtn ← cpuOnCheckCluster mine myCpu .ca53 RCAR_CA53PSTR (List.range n53) 0
  let n57 ← rcarPwrcGetCpuNum d3 .ca57
  cpuOnCheckCluster mine myCpu .ca57 RCAR_CA57PSTR (List.range n57) rtn

/-- `self` is what `read_mpidr_el1` returns. A run that returns has come to the WFI. -/
def rcarSystemOff (d3 : Bool) (rcarBootMpidr self : ℕ) : Prog Pwrc Unit := do
  let cpu := self &&& 0xffff
  let rtnOn ← rcarPwrcCpuOnCheck d3 cpu
  if cpu = rcarBootMpidr then
    Prog.stuck
  if rtnOn ≠ 0 then
    Prog.stuck
  rcarPwrcCpuoff self cpu
  rcarPwrcClusteroff cpu

/-! ## CPU_SUSPEND -/

def PLAT_MAX_PWR_LVL : ℕ := 2
def PLAT_MAX_RET_STATE : ℕ := 1
def PSCI_LOCAL_STATE_RUN : ℕ := 0
def PSCI_CPU_PWR_LVL : ℕ := 0
def PSCI_INVALID_PWR_LVL : ℕ := PLAT_MAX_PWR_LVL + 1

instance (priority := 2000) neZero_levels : NeZero (PLAT_MAX_PWR_LVL + 1) := ⟨by decide⟩
def PSTATE_VALID_MASK : BitVec 32 := 0xFCFE0000#32
def PSTATE_TYPE_SHIFT : ℕ := 16
def PSTATE_PWR_LVL_SHIFT : ℕ := 24
def PSTATE_ID_MASK : BitVec 32 := 0xffff#32
def PSTATE_PWR_LVL_MASK : BitVec 32 := 0x3#32
def PSTATE_TYPE_MASK : BitVec 32 := 0x1#32
def PSTATE_TYPE_STANDBY : BitVec 32 := 0#32
def PSCI_E_SUCCESS : ℤ := 0
def PSCI_E_INVALID_PARAMS : ℤ := -2
def PLATFORM_CORE_COUNT : ℕ := 8
def PLATFORM_MAX_CPUS_PER_CLUSTER : ℕ := 4

def psciGetPstateId (powerState : BitVec 32) : BitVec 32 := powerState &&& PSTATE_ID_MASK

def psciGetPstateType (powerState : BitVec 32) : BitVec 32 := powerState >>> PSTATE_TYPE_SHIFT &&& PSTATE_TYPE_MASK

def psciGetPstatePwrlvl (powerState : BitVec 32) : ℕ :=
  (powerState >>> PSTATE_PWR_LVL_SHIFT &&& PSTATE_PWR_LVL_MASK).toNat

def psciCheckPowerState (powerState : BitVec 32) : BitVec 32 := powerState &&& PSTATE_VALID_MASK

/-- A request, and the states that all CPUs have asked for at the levels above their own. -/
structure Psci where
  pwrDomainState : Fin (PLAT_MAX_PWR_LVL + 1) → ℕ
  psciReqLocalPwrStates : ℕ → ℕ → ℕ

/-- A write to an entry of `pwr_domain_state`, which faults past its end. -/
def setPwrDomainState (lvl val : ℕ) : Prog Psci Unit :=
  if h : lvl < PLAT_MAX_PWR_LVL + 1 then
    Prog.modify fun s => { s with pwrDomainState := Function.update s.pwrDomainState ⟨lvl, h⟩ val }
  else
    Prog.stuck

def getPwrDomainState (lvl : ℕ) : Prog Psci ℕ := do
  let s ← Prog.get
  if h : lvl < PLAT_MAX_PWR_LVL + 1 then
    return s.pwrDomainState ⟨lvl, h⟩
  else
    Prog.stuck

/-- A loop over levels. -/
def forLevels (body : ℕ → Prog Psci Unit) : List ℕ → Prog Psci Unit
  | [] => return ()
  | lvl :: lvls => do
    body lvl
    forLevels body lvls

def rcarValidatePowerState (powerState : BitVec 32) : Prog Psci ℤ := do
  let pwrLvl := psciGetPstatePwrlvl powerState
  if psciGetPstateType powerState = PSTATE_TYPE_STANDBY then
    if pwrLvl ≠ PSCI_CPU_PWR_LVL then
      return PSCI_E_INVALID_PARAMS
    setPwrDomainState PSCI_CPU_PWR_LVL PLAT_MAX_RET_STATE
  else
    forLevels (fun i => setPwrDomainState i PLAT_MAX_OFF_STATE) (List.range (pwrLvl + 1))
  if psciGetPstateId powerState ≠ 0 then
    return PSCI_E_INVALID_PARAMS
  return PSCI_E_SUCCESS

def psciValidatePowerState (powerState : BitVec 32) : Prog Psci ℤ := do
  if psciCheckPowerState powerState ≠ 0 then
    return PSCI_E_INVALID_PARAMS
  rcarValidatePowerState powerState

/-- The highest level that is not to run. -/
def psciFindTargetSuspendLvl (s : Psci) : ℕ :=
  if s.pwrDomainState 2 ≠ PSCI_LOCAL_STATE_RUN then 2
  else if s.pwrDomainState 1 ≠ PSCI_LOCAL_STATE_RUN then 1
  else if s.pwrDomainState 0 ≠ PSCI_LOCAL_STATE_RUN then 0
  else PSCI_INVALID_PWR_LVL

def psciSetReqLocalPwrState (lvl cpu val : ℕ) : Prog Psci Unit :=
  Prog.modify fun s => { s with
    psciReqLocalPwrStates := Function.update s.psciReqLocalPwrStates lvl
      (Function.update (s.psciReqLocalPwrStates lvl) cpu val) }

/-- The CPUs under the domain of `cpu` at a level: those of its cluster, or all. -/
def domainCpus (lvl cpu : ℕ) : List ℕ :=
  if lvl = 1 then List.range' (cpu / PLATFORM_MAX_CPUS_PER_CLUSTER * PLATFORM_MAX_CPUS_PER_CLUSTER)
    PLATFORM_MAX_CPUS_PER_CLUSTER
  else List.range PLATFORM_CORE_COUNT

def platGetTargetPwrState (states : List ℕ) : ℕ :=
  states.foldl (fun target temp => if temp < target then temp else target) PLAT_MAX_OFF_STATE

/-- The rest of the coordination, once a level stays up. -/
def keepUp (cpu lvl : ℕ) : Prog Psci Unit := do
  psciSetReqLocalPwrState lvl cpu (← getPwrDomainState lvl)
  setPwrDomainState lvl PSCI_LOCAL_STATE_RUN

def coordinate (cpu : ℕ) : List ℕ → Prog Psci Unit
  | [] => return ()
  | lvl :: lvls => do
    psciSetReqLocalPwrState lvl cpu (← getPwrDomainState lvl)
    let s ← Prog.get
    let target := platGetTargetPwrState ((domainCpus lvl cpu).map (s.psciReqLocalPwrStates lvl))
    setPwrDomainState lvl target
    if target = PSCI_LOCAL_STATE_RUN then
      forLevels (keepUp cpu) lvls
    else
      coordinate cpu lvls

def psciDoStateCoordination (cpu endPwrlvl : ℕ) : Prog Psci Unit :=
  coordinate cpu (List.range' (PSCI_CPU_PWR_LVL + 1) endPwrlvl)

/-- What the suspend hook turns off: with the power controller, or `rcar_pwrc_suspend_to_ram`. -/
inductive SuspendOp where
  | pwrc (op : PwrcOp)
  | suspendToRam
deriving DecidableEq

/-- `rcar_pwr_domain_suspend`, with its test of the system level under `RCAR_SYSTEM_SUSPEND`. -/
def pwrDomainSuspend (systemSuspend : Bool) (s : Psci) : List SuspendOp :=
  if s.pwrDomainState 0 ≠ PLAT_MAX_OFF_STATE then
    []
  else
    (rcarPwrDomainSuspend ⟨s.pwrDomainState 0, s.pwrDomainState 1⟩).map .pwrc ++
      if systemSuspend ∧ s.pwrDomainState 2 = PLAT_MAX_OFF_STATE then [.suspendToRam] else []

inductive SuspendResult where
  | error (rc : ℤ)
  | standby (state : ℕ)
  | abandoned
  | suspended (ops : List SuspendOp)

/-- The platform and the call: `entrypoint` is what `psci_validate_entry_point` returns, `pending` that an interrupt is. -/
structure SuspendCall where
  systemSuspend : Bool
  cpu : Fin PLATFORM_CORE_COUNT
  entrypoint : ℤ
  pending : Bool

def psciCpuSuspend (c : SuspendCall) (powerState : BitVec 32) : Prog Psci SuspendResult := do
  let rc ← psciValidatePowerState powerState
  if rc ≠ PSCI_E_SUCCESS then
    return .error rc
  let isPowerDownState := psciGetPstateType powerState
  let targetPwrlvl := psciFindTargetSuspendLvl (← Prog.get)
  if targetPwrlvl = PSCI_INVALID_PWR_LVL then
    Prog.stuck
  if isPowerDownState = 0 ∧ targetPwrlvl = 0 then
    return .standby (← getPwrDomainState PSCI_CPU_PWR_LVL)
  if isPowerDownState ≠ 0 ∧ c.entrypoint ≠ PSCI_E_SUCCESS then
    return .error c.entrypoint
  if c.pending then
    return .abandoned
  psciDoStateCoordination c.cpu targetPwrlvl
  return .suspended (pwrDomainSuspend c.systemSuspend (← Prog.get))

end RCar.Bl31
