import RCarM3N.Model.PlatPm

/-! The power domain tree of the generic PSCI code and what the calls do to it: `psci_setup.c`, `psci_common.c`,
`psci_on.c`, `psci_off.c` and `psci_suspend.c`. A call is atomic here, under the locks of its domains. -/

namespace RCar.Psci

open Bl31

/-! ## The tree -/

inductive AffInfo
  | on
  | off
  | onPending
deriving DecidableEq

/-- The fields of `psci_cpu_pd_nodes` and `psci_non_cpu_pd_nodes` that the setup writes once. -/
structure Nodes where
  coreCount : ℕ
  cpuParent : ℕ → ℕ
  parentNode : ℕ → ℕ
  level : ℕ → ℕ
  cpuStartIdx : ℕ → ℕ
  ncpus : ℕ → ℕ

/-- The data of the CPUs, the states of the other domains, and the states that CPUs have asked for by level. -/
structure State where
  affInfoState : ℕ → AffInfo
  targetPwrlvl : ℕ → ℕ
  cpuLocalState : ℕ → ℕ
  localState : ℕ → ℕ
  reqLocalPwrStates : ℕ → ℕ → ℕ

/-- The variables of `populate_power_domain_tree`. -/
structure Walk where
  nodes : Nodes
  state : State
  j : ℕ
  nodeIndex : ℕ
  parentNodeIndex : ℕ
  numNodesAtNextLvl : ℕ

def psciInitPwrDomainNode (parentIdx level : ℕ) (w : Nodes × State) (nodeIdx : ℕ) : Nodes × State :=
  if level > PSCI_CPU_PWR_LVL then
    ({ w.1 with
        level := Function.update w.1.level nodeIdx level
        parentNode := Function.update w.1.parentNode nodeIdx parentIdx },
      { w.2 with localState := Function.update w.2.localState nodeIdx PLAT_MAX_OFF_STATE })
  else
    ({ w.1 with cpuParent := Function.update w.1.cpuParent nodeIdx parentIdx },
      { w.2 with
        affInfoState := Function.update w.2.affInfoState nodeIdx .off
        targetPwrlvl := Function.update w.2.targetPwrlvl nodeIdx PSCI_INVALID_PWR_LVL
        cpuLocalState := Function.update w.2.cpuLocalState nodeIdx PLAT_MAX_OFF_STATE })

/-- One entry of the topology: its children get the next nodes. Those of the first entry have no parent. -/
def visitEntry (topology : ℕ → ℕ) (level : ℕ) (w : Walk) : Walk :=
  let numChildren := topology w.parentNodeIndex
  let parentIdx := (w.parentNodeIndex + 2 ^ 32 - 1) % 2 ^ 32
  let init := (List.range' w.nodeIndex numChildren).foldl
    (fun nodes j => psciInitPwrDomainNode parentIdx level nodes (j % 2 ^ 8)) (w.nodes, w.state)
  { nodes := init.1
    state := init.2
    j := w.nodeIndex + numChildren
    nodeIndex := w.nodeIndex + numChildren
    parentNodeIndex := w.parentNodeIndex + 1
    numNodesAtNextLvl := w.numNodesAtNextLvl + numChildren }

def visitLevel (topology : ℕ → ℕ) (level numNodesAtLvl : ℕ) (w : Walk) : Walk :=
  (visitEntry topology level)^[numNodesAtLvl] { w with numNodesAtNextLvl := 0 }

/-- The levels from the given one down to that of the CPUs, whose nodes are in an array of their own. -/
def visitLevels (topology : ℕ → ℕ) : ℕ → ℕ → Walk → Walk
  | 0, numNodesAtLvl, w => visitLevel topology 0 numNodesAtLvl w
  | level + 1, numNodesAtLvl, w =>
    let w := visitLevel topology (level + 1) numNodesAtLvl w
    visitLevels topology level w.numNodesAtNextLvl
      (if level = PSCI_CPU_PWR_LVL then { w with nodeIndex := 0 } else w)

def populatePowerDomainTree (topology : ℕ → ℕ) (w : Nodes × State) : Nodes × State :=
  let w := visitLevels topology PLAT_MAX_PWR_LVL 1
    { nodes := w.1, state := w.2, j := 0, nodeIndex := 0, parentNodeIndex := 0, numNodesAtNextLvl := 0 }
  ({ w.nodes with coreCount := w.j }, w.state)

/-- The domain of a CPU at a level, which is at least 1. -/
def Nodes.domain (d : Nodes) (cpu : ℕ) : ℕ → ℕ
  | 0 => cpu
  | 1 => d.cpuParent cpu
  | level + 2 => d.parentNode (d.domain cpu (level + 1))

/-- The loop of `psci_get_parent_pwr_domain_nodes`. -/
def parentsFrom (d : Nodes) (parentNode : ℕ) : ℕ → List ℕ
  | 0 => []
  | endLvl + 1 => parentNode :: parentsFrom d (d.parentNode parentNode) endLvl

def psciGetParentPwrDomainNodes (d : Nodes) (cpuIdx endLvl : ℕ) : List ℕ :=
  parentsFrom d (d.cpuParent cpuIdx) endLvl

/-- One level in the inner loop of `psci_update_pwrlvl_limits`, with `nodes_idx` beside the nodes. -/
def updateLimit (cpuIdx : ℕ) (tempIndex : List ℕ) (w : Nodes × (ℕ → ℕ)) (j : ℕ) : Nodes × (ℕ → ℕ) :=
  let temp := tempIndex.getD j 0
  let w := if temp ≠ w.2 j then
      ({ w.1 with cpuStartIdx := Function.update w.1.cpuStartIdx temp cpuIdx }, Function.update w.2 j temp)
    else w
  ({ w.1 with ncpus := Function.update w.1.ncpus (w.2 j) (w.1.ncpus (w.2 j) + 1) }, w.2)

def updateLimits (w : Nodes × (ℕ → ℕ)) (cpuIdx : ℕ) : Nodes × (ℕ → ℕ) :=
  (List.range PLAT_MAX_PWR_LVL).reverse.foldl
    (updateLimit cpuIdx (psciGetParentPwrDomainNodes w.1 cpuIdx PLAT_MAX_PWR_LVL)) w

def psciUpdatePwrlvlLimits (d : Nodes) : Nodes := ((List.range d.coreCount).foldl updateLimits (d, fun _ => 0)).1

/-! ## The states -/

def isLocalStateOff (state : ℕ) : Prop := PLAT_MAX_RET_STATE < state ∧ state ≤ PLAT_MAX_OFF_STATE

instance (state : ℕ) : Decidable (isLocalStateOff state) := inferInstanceAs (Decidable (_ ∧ _))

def psciSetReqLocalPwrState (d : Nodes) (s : State) (pwrlvl cpuIdx reqPwrState : ℕ) : State :=
  if pwrlvl > PSCI_CPU_PWR_LVL ∧ pwrlvl ≤ PLAT_MAX_PWR_LVL ∧ cpuIdx < d.coreCount then
    { s with
      reqLocalPwrStates := Function.update s.reqLocalPwrStates pwrlvl
        (Function.update (s.reqLocalPwrStates pwrlvl) cpuIdx reqPwrState) }
  else
    s

def psciInitReqLocalPwrStates (d : Nodes) (s : State) : State :=
  { s with
    reqLocalPwrStates := fun pwrlvl core =>
      if 0 < pwrlvl ∧ pwrlvl ≤ PLAT_MAX_PWR_LVL ∧ core < d.coreCount then PLAT_MAX_OFF_STATE
      else s.reqLocalPwrStates pwrlvl core }

/-- The loop of `psci_get_target_local_pwr_states`, over the levels from `lvl` on. -/
def getTargetFrom (d : Nodes) (s : State) : List ℕ → ℕ → (ℕ → ℕ) → ℕ → ℕ
  | [], _, pdState => pdState
  | lvl :: lvls, parentIdx, pdState =>
    getTargetFrom d s lvls (d.parentNode parentIdx) (Function.update pdState lvl (s.localState parentIdx))

def psciGetTargetLocalPwrStates (d : Nodes) (s : State) (cpuIdx endPwrlvl : ℕ) (pdState : ℕ → ℕ) : ℕ → ℕ :=
  let pdState := Function.update pdState PSCI_CPU_PWR_LVL (s.cpuLocalState cpuIdx)
  let pdState := getTargetFrom d s (List.range' 1 endPwrlvl) (d.cpuParent cpuIdx) pdState
  fun lvl => if endPwrlvl < lvl ∧ lvl ≤ PLAT_MAX_PWR_LVL then PSCI_LOCAL_STATE_RUN else pdState lvl

def setTargetFrom (d : Nodes) (pdState : ℕ → ℕ) : List ℕ → ℕ → State → State
  | [], _, s => s
  | lvl :: lvls, parentIdx, s =>
    setTargetFrom d pdState lvls (d.parentNode parentIdx)
      { s with localState := Function.update s.localState parentIdx (pdState lvl) }

def psciSetTargetLocalPwrStates (d : Nodes) (s : State) (cpuIdx endPwrlvl : ℕ) (pdState : ℕ → ℕ) : State :=
  setTargetFrom d pdState (List.range' 1 endPwrlvl) (d.cpuParent cpuIdx)
    { s with cpuLocalState := Function.update s.cpuLocalState cpuIdx (pdState PSCI_CPU_PWR_LVL) }

def setToRunFrom (d : Nodes) (cpuIdx : ℕ) : List ℕ → ℕ → State → State
  | [], _, s => s
  | lvl :: lvls, parentIdx, s =>
    setToRunFrom d cpuIdx lvls (d.parentNode parentIdx)
      (psciSetReqLocalPwrState d
        { s with localState := Function.update s.localState parentIdx PSCI_LOCAL_STATE_RUN }
        lvl cpuIdx PSCI_LOCAL_STATE_RUN)

def psciSetPwrDomainsToRun (d : Nodes) (s : State) (cpuIdx endPwrlvl : ℕ) : State :=
  let s := setToRunFrom d cpuIdx (List.range' 1 endPwrlvl) (d.cpuParent cpuIdx) s
  { s with
    affInfoState := Function.update s.affInfoState cpuIdx .on
    cpuLocalState := Function.update s.cpuLocalState cpuIdx PSCI_LOCAL_STATE_RUN }

/-- The second loop of the coordination, over the levels above one that stays up. -/
def keepRun (d : Nodes) (cpuIdx : ℕ) : List ℕ → (ℕ → ℕ) × State → (ℕ → ℕ) × State
  | [], w => w
  | lvl :: lvls, w =>
    keepRun d cpuIdx lvls (Function.update w.1 lvl PSCI_LOCAL_STATE_RUN,
      psciSetReqLocalPwrState d w.2 lvl cpuIdx (w.1 lvl))

/-- The requests that the platform is shown at a level: those of the CPUs under a domain. -/
def requests (d : Nodes) (s : State) (lvl parentIdx : ℕ) : List ℕ :=
  (List.range' (d.cpuStartIdx parentIdx) (d.ncpus parentIdx)).map (s.reqLocalPwrStates lvl)

def coordinate (d : Nodes) (cpuIdx : ℕ) : List ℕ → ℕ → (ℕ → ℕ) × State → (ℕ → ℕ) × State
  | [], _, w => w
  | lvl :: lvls, parentIdx, w =>
    let s := psciSetReqLocalPwrState d w.2 lvl cpuIdx (w.1 lvl)
    let targetState := platGetTargetPwrState (requests d s lvl parentIdx)
    let w := (Function.update w.1 lvl targetState, s)
    if targetState = PSCI_LOCAL_STATE_RUN then keepRun d cpuIdx lvls w
    else coordinate d cpuIdx lvls (d.parentNode parentIdx) w

def psciDoStateCoordination (d : Nodes) (s : State) (cpuIdx endPwrlvl : ℕ) (stateInfo : ℕ → ℕ) : (ℕ → ℕ) × State :=
  let w := coordinate d cpuIdx (List.range' 1 endPwrlvl) (d.cpuParent cpuIdx) (stateInfo, s)
  (w.1, psciSetTargetLocalPwrStates d w.2 cpuIdx endPwrlvl w.1)

/-! ## The calls -/

def PSCI_E_ALREADY_ON : ℤ := -4
def PSCI_E_ON_PENDING : ℤ := -5

/-- `rcar_pwr_domain_on` always succeeds. -/
def psciCpuOnStart (s : State) (targetIdx : ℕ) : ℤ × State :=
  match s.affInfoState targetIdx with
  | .on => (PSCI_E_ALREADY_ON, s)
  | .onPending => (PSCI_E_ON_PENDING, s)
  | .off => (PSCI_E_SUCCESS, { s with affInfoState := Function.update s.affInfoState targetIdx .onPending })

/-- `psci_do_cpu_off` up to the release of the locks, with what the platform is told. -/
def psciDoCpuOff (d : Nodes) (s : State) (cpuIdx : ℕ) : (ℕ → ℕ) × State :=
  psciDoStateCoordination d s cpuIdx PLAT_MAX_PWR_LVL fun _ => PLAT_MAX_OFF_STATE

/-- `psci_cpu_suspend_start` with no interrupt pending, with what the platform is told. -/
def psciCpuSuspendStart (d : Nodes) (s : State) (cpuIdx endPwrlvl : ℕ) (stateInfo : ℕ → ℕ) (isPowerDownState : Bool) :
    (ℕ → ℕ) × State :=
  let w := psciDoStateCoordination d s cpuIdx endPwrlvl stateInfo
  if isPowerDownState then
    (w.1, { w.2 with targetPwrlvl := Function.update w.2.targetPwrlvl cpuIdx endPwrlvl })
  else
    w

/-- A wake from retention, with what the platform is told. -/
def psciSuspendToStandbyFinisher (d : Nodes) (s : State) (cpuIdx endPwrlvl : ℕ) : (ℕ → ℕ) × State :=
  (psciGetTargetLocalPwrStates d s cpuIdx endPwrlvl fun _ => 0, psciSetPwrDomainsToRun d s cpuIdx endPwrlvl)

def getPowerOnTargetPwrlvl (s : State) (cpuIdx : ℕ) : ℕ :=
  if s.targetPwrlvl cpuIdx = PSCI_INVALID_PWR_LVL then PLAT_MAX_PWR_LVL else s.targetPwrlvl cpuIdx

/-- A boot from reset, with its level and what the platform is told. It panics where no call has put the CPU on its way,
and asserts that a CPU which was not turned on was suspended to an off state. -/
def psciWarmbootEntrypoint (d : Nodes) (s : State) (cpuIdx : ℕ) : Option (ℕ × (ℕ → ℕ) × State) :=
  if s.affInfoState cpuIdx = .off then
    none
  else
    let endPwrlvl := getPowerOnTargetPwrlvl s cpuIdx
    let stateInfo := psciGetTargetLocalPwrStates d s cpuIdx endPwrlvl fun _ => 0
    if s.affInfoState cpuIdx = .onPending then
      some (endPwrlvl, stateInfo, psciSetPwrDomainsToRun d s cpuIdx endPwrlvl)
    else if s.affInfoState cpuIdx = .on ∧ isLocalStateOff (stateInfo PSCI_CPU_PWR_LVL) then
      let s := { s with targetPwrlvl := Function.update s.targetPwrlvl cpuIdx PSCI_INVALID_PWR_LVL }
      some (endPwrlvl, stateInfo, psciSetPwrDomainsToRun d s cpuIdx endPwrlvl)
    else
      none

/-- The memory at reset. -/
def bss : Nodes × State :=
  (⟨0, fun _ => 0, fun _ => 0, fun _ => 0, fun _ => 0, fun _ => 0⟩,
    ⟨fun _ => .on, fun _ => 0, fun _ => 0, fun _ => 0, fun _ _ => 0⟩)

/-- `psci_setup` on the boot CPU, up to the capabilities. -/
def psciSetup (topology : ℕ → ℕ) (me : ℕ) : Nodes × State :=
  let w := populatePowerDomainTree topology bss
  let d := psciUpdatePwrlvlLimits w.1
  (d, psciSetPwrDomainsToRun d (psciInitReqLocalPwrStates d w.2) me PLAT_MAX_PWR_LVL)

/-! ## The CPUs and their power -/

/-- What a CPU is at. `leaving` is between the power controller's write and that of its `AFF_STATE_OFF`. -/
inductive Power
  | running
  | leaving
  | off
  | suspended (endPwrlvl : ℕ) (isPowerDownState : Bool)
  | booting
deriving DecidableEq

/-- `told` is the state that the platform was last told for a domain. -/
structure System where
  psci : State
  power : ℕ → Power
  told : ℕ → ℕ

/-- A call of the platform with the states that it is told, a CPU that is turned on, the end of a CPU, a refused call,
or a panic. -/
inductive Event
  | down (cpuIdx endPwrlvl : ℕ) (stateInfo : ℕ → ℕ)
  | up (cpuIdx endPwrlvl : ℕ) (stateInfo : ℕ → ℕ)
  | on (cpuIdx : ℕ)
  | ended (cpuIdx : ℕ)
  | refused
  | panic

/-- The platform puts the domains of a CPU up to a level into the states that it is told. -/
def tell (d : Nodes) (told : ℕ → ℕ) (cpuIdx endPwrlvl : ℕ) (stateInfo : ℕ → ℕ) : ℕ → ℕ :=
  (List.range' 1 endPwrlvl).foldl (fun told lvl => Function.update told (d.domain cpuIdx lvl) (stateInfo lvl)) told

/-- What `psci_cpu_suspend` passes on: the highest level that is not to run, and to power down an off state of the CPU. -/
structure SuspendRequest (endPwrlvl : ℕ) (stateInfo : ℕ → ℕ) (isPowerDownState : Bool) : Prop where
  le : endPwrlvl ≤ PLAT_MAX_PWR_LVL
  above : ∀ lvl, endPwrlvl < lvl → lvl ≤ PLAT_MAX_PWR_LVL → stateInfo lvl = PSCI_LOCAL_STATE_RUN
  down : isPowerDownState = true → isLocalStateOff (stateInfo PSCI_CPU_PWR_LVL)

inductive Step (d : Nodes) : System → Event → System → Prop
  | cpuOn {s : System} {caller target : ℕ} (hc : s.power caller = .running) (ht : target < d.coreCount)
      (h : (psciCpuOnStart s.psci target).1 = PSCI_E_SUCCESS) :
      Step d s (.on target)
        { s with psci := (psciCpuOnStart s.psci target).2, power := Function.update s.power target .booting }
  | cpuOnRefused {s : System} {caller target : ℕ} (hc : s.power caller = .running) (ht : target < d.coreCount)
      (h : (psciCpuOnStart s.psci target).1 ≠ PSCI_E_SUCCESS) :
      Step d s .refused { s with psci := (psciCpuOnStart s.psci target).2 }
  | cpuOff {s : System} {cpu : ℕ} {w : (ℕ → ℕ) × State} (hc : cpu < d.coreCount) (hp : s.power cpu = .running)
      (hw : w = psciDoCpuOff d s.psci cpu) :
      Step d s (.down cpu PLAT_MAX_PWR_LVL w.1)
        ⟨w.2, Function.update s.power cpu .leaving, tell d s.told cpu PLAT_MAX_PWR_LVL w.1⟩
  | affOff {s : System} {cpu : ℕ} (hc : cpu < d.coreCount) (hp : s.power cpu = .leaving) :
      Step d s (.ended cpu)
        { s with
          psci := { s.psci with affInfoState := Function.update s.psci.affInfoState cpu .off }
          power := Function.update s.power cpu .off }
  | suspend {s : System} {cpu endPwrlvl : ℕ} {stateInfo : ℕ → ℕ} {isPowerDownState : Bool} {w : (ℕ → ℕ) × State}
      (hc : cpu < d.coreCount) (hp : s.power cpu = .running) (hr : SuspendRequest endPwrlvl stateInfo isPowerDownState)
      (hw : w = psciCpuSuspendStart d s.psci cpu endPwrlvl stateInfo isPowerDownState) :
      Step d s (.down cpu endPwrlvl w.1)
        ⟨w.2, Function.update s.power cpu (.suspended endPwrlvl isPowerDownState), tell d s.told cpu endPwrlvl w.1⟩
  | standbyWake {s : System} {cpu endPwrlvl : ℕ} {w : (ℕ → ℕ) × State} (hc : cpu < d.coreCount)
      (hp : s.power cpu = .suspended endPwrlvl false) (hw : w = psciSuspendToStandbyFinisher d s.psci cpu endPwrlvl) :
      Step d s (.up cpu endPwrlvl w.1)
        ⟨w.2, Function.update s.power cpu .running, tell d s.told cpu endPwrlvl fun _ => PSCI_LOCAL_STATE_RUN⟩
  | warmboot {s : System} {cpu endPwrlvl : ℕ} {stateInfo : ℕ → ℕ} {p : State} (hc : cpu < d.coreCount)
      (hp : s.power cpu = .booting ∨ ∃ lvl, s.power cpu = .suspended lvl true)
      (hw : psciWarmbootEntrypoint d s.psci cpu = some (endPwrlvl, stateInfo, p)) :
      Step d s (.up cpu endPwrlvl stateInfo)
        ⟨p, Function.update s.power cpu .running, tell d s.told cpu endPwrlvl fun _ => PSCI_LOCAL_STATE_RUN⟩
  | warmbootPanic {s : System} {cpu : ℕ} (hc : cpu < d.coreCount)
      (hp : s.power cpu = .booting ∨ ∃ lvl, s.power cpu = .suspended lvl true)
      (hw : psciWarmbootEntrypoint d s.psci cpu = none) : Step d s .panic s

end RCar.Psci
