import RCarM3N.Lib.Runs
import RCarM3N.Proofs.CpuSuspend
import RCarM3N.Proofs.PsciTree

/-! The states of the power domains over whole runs: no domain is put into a low power state under a running CPU, a boot
never panics, and the platform is told the state that it left a domain in. -/

namespace RCar.Psci

open Bl31

variable {d : Nodes} {cpu endPwrlvl : ℕ}

/-! ## Along the path of a CPU -/

theorem domain_succ (d : Nodes) (cpu lvl : ℕ) : d.domain cpu (lvl + 2) = d.parentNode (d.domain cpu (lvl + 1)) := rfl

/-- The domains of a CPU at the levels of a list get new values. -/
def assign (d : Nodes) (cpu : ℕ) (v : ℕ → ℕ) (lvls : List ℕ) (f : ℕ → ℕ) : ℕ → ℕ :=
  lvls.foldl (fun f lvl => Function.update f (d.domain cpu lvl) (v lvl)) f

theorem assign_out {v : ℕ → ℕ} {lvls : List ℕ} {x : ℕ} (hx : ∀ lvl ∈ lvls, x ≠ d.domain cpu lvl) (f : ℕ → ℕ) :
    assign d cpu v lvls f x = f x := by
  induction lvls generalizing f with
  | nil => rfl
  | cons lvl lvls ih =>
    refine (ih (fun l hl => hx l (List.mem_cons_of_mem _ hl)) _).trans ?_
    exact Function.update_of_ne (hx lvl List.mem_cons_self) _ _

theorem assign_at (h : PowerTree d) (hc : cpu < d.coreCount) {v : ℕ → ℕ} {lvls : List ℕ}
    (hlvls : ∀ lvl ∈ lvls, 0 < lvl ∧ lvl ≤ PLAT_MAX_PWR_LVL) {lvl : ℕ} (hmem : lvl ∈ lvls) (f : ℕ → ℕ) :
    assign d cpu v lvls f (d.domain cpu lvl) = v lvl := by
  induction lvls generalizing f with
  | nil => exact absurd hmem List.not_mem_nil
  | cons first lvls ih =>
    have hrest : ∀ l ∈ lvls, 0 < l ∧ l ≤ PLAT_MAX_PWR_LVL := fun l hl => hlvls l (List.mem_cons_of_mem _ hl)
    by_cases hlater : lvl ∈ lvls
    · exact ih hrest hlater _
    · obtain rfl : lvl = first := (List.mem_cons.mp hmem).resolve_right hlater
      change assign d cpu v lvls (Function.update f (d.domain cpu lvl) (v lvl)) _ = _
      rw [assign_out, Function.update_self]
      intro l hl heq
      have hthis := hlvls lvl List.mem_cons_self
      have := h.level cpu hc cpu hc lvl l hthis.1 hthis.2 (hrest l hl).1 (hrest l hl).2 heq
      exact hlater (this ▸ hl)

/-- The levels of a call. -/
theorem mem_levels {lvl : ℕ} : lvl ∈ List.range' 1 endPwrlvl ↔ 0 < lvl ∧ lvl ≤ endPwrlvl := by
  rw [List.mem_range'_1]
  omega

theorem setTargetFrom_eq (d : Nodes) (cpu : ℕ) (pdState : ℕ → ℕ) (first k : ℕ) (s : State) :
    setTargetFrom d pdState (List.range' (first + 1) k) (d.domain cpu (first + 1)) s =
      { s with localState := assign d cpu pdState (List.range' (first + 1) k) s.localState } := by
  induction k generalizing first s with
  | zero => rfl
  | succ k ih =>
    rw [List.range'_succ]
    exact ih (first + 1) _

theorem getTargetFrom_eq (d : Nodes) (cpu : ℕ) (s : State) (first k : ℕ) (pdState : ℕ → ℕ) (lvl : ℕ) :
    getTargetFrom d s (List.range' (first + 1) k) (d.domain cpu (first + 1)) pdState lvl =
      if first + 1 ≤ lvl ∧ lvl < first + 1 + k then s.localState (d.domain cpu lvl) else pdState lvl := by
  induction k generalizing first pdState with
  | zero => rw [if_neg (by omega)]; rfl
  | succ k ih =>
    rw [List.range'_succ]
    refine (ih (first + 1) _).trans ?_
    by_cases hlvl : lvl = first + 1
    · rw [hlvl, if_neg (by omega), if_pos (by omega), Function.update_self]
    · rw [Function.update_of_ne hlvl]
      exact if_congr (by omega) rfl rfl

/-- What is asked for by one CPU from a level on. -/
def ask (d : Nodes) (cpu first k : ℕ) (v : ℕ → ℕ) (req : ℕ → ℕ → ℕ) : ℕ → ℕ → ℕ := fun lvl c =>
  if c = cpu ∧ first ≤ lvl ∧ lvl < first + k ∧ 0 < lvl ∧ lvl ≤ PLAT_MAX_PWR_LVL ∧ cpu < d.coreCount then v lvl else req lvl c

theorem setReq_eq (s : State) (lvl v : ℕ) : psciSetReqLocalPwrState d s lvl cpu v =
    { s with reqLocalPwrStates := ask d cpu lvl 1 (fun _ => v) s.reqLocalPwrStates } := by
  unfold psciSetReqLocalPwrState
  split
  · rename_i h
    congr 1
    funext l c
    unfold ask
    by_cases hl : l = lvl
    · subst hl
      rw [Function.update_self]
      by_cases hcpu : c = cpu
      · rw [hcpu, Function.update_self, if_pos ⟨rfl, le_rfl, Nat.lt_succ_self l, h.1, h.2⟩]
      · rw [Function.update_of_ne hcpu, if_neg fun hh => hcpu hh.1]
    · rw [Function.update_of_ne hl, if_neg (by omega)]
  · rename_i h
    have hsame : ask d cpu lvl 1 (fun _ => v) s.reqLocalPwrStates = s.reqLocalPwrStates := by
      funext l c
      unfold ask
      rw [if_neg]
      rintro ⟨-, h1, h2, h3, h4, h5⟩
      obtain rfl : l = lvl := by omega
      exact h ⟨h3, h4, h5⟩
    rw [hsame]

theorem ask_succ (first k : ℕ) (v v' : ℕ → ℕ) (req : ℕ → ℕ → ℕ) (hv : ∀ lvl, first < lvl → v' lvl = v lvl) :
    ask d cpu (first + 1) k v' (ask d cpu first 1 (fun _ => v first) req) = ask d cpu first (k + 1) v req := by
  funext lvl c
  unfold ask
  by_cases hlvl : lvl = first
  · subst hlvl
    rw [if_neg (by omega)]
    exact if_congr (by omega) rfl rfl
  · by_cases hafter : first < lvl
    · rw [hv lvl hafter, if_neg (c := c = cpu ∧ first ≤ lvl ∧ lvl < first + 1 ∧ _) (by omega)]
      exact if_congr (by omega) rfl rfl
    · rw [if_neg (by omega), if_neg (by omega), if_neg (by omega)]

theorem setToRunFrom_eq (d : Nodes) (cpu first k : ℕ) (s : State) :
    setToRunFrom d cpu (List.range' (first + 1) k) (d.domain cpu (first + 1)) s =
      { s with
        localState := assign d cpu (fun _ => PSCI_LOCAL_STATE_RUN) (List.range' (first + 1) k) s.localState
        reqLocalPwrStates := ask d cpu (first + 1) k (fun _ => PSCI_LOCAL_STATE_RUN) s.reqLocalPwrStates } := by
  induction k generalizing first s with
  | zero =>
    have hsame : ask d cpu (first + 1) 0 (fun _ => PSCI_LOCAL_STATE_RUN) s.reqLocalPwrStates = s.reqLocalPwrStates := by
      funext lvl c
      unfold ask
      rw [if_neg (by omega)]
    rw [hsame]
    rfl
  | succ k ih =>
    rw [List.range'_succ, setToRunFrom, setReq_eq]
    refine (ih (first + 1) _).trans ?_
    simp only [ask_succ (first + 1) k (fun _ => PSCI_LOCAL_STATE_RUN) (fun _ => PSCI_LOCAL_STATE_RUN) _ fun _ _ => rfl]
    rfl

theorem keepRun_eq (d : Nodes) (cpu first k : ℕ) (info : ℕ → ℕ) (s : State) :
    keepRun d cpu (List.range' first k) (info, s) =
      (fun lvl => if first ≤ lvl ∧ lvl < first + k then PSCI_LOCAL_STATE_RUN else info lvl,
        { s with reqLocalPwrStates := ask d cpu first k info s.reqLocalPwrStates }) := by
  induction k generalizing first info s with
  | zero =>
    have hsame : ask d cpu first 0 info s.reqLocalPwrStates = s.reqLocalPwrStates := by
      funext lvl c
      unfold ask
      rw [if_neg (by omega)]
    have hinfo : (fun lvl => if first ≤ lvl ∧ lvl < first + 0 then PSCI_LOCAL_STATE_RUN else info lvl) = info := by
      funext lvl
      rw [if_neg (by omega)]
    rw [hsame, hinfo]
    rfl
  | succ k ih =>
    rw [List.range'_succ, keepRun, setReq_eq]
    refine (ih (first + 1) _ _).trans ?_
    rw [ask_succ first k info _ _ fun lvl hlvl => Function.update_of_ne (by omega) _ _]
    congr 1
    funext lvl
    by_cases hlvl : lvl = first
    · rw [hlvl, if_neg (by omega), if_pos (by omega), Function.update_self]
    · rw [Function.update_of_ne hlvl]
      exact if_congr (by omega) rfl rfl

/-- What the coordination makes of the levels from `first` on. -/
structure Settled (d : Nodes) (cpu first k : ℕ) (info : ℕ → ℕ) (s : State) (w : (ℕ → ℕ) × State) : Prop where
  state : w.2 = { s with reqLocalPwrStates := ask d cpu first k info s.reqLocalPwrStates }
  other : ∀ lvl, ¬ (first ≤ lvl ∧ lvl < first + k) → w.1 lvl = info lvl
  target : ∀ lvl, first ≤ lvl → lvl < first + k → ∀ x ∈ requests d w.2 lvl (d.domain cpu lvl), w.1 lvl ≤ x

theorem coordinate_settled (d : Nodes) (cpu first k : ℕ) (info : ℕ → ℕ) (s : State) :
    Settled d cpu (first + 1) k info s
      (coordinate d cpu (List.range' (first + 1) k) (d.domain cpu (first + 1)) (info, s)) := by
  induction k generalizing first info s with
  | zero =>
    have hsame : ask d cpu (first + 1) 0 info s.reqLocalPwrStates = s.reqLocalPwrStates := by
      funext lvl c
      unfold ask
      rw [if_neg (by omega)]
    refine ⟨?_, fun _ _ => rfl, fun lvl h1 h2 => by omega⟩
    rw [hsame]
    rfl
  | succ k ih =>
    rw [List.range'_succ, coordinate, setReq_eq]
    simp only
    generalize htarget : platGetTargetPwrState (requests d
      { s with reqLocalPwrStates := ask d cpu (first + 1) 1 (fun _ => info (first + 1)) s.reqLocalPwrStates }
      (first + 1) (d.domain cpu (first + 1))) = target
    -- later levels leave the requests of this one alone
    have hleast : ∀ x ∈ requests d { s with reqLocalPwrStates := ask d cpu (first + 1) (k + 1) info s.reqLocalPwrStates }
        (first + 1) (d.domain cpu (first + 1)), target ≤ x := by
      intro x hx
      have hsame : requests d
          { s with reqLocalPwrStates := ask d cpu (first + 1) 1 (fun _ => info (first + 1)) s.reqLocalPwrStates }
          (first + 1) (d.domain cpu (first + 1)) = requests d
          { s with reqLocalPwrStates := ask d cpu (first + 1) (k + 1) info s.reqLocalPwrStates }
          (first + 1) (d.domain cpu (first + 1)) := by
        refine congrArg (List.map · _) (funext fun c => ?_)
        simp only [ask]
        exact if_congr (by omega) rfl rfl
      rw [← htarget, hsame]
      exact (foldl_min_le _ _).2 x hx
    have hask : ∀ v' : ℕ → ℕ, (∀ lvl, first + 1 < lvl → v' lvl = info lvl) →
        ask d cpu (first + 2) k v' (ask d cpu (first + 1) 1 (fun _ => info (first + 1)) s.reqLocalPwrStates) =
          ask d cpu (first + 1) (k + 1) info s.reqLocalPwrStates := fun v' hv => ask_succ (first + 1) k info v' _ hv
    have hupdate : ∀ lvl, first + 1 < lvl → Function.update info (first + 1) target lvl = info lvl :=
      fun lvl hlvl => Function.update_of_ne (by omega) _ _
    split
    · rename_i hrun
      rw [keepRun_eq]
      simp only [hask _ hupdate]
      refine ⟨rfl, ?_, ?_⟩
      · intro lvl hlvl
        simp only
        rw [if_neg (by omega), Function.update_of_ne (by omega)]
      · intro lvl h1 h2 x hx
        simp only
        by_cases hlvl : lvl = first + 1
        · rw [hlvl, if_neg (by omega), Function.update_self]
          rw [hlvl] at hx
          exact hleast x hx
        · rw [if_pos (by omega)]
          exact Nat.zero_le x
    · have hrest := ih (first + 1) (Function.update info (first + 1) target)
        { s with reqLocalPwrStates := ask d cpu (first + 1) 1 (fun _ => info (first + 1)) s.reqLocalPwrStates }
      have hstate := hrest.state
      simp only [hask _ hupdate] at hstate
      refine ⟨hstate, ?_, ?_⟩
      · intro lvl hlvl
        refine (hrest.other lvl (by omega)).trans ?_
        exact Function.update_of_ne (by omega) _ _
      · intro lvl h1 h2 x hx
        by_cases hlvl : lvl = first + 1
        · have hthis := hrest.other lvl (by omega)
          rw [hlvl, Function.update_self] at hthis
          rw [hlvl] at hx ⊢
          refine hthis.le.trans (hleast x ?_)
          rw [← hstate]
          exact hx
        · exact hrest.target lvl (by omega) (by omega) x hx

/-! ## The calls -/

/-- What a CPU that goes down asks for, and what it leaves behind. -/
structure Coordinated (d : Nodes) (cpu endPwrlvl : ℕ) (info : ℕ → ℕ) (s : State) (info' : ℕ → ℕ) (s' : State) : Prop where
  asked : s'.reqLocalPwrStates = ask d cpu 1 endPwrlvl info s.reqLocalPwrStates
  assigned : s'.localState = assign d cpu info' (List.range' 1 endPwrlvl) s.localState
  target : ∀ lvl, 0 < lvl → lvl ≤ endPwrlvl → ∀ c < d.coreCount, d.domain c lvl = d.domain cpu lvl →
    info' lvl ≤ s'.reqLocalPwrStates lvl c
  above : ∀ lvl, endPwrlvl < lvl → info' lvl = info lvl
  cpuLocal : s'.cpuLocalState = Function.update s.cpuLocalState cpu (info PSCI_CPU_PWR_LVL)
  affInfo : s'.affInfoState = s.affInfoState

theorem coordination_spec (h : PowerTree d) (hc : cpu < d.coreCount) (hend : endPwrlvl ≤ PLAT_MAX_PWR_LVL)
    (s : State) (info : ℕ → ℕ) :
    Coordinated d cpu endPwrlvl info s (psciDoStateCoordination d s cpu endPwrlvl info).1
        (psciDoStateCoordination d s cpu endPwrlvl info).2 ∧
      (psciDoStateCoordination d s cpu endPwrlvl info).2.targetPwrlvl = s.targetPwrlvl := by
  have hw := coordinate_settled d cpu 0 endPwrlvl info s
  have hdef : psciDoStateCoordination d s cpu endPwrlvl info =
      ((coordinate d cpu (List.range' (0 + 1) endPwrlvl) (d.domain cpu (0 + 1)) (info, s)).1,
        psciSetTargetLocalPwrStates d
          (coordinate d cpu (List.range' (0 + 1) endPwrlvl) (d.domain cpu (0 + 1)) (info, s)).2 cpu endPwrlvl
          (coordinate d cpu (List.range' (0 + 1) endPwrlvl) (d.domain cpu (0 + 1)) (info, s)).1) := rfl
  rw [hdef]
  generalize coordinate d cpu (List.range' (0 + 1) endPwrlvl) (d.domain cpu (0 + 1)) (info, s) = w at hw ⊢
  have hset : psciSetTargetLocalPwrStates d w.2 cpu endPwrlvl w.1 = { w.2 with
      cpuLocalState := Function.update w.2.cpuLocalState cpu (w.1 PSCI_CPU_PWR_LVL)
      localState := assign d cpu w.1 (List.range' 1 endPwrlvl) w.2.localState } := setTargetFrom_eq d cpu w.1 0 endPwrlvl _
  rw [hset]
  have hzero : w.1 PSCI_CPU_PWR_LVL = info PSCI_CPU_PWR_LVL := hw.other _ (by simp [PSCI_CPU_PWR_LVL])
  refine ⟨⟨?_, ?_, ?_, ?_, ?_, ?_⟩, ?_⟩
  · simp only [hw.state, Nat.zero_add]
  · simp only [hw.state]
  · intro lvl hpos hle c hc' hdom
    refine hw.target lvl (by omega) (by omega) _ (List.mem_map_of_mem ?_)
    rw [List.mem_range'_1]
    exact (h.cpus cpu hc lvl hpos (hle.trans hend) c).mpr ⟨hc', hdom⟩
  · exact fun lvl hlvl => hw.other lvl (by omega)
  · simp only [hzero, hw.state]
  · simp only [hw.state]
  · simp only [hw.state]

theorem setToRun_spec (d : Nodes) (s : State) (cpu endPwrlvl : ℕ) : psciSetPwrDomainsToRun d s cpu endPwrlvl =
    { s with
      localState := assign d cpu (fun _ => PSCI_LOCAL_STATE_RUN) (List.range' 1 endPwrlvl) s.localState
      reqLocalPwrStates := ask d cpu 1 endPwrlvl (fun _ => PSCI_LOCAL_STATE_RUN) s.reqLocalPwrStates
      affInfoState := Function.update s.affInfoState cpu .on
      cpuLocalState := Function.update s.cpuLocalState cpu PSCI_LOCAL_STATE_RUN } := by
  have hrun : setToRunFrom d cpu (List.range' 1 endPwrlvl) (d.cpuParent cpu) s = { s with
      localState := assign d cpu (fun _ => PSCI_LOCAL_STATE_RUN) (List.range' 1 endPwrlvl) s.localState
      reqLocalPwrStates := ask d cpu 1 endPwrlvl (fun _ => PSCI_LOCAL_STATE_RUN) s.reqLocalPwrStates } :=
    setToRunFrom_eq d cpu 0 endPwrlvl s
  rw [psciSetPwrDomainsToRun, hrun]

theorem getTarget_spec (d : Nodes) (s : State) (cpu endPwrlvl : ℕ) (pdState : ℕ → ℕ) {lvl : ℕ} (hpos : 0 < lvl)
    (hle : lvl ≤ endPwrlvl) : psciGetTargetLocalPwrStates d s cpu endPwrlvl pdState lvl = s.localState (d.domain cpu lvl) := by
  have hnot : ¬ (endPwrlvl < lvl ∧ lvl ≤ PLAT_MAX_PWR_LVL) := by omega
  refine (if_neg hnot).trans ((getTargetFrom_eq d cpu s 0 endPwrlvl _ lvl).trans ?_)
  rw [if_pos (by omega)]

theorem getTarget_zero (d : Nodes) (s : State) (cpu endPwrlvl : ℕ) (pdState : ℕ → ℕ) :
    psciGetTargetLocalPwrStates d s cpu endPwrlvl pdState PSCI_CPU_PWR_LVL = s.cpuLocalState cpu := by
  have hnot : ¬ (endPwrlvl < PSCI_CPU_PWR_LVL ∧ PSCI_CPU_PWR_LVL ≤ PLAT_MAX_PWR_LVL) := by simp [PSCI_CPU_PWR_LVL]
  have hread := getTargetFrom_eq d cpu s 0 endPwrlvl (Function.update pdState PSCI_CPU_PWR_LVL (s.cpuLocalState cpu))
    PSCI_CPU_PWR_LVL
  rw [if_neg (by simp [PSCI_CPU_PWR_LVL]), Function.update_self] at hread
  rw [psciGetTargetLocalPwrStates]
  exact (if_neg hnot).trans hread

/-! ## The invariant -/

/-- What the state of a CPU's power says about its data. -/
def CpuInv (s : State) (cpu : ℕ) : Power → Prop
  | .running => s.affInfoState cpu = .on ∧ s.targetPwrlvl cpu = PSCI_INVALID_PWR_LVL ∧
      ∀ lvl, 0 < lvl → lvl ≤ PLAT_MAX_PWR_LVL → s.reqLocalPwrStates lvl cpu = PSCI_LOCAL_STATE_RUN
  | .leaving => s.affInfoState cpu = .on ∧ s.targetPwrlvl cpu = PSCI_INVALID_PWR_LVL
  | .off => s.affInfoState cpu = .off ∧ s.targetPwrlvl cpu = PSCI_INVALID_PWR_LVL
  | .booting => s.affInfoState cpu = .onPending ∧ s.targetPwrlvl cpu = PSCI_INVALID_PWR_LVL
  | .suspended endPwrlvl isPowerDownState => s.affInfoState cpu = .on ∧ endPwrlvl ≤ PLAT_MAX_PWR_LVL ∧
      (∀ lvl, endPwrlvl < lvl → lvl ≤ PLAT_MAX_PWR_LVL → s.reqLocalPwrStates lvl cpu = PSCI_LOCAL_STATE_RUN) ∧
      if isPowerDownState then s.targetPwrlvl cpu = endPwrlvl ∧ isLocalStateOff (s.cpuLocalState cpu)
      else s.targetPwrlvl cpu = PSCI_INVALID_PWR_LVL

structure Inv (d : Nodes) (s : System) : Prop where
  cpu : ∀ c < d.coreCount, CpuInv s.psci c (s.power c)
  shallow : ∀ c < d.coreCount, ∀ lvl, 0 < lvl → lvl ≤ PLAT_MAX_PWR_LVL →
    s.psci.localState (d.domain c lvl) ≤ s.psci.reqLocalPwrStates lvl c
  told : ∀ c < d.coreCount, ∀ lvl, 0 < lvl → lvl ≤ PLAT_MAX_PWR_LVL →
    s.told (d.domain c lvl) = s.psci.localState (d.domain c lvl)

/-- The data of one CPU decides what is said about it. -/
theorem CpuInv.congr {s s' : State} {p : Power} (h : CpuInv s cpu p) (haff : s'.affInfoState cpu = s.affInfoState cpu)
    (hlvl : s'.targetPwrlvl cpu = s.targetPwrlvl cpu) (hlocal : s'.cpuLocalState cpu = s.cpuLocalState cpu)
    (hreq : ∀ lvl, s'.reqLocalPwrStates lvl cpu = s.reqLocalPwrStates lvl cpu) : CpuInv s' cpu p := by
  cases p <;> simpa only [CpuInv, haff, hlvl, hlocal, hreq] using h

theorem ask_other {first k : ℕ} {v : ℕ → ℕ} {req : ℕ → ℕ → ℕ} {c : ℕ} (hne : c ≠ cpu) (lvl : ℕ) :
    ask d cpu first k v req lvl c = req lvl c := by
  unfold ask
  rw [if_neg fun h => hne h.1]

theorem ask_own {k : ℕ} {v : ℕ → ℕ} {req : ℕ → ℕ → ℕ} (hc : cpu < d.coreCount) {lvl : ℕ} (hpos : 0 < lvl)
    (hle : lvl ≤ PLAT_MAX_PWR_LVL) (hk : lvl ≤ k) : ask d cpu 1 k v req lvl cpu = v lvl := by
  unfold ask
  rw [if_pos ⟨rfl, by omega, by omega, hpos, hle, hc⟩]

theorem ask_above {k : ℕ} {v : ℕ → ℕ} {req : ℕ → ℕ → ℕ} {lvl : ℕ} (hk : k < lvl) (c : ℕ) :
    ask d cpu 1 k v req lvl c = req lvl c := by
  unfold ask
  rw [if_neg (by omega)]

/-- On the path of a CPU, or not. -/
theorem assign_cases (h : PowerTree d) (hc : cpu < d.coreCount) (hend : endPwrlvl ≤ PLAT_MAX_PWR_LVL) (v f : ℕ → ℕ)
    {c lvl : ℕ} (hc' : c < d.coreCount) (hpos : 0 < lvl) (hle : lvl ≤ PLAT_MAX_PWR_LVL) :
    (lvl ≤ endPwrlvl ∧ d.domain c lvl = d.domain cpu lvl ∧
        assign d cpu v (List.range' 1 endPwrlvl) f (d.domain c lvl) = v lvl) ∨
      ((lvl ≤ endPwrlvl → d.domain c lvl ≠ d.domain cpu lvl) ∧
        assign d cpu v (List.range' 1 endPwrlvl) f (d.domain c lvl) = f (d.domain c lvl)) := by
  have hlvls : ∀ l ∈ List.range' 1 endPwrlvl, 0 < l ∧ l ≤ PLAT_MAX_PWR_LVL := fun l hl =>
    ⟨(mem_levels.mp hl).1, (mem_levels.mp hl).2.trans hend⟩
  by_cases hpath : lvl ≤ endPwrlvl ∧ d.domain c lvl = d.domain cpu lvl
  · left
    refine ⟨hpath.1, hpath.2, ?_⟩
    rw [hpath.2]
    exact assign_at h hc hlvls (mem_levels.mpr ⟨hpos, hpath.1⟩) f
  · right
    refine ⟨fun hlvl heq => hpath ⟨hlvl, heq⟩, assign_out ?_ f⟩
    intro l hl heq
    have hsame := h.level c hc' cpu hc lvl l hpos hle (hlvls l hl).1 (hlvls l hl).2 heq
    subst hsame
    exact hpath ⟨(mem_levels.mp hl).2, heq⟩

/-! ## One step -/

theorem tell_eq (d : Nodes) (told : ℕ → ℕ) (cpu endPwrlvl : ℕ) (v : ℕ → ℕ) :
    tell d told cpu endPwrlvl v = assign d cpu v (List.range' 1 endPwrlvl) told := rfl

/-- A CPU changes its own data and the domains above it, to the same states that the platform is told. -/
theorem Inv.moved (h : PowerTree d) (hc : cpu < d.coreCount) (hend : endPwrlvl ≤ PLAT_MAX_PWR_LVL) {s : System}
    (hi : Inv d s) {v a : ℕ → ℕ} {p : State} {power : Power} (hcpu : CpuInv p cpu power)
    (hlocal : p.localState = assign d cpu v (List.range' 1 endPwrlvl) s.psci.localState)
    (hasked : p.reqLocalPwrStates = ask d cpu 1 endPwrlvl a s.psci.reqLocalPwrStates)
    (hother : ∀ c, c ≠ cpu → p.affInfoState c = s.psci.affInfoState c ∧ p.targetPwrlvl c = s.psci.targetPwrlvl c ∧
      p.cpuLocalState c = s.psci.cpuLocalState c)
    (hv : ∀ lvl, 0 < lvl → lvl ≤ endPwrlvl → ∀ c < d.coreCount, d.domain c lvl = d.domain cpu lvl →
      v lvl ≤ p.reqLocalPwrStates lvl c) :
    Inv d ⟨p, Function.update s.power cpu power, tell d s.told cpu endPwrlvl v⟩ := by
  refine ⟨?_, ?_, ?_⟩
  · intro c hc'
    by_cases hcc : c = cpu
    · subst hcc
      simpa only [Function.update_self] using hcpu
    · obtain ⟨haff, hlvl, hstate⟩ := hother c hcc
      simp only [Function.update_of_ne hcc]
      refine (hi.cpu c hc').congr haff hlvl hstate fun lvl => ?_
      rw [hasked, ask_other hcc]
  · intro c hc' lvl hpos hle
    simp only [hlocal]
    rcases assign_cases h hc hend v s.psci.localState hc' hpos hle with ⟨hlvl, hdom, heq⟩ | ⟨hout, heq⟩
    · rw [heq]
      exact hv lvl hpos hlvl c hc' hdom
    · rw [heq, hasked]
      by_cases hcc : c = cpu
      · have habove : endPwrlvl < lvl := by
          by_contra hnot
          exact hout (by omega) (by rw [hcc])
        rw [ask_above habove]
        exact hi.shallow c hc' lvl hpos hle
      · rw [ask_other hcc]
        exact hi.shallow c hc' lvl hpos hle
  · intro c hc' lvl hpos hle
    simp only [tell_eq, hlocal]
    rcases assign_cases h hc hend v s.psci.localState hc' hpos hle with ⟨hlvl, hdom, heq⟩ | ⟨hout, heq⟩
    · rw [heq]
      rcases assign_cases h hc hend v s.told hc' hpos hle with ⟨-, -, heq'⟩ | ⟨hout', -⟩
      · exact heq'
      · exact absurd hdom (hout' hlvl)
    · rw [heq]
      rcases assign_cases h hc hend v s.told hc' hpos hle with ⟨hlvl', hdom', -⟩ | ⟨-, heq'⟩
      · exact absurd hdom' (hout hlvl')
      · rw [heq']
        exact hi.told c hc' lvl hpos hle

/-- What may be seen of a step, in the state before it. -/
def Safe (d : Nodes) (s : System) : Event → Prop
  | .down cpu _ stateInfo => ∀ lvl, 0 < lvl → lvl ≤ PLAT_MAX_PWR_LVL → stateInfo lvl ≠ PSCI_LOCAL_STATE_RUN →
      ∀ c < d.coreCount, c ≠ cpu → d.domain c lvl = d.domain cpu lvl →
        s.power c ≠ .running ∧ stateInfo lvl ≤ s.psci.reqLocalPwrStates lvl c
  | .up cpu endPwrlvl stateInfo => ∀ lvl, 0 < lvl → lvl ≤ endPwrlvl → stateInfo lvl = s.told (d.domain cpu lvl)
  | .on cpu => s.power cpu = .off
  | .ended cpu => s.power cpu = .leaving
  | .refused => True
  | .panic => False

/-- A domain goes no deeper than what the CPUs under it have asked for, and a running CPU asks for nothing. -/
theorem Inv.down_safe {s : System} (hi : Inv d s) {info info' : ℕ → ℕ} {p : State}
    (habove : ∀ lvl, endPwrlvl < lvl → lvl ≤ PLAT_MAX_PWR_LVL → info lvl = PSCI_LOCAL_STATE_RUN)
    (hw : Coordinated d cpu endPwrlvl info s.psci info' p) : Safe d s (.down cpu endPwrlvl info') := by
  intro lvl hpos hle hrun c hc hne hdom
  have hk : lvl ≤ endPwrlvl := by
    by_contra hlt
    exact hrun ((hw.above lvl (by omega)).trans (habove lvl (by omega) hle))
  have hleast := hw.target lvl hpos hk c hc hdom
  rw [hw.asked, ask_other hne] at hleast
  refine ⟨?_, hleast⟩
  intro hp
  have hcpu := hi.cpu c hc
  rw [hp] at hcpu
  rw [hcpu.2.2 lvl hpos hle] at hleast
  exact hrun (Nat.le_zero.mp hleast)

/-- A CPU that runs again has been shown the states that its domains were left in. -/
theorem Inv.up_safe {s : System} (hi : Inv d s) (hc : cpu < d.coreCount) (hend : endPwrlvl ≤ PLAT_MAX_PWR_LVL) (info : ℕ → ℕ) :
    Safe d s (.up cpu endPwrlvl (psciGetTargetLocalPwrStates d s.psci cpu endPwrlvl info)) := by
  intro lvl hpos hle
  rw [getTarget_spec d s.psci cpu endPwrlvl info hpos hle]
  exact (hi.told cpu hc lvl hpos (hle.trans hend)).symm

theorem Inv.run (h : PowerTree d) (hc : cpu < d.coreCount) (hend : endPwrlvl ≤ PLAT_MAX_PWR_LVL) {s : System} (hi : Inv d s)
    {p : State} (hlocal : p.localState = s.psci.localState) (hreq : p.reqLocalPwrStates = s.psci.reqLocalPwrStates)
    (hother : ∀ c, c ≠ cpu → p.affInfoState c = s.psci.affInfoState c ∧ p.targetPwrlvl c = s.psci.targetPwrlvl c ∧
      p.cpuLocalState c = s.psci.cpuLocalState c)
    (hlvl : p.targetPwrlvl cpu = PSCI_INVALID_PWR_LVL)
    (habove : ∀ lvl, endPwrlvl < lvl → lvl ≤ PLAT_MAX_PWR_LVL → s.psci.reqLocalPwrStates lvl cpu = PSCI_LOCAL_STATE_RUN) :
    Inv d ⟨psciSetPwrDomainsToRun d p cpu endPwrlvl, Function.update s.power cpu .running,
      tell d s.told cpu endPwrlvl fun _ => PSCI_LOCAL_STATE_RUN⟩ := by
  rw [setToRun_spec]
  refine hi.moved h hc hend (a := fun _ => PSCI_LOCAL_STATE_RUN) ?_ ?_ ?_ ?_ ?_
  · refine ⟨?_, hlvl, ?_⟩
    · simp only [Function.update_self]
    · intro lvl hpos hle
      simp only [hreq]
      by_cases hk : lvl ≤ endPwrlvl
      · exact ask_own hc hpos hle hk
      · rw [ask_above (by omega)]
        exact habove lvl (by omega) hle
  · simp only [hlocal]
  · simp only [hreq]
  · intro c hne
    obtain ⟨haff, htarget, hstate⟩ := hother c hne
    simp only [Function.update_of_ne hne]
    exact ⟨haff, htarget, hstate⟩
  · intro lvl _ _ c _ _
    exact Nat.zero_le _

theorem Inv.cpuOn {s : System} (hi : Inv d s) {target : ℕ} (ht : target < d.coreCount)
    (h : (psciCpuOnStart s.psci target).1 = PSCI_E_SUCCESS) :
    Inv d { s with psci := (psciCpuOnStart s.psci target).2, power := Function.update s.power target .booting } ∧
      s.power target = .off := by
  have hcpu := hi.cpu target ht
  have haff : s.psci.affInfoState target = .off := by
    unfold psciCpuOnStart at h
    split at h
    · exact absurd h (by simp [PSCI_E_ALREADY_ON, PSCI_E_SUCCESS])
    · exact absurd h (by simp [PSCI_E_ON_PENDING, PSCI_E_SUCCESS])
    · assumption
  have hstart : (psciCpuOnStart s.psci target).2 =
      { s.psci with affInfoState := Function.update s.psci.affInfoState target .onPending } := by
    unfold psciCpuOnStart
    rw [haff]
  have hoff : s.power target = .off := by
    cases hp : s.power target <;> simp_all [CpuInv]
  rw [hoff] at hcpu
  rw [hstart]
  refine ⟨⟨?_, hi.shallow, hi.told⟩, hoff⟩
  intro c hc
  by_cases hcc : c = target
  · subst hcc
    simp only [Function.update_self, CpuInv]
    exact ⟨trivial, hcpu.2⟩
  · simp only [Function.update_of_ne hcc]
    exact (hi.cpu c hc).congr (Function.update_of_ne hcc _ _) rfl rfl fun _ => rfl

theorem cpuOnRefused_eq {s : State} {target : ℕ} (h : (psciCpuOnStart s target).1 ≠ PSCI_E_SUCCESS) :
    (psciCpuOnStart s target).2 = s := by
  unfold psciCpuOnStart at h ⊢
  split
  · rfl
  · rfl
  · rename_i hoff
    rw [hoff] at h
    exact absurd rfl h

theorem Inv.cpuOff (h : PowerTree d) (hc : cpu < d.coreCount) {s : System} (hi : Inv d s) (hp : s.power cpu = .running) :
    Inv d ⟨(psciDoCpuOff d s.psci cpu).2, Function.update s.power cpu .leaving,
        tell d s.told cpu PLAT_MAX_PWR_LVL (psciDoCpuOff d s.psci cpu).1⟩ ∧
      Safe d s (.down cpu PLAT_MAX_PWR_LVL (psciDoCpuOff d s.psci cpu).1) := by
  obtain ⟨hw, hlvl⟩ := coordination_spec h hc le_rfl s.psci fun _ => PLAT_MAX_OFF_STATE
  have hcpu := hi.cpu cpu hc
  rw [hp] at hcpu
  refine ⟨hi.moved h hc le_rfl ?_ hw.assigned hw.asked ?_ hw.target, hi.down_safe (fun lvl h1 h2 => by omega) hw⟩
  · exact ⟨by rw [psciDoCpuOff, hw.affInfo]; exact hcpu.1, by rw [psciDoCpuOff, hlvl]; exact hcpu.2.1⟩
  · intro c hne
    rw [psciDoCpuOff, hw.affInfo, hlvl, hw.cpuLocal]
    exact ⟨rfl, rfl, Function.update_of_ne hne _ _⟩

theorem Inv.suspend (h : PowerTree d) (hc : cpu < d.coreCount) {s : System} (hi : Inv d s) (hp : s.power cpu = .running)
    {stateInfo : ℕ → ℕ} {isPowerDownState : Bool} (hr : SuspendRequest endPwrlvl stateInfo isPowerDownState) :
    Inv d ⟨(psciCpuSuspendStart d s.psci cpu endPwrlvl stateInfo isPowerDownState).2,
        Function.update s.power cpu (.suspended endPwrlvl isPowerDownState),
        tell d s.told cpu endPwrlvl (psciCpuSuspendStart d s.psci cpu endPwrlvl stateInfo isPowerDownState).1⟩ ∧
      Safe d s (.down cpu endPwrlvl (psciCpuSuspendStart d s.psci cpu endPwrlvl stateInfo isPowerDownState).1) := by
  obtain ⟨hw, hlvl⟩ := coordination_spec h hc hr.le s.psci stateInfo
  have hcpu := hi.cpu cpu hc
  rw [hp] at hcpu
  obtain ⟨haff, htarget, hrun⟩ := hcpu
  have habove : ∀ lvl, endPwrlvl < lvl → lvl ≤ PLAT_MAX_PWR_LVL →
      (psciDoStateCoordination d s.psci cpu endPwrlvl stateInfo).2.reqLocalPwrStates lvl cpu = PSCI_LOCAL_STATE_RUN := by
    intro lvl hlt hle
    rw [hw.asked, ask_above hlt]
    exact hrun lvl (by omega) hle
  cases isPowerDownState with
  | false =>
    refine ⟨hi.moved h hc hr.le ?_ hw.assigned hw.asked ?_ hw.target, hi.down_safe hr.above hw⟩
    · refine ⟨?_, hr.le, habove, ?_⟩
      · exact (congrFun hw.affInfo cpu).trans haff
      · exact (congrFun hlvl cpu).trans htarget
    · intro c hne
      refine ⟨congrFun hw.affInfo c, congrFun hlvl c, ?_⟩
      exact (congrFun hw.cpuLocal c).trans (Function.update_of_ne hne _ _)
  | true =>
    refine ⟨hi.moved h hc hr.le ?_ hw.assigned hw.asked ?_ hw.target, hi.down_safe hr.above hw⟩
    · refine ⟨(congrFun hw.affInfo cpu).trans haff, hr.le, habove, Function.update_self _ _ _, ?_⟩
      have hlocal : (psciDoStateCoordination d s.psci cpu endPwrlvl stateInfo).2.cpuLocalState cpu =
          stateInfo PSCI_CPU_PWR_LVL := by
        rw [hw.cpuLocal, Function.update_self]
      change isLocalStateOff ((psciDoStateCoordination d s.psci cpu endPwrlvl stateInfo).2.cpuLocalState cpu)
      rw [hlocal]
      exact hr.down rfl
    · intro c hne
      refine ⟨congrFun hw.affInfo c, ?_, ?_⟩
      · exact (Function.update_of_ne hne _ _).trans (congrFun hlvl c)
      · exact (congrFun hw.cpuLocal c).trans (Function.update_of_ne hne _ _)

/-- A CPU that boots was put on its way by a call, and the boot finds the level that this call left. -/
theorem Inv.warmboot {s : System} (hi : Inv d s) (hc : cpu < d.coreCount)
    (hp : s.power cpu = .booting ∨ ∃ lvl, s.power cpu = .suspended lvl true) :
    ∃ endPwrlvl p, endPwrlvl ≤ PLAT_MAX_PWR_LVL ∧
      psciWarmbootEntrypoint d s.psci cpu = some (endPwrlvl, psciGetTargetLocalPwrStates d s.psci cpu endPwrlvl fun _ => 0,
        psciSetPwrDomainsToRun d p cpu endPwrlvl) ∧
      (p = s.psci ∨ p = { s.psci with targetPwrlvl := Function.update s.psci.targetPwrlvl cpu PSCI_INVALID_PWR_LVL }) ∧
      p.targetPwrlvl cpu = PSCI_INVALID_PWR_LVL ∧
      ∀ lvl, endPwrlvl < lvl → lvl ≤ PLAT_MAX_PWR_LVL → s.psci.reqLocalPwrStates lvl cpu = PSCI_LOCAL_STATE_RUN := by
  have hcpu := hi.cpu cpu hc
  rcases hp with hp | ⟨lvl, hp⟩
  · rw [hp] at hcpu
    obtain ⟨haff, hlvl⟩ := hcpu
    have hend : getPowerOnTargetPwrlvl s.psci cpu = PLAT_MAX_PWR_LVL := if_pos hlvl
    refine ⟨PLAT_MAX_PWR_LVL, s.psci, le_rfl, ?_, .inl rfl, hlvl, fun lvl h1 h2 => by omega⟩
    rw [psciWarmbootEntrypoint, haff, hend]
    rfl
  · rw [hp] at hcpu
    obtain ⟨haff, hle, habove, hlvl, hoff⟩ := hcpu
    have hend : getPowerOnTargetPwrlvl s.psci cpu = lvl := by
      have hne : lvl ≠ PSCI_INVALID_PWR_LVL := by
        rintro rfl
        exact absurd hle (by decide)
      rw [getPowerOnTargetPwrlvl, hlvl, if_neg hne]
    refine ⟨lvl, _, hle, ?_, .inr rfl, Function.update_self _ _ _, habove⟩
    have hzero := getTarget_zero d s.psci cpu lvl fun _ => 0
    rw [psciWarmbootEntrypoint, haff, hend]
    simp only [hzero, hoff, and_self, if_true, reduceCtorEq, if_false]

theorem step_inv (h : PowerTree d) {s t : System} {e : Event} (hi : Inv d s) (hs : Step d s e t) : Inv d t ∧ Safe d s e := by
  cases hs with
  | cpuOn hc ht hsucc => exact hi.cpuOn ht hsucc
  | cpuOnRefused hc ht hne =>
    rw [cpuOnRefused_eq hne]
    exact ⟨hi, trivial⟩
  | cpuOff hc hp hw =>
    subst hw
    exact hi.cpuOff h hc hp
  | @affOff cpu hc hp =>
    have hcpu := hi.cpu cpu hc
    rw [hp] at hcpu
    refine ⟨⟨?_, hi.shallow, hi.told⟩, hp⟩
    intro c hc'
    by_cases hcc : c = cpu
    · subst hcc
      simp only [Function.update_self, CpuInv]
      exact ⟨trivial, hcpu.2⟩
    · simp only [Function.update_of_ne hcc]
      exact (hi.cpu c hc').congr (Function.update_of_ne hcc _ _) rfl rfl fun _ => rfl
  | suspend hc hp hr hw =>
    subst hw
    exact hi.suspend h hc hp hr
  | @standbyWake cpu endPwrlvl w hc hp hw =>
    subst hw
    have hcpu := hi.cpu cpu hc
    rw [hp] at hcpu
    obtain ⟨haff, hle, habove, hlvl⟩ := hcpu
    exact ⟨Inv.run h hc hle hi rfl rfl (fun c _ => ⟨rfl, rfl, rfl⟩) hlvl habove, hi.up_safe hc hle _⟩
  | @warmboot cpu endPwrlvl stateInfo p hc hp hw =>
    obtain ⟨lvl, q, hle, heq, hq, hlvl, habove⟩ := hi.warmboot hc hp
    rw [heq] at hw
    obtain ⟨rfl, rfl, rfl⟩ := hw
    refine ⟨?_, hi.up_safe hc hle _⟩
    rcases hq with rfl | rfl
    · exact Inv.run h hc hle hi rfl rfl (fun c _ => ⟨rfl, rfl, rfl⟩) hlvl habove
    · exact Inv.run h hc hle hi rfl rfl (fun c hne => ⟨rfl, Function.update_of_ne hne _ _, rfl⟩) hlvl habove
  | warmbootPanic hc hp hw =>
    obtain ⟨lvl, q, hle, heq, -⟩ := hi.warmboot hc hp
    rw [heq] at hw
    cases hw

/-! ## Runs -/

/-- The platform comes up with the domains of the boot CPU running. -/
def boot (topology : ℕ → ℕ) (me : ℕ) : System :=
  ⟨(psciSetup topology me).2, fun c => if c = me then .running else .off,
    tell (psciSetup topology me).1 (fun _ => PLAT_MAX_OFF_STATE) me PLAT_MAX_PWR_LVL fun _ => PSCI_LOCAL_STATE_RUN⟩

variable {topology : ℕ → ℕ} {me : ℕ}

/-- Before the boot CPU is set to run all domains are off. -/
theorem Untouched.domain_off {split all : ℕ} {s : State} (hu : Untouched d all s) (hl : Layers d split all) {c : ℕ}
    (hc : c < d.coreCount) {lvl : ℕ} (hpos : 0 < lvl) (hle : lvl ≤ PLAT_MAX_PWR_LVL) :
    s.localState (d.domain c lvl) = PLAT_MAX_OFF_STATE := by
  have htwo : PLAT_MAX_PWR_LVL = 2 := rfl
  apply hu.node
  obtain rfl | rfl : lvl = 1 ∨ lvl = 2 := by omega
  · exact (hl.cpu_mem c hc).2
  · exact (hl.domain_two hc).trans ((hl.cpu_mem c hc).1.trans_lt (hl.cpu_mem c hc).2)

theorem Inv.boot (h : PowerTree d) (hc : cpu < d.coreCount) {s : State}
    (hcpu : ∀ c < d.coreCount, s.affInfoState c = .off ∧ s.targetPwrlvl c = PSCI_INVALID_PWR_LVL)
    (hoff : ∀ c < d.coreCount, ∀ lvl, 0 < lvl → lvl ≤ PLAT_MAX_PWR_LVL → s.localState (d.domain c lvl) = PLAT_MAX_OFF_STATE)
    (hreq : ∀ c < d.coreCount, ∀ lvl, 0 < lvl → lvl ≤ PLAT_MAX_PWR_LVL → s.reqLocalPwrStates lvl c = PLAT_MAX_OFF_STATE) :
    Inv d ⟨psciSetPwrDomainsToRun d s cpu PLAT_MAX_PWR_LVL, fun c => if c = cpu then .running else .off,
      tell d (fun _ => PLAT_MAX_OFF_STATE) cpu PLAT_MAX_PWR_LVL fun _ => PSCI_LOCAL_STATE_RUN⟩ := by
  rw [setToRun_spec]
  refine ⟨?_, ?_, ?_⟩
  · intro c hc'
    by_cases hcc : c = cpu
    · simp only [hcc, if_true, CpuInv, Function.update_self]
      exact ⟨trivial, (hcpu cpu hc).2, fun lvl hpos hle => ask_own hc hpos hle hle⟩
    · simp only [if_neg hcc, CpuInv, Function.update_of_ne hcc]
      exact hcpu c hc'
  · intro c hc' lvl hpos hle
    simp only
    rcases assign_cases h hc le_rfl (fun _ => PSCI_LOCAL_STATE_RUN) s.localState hc' hpos hle with
      ⟨-, -, heq⟩ | ⟨hout, heq⟩
    · rw [heq]
      exact Nat.zero_le _
    · have hne : c ≠ cpu := by
        rintro rfl
        exact hout hle rfl
      rw [heq, hoff c hc' lvl hpos hle, ask_other hne, hreq c hc' lvl hpos hle]
  · intro c hc' lvl hpos hle
    simp only [tell_eq]
    rcases assign_cases h hc le_rfl (fun _ => PSCI_LOCAL_STATE_RUN) s.localState hc' hpos hle with
      ⟨hlvl, hdom, heq⟩ | ⟨hout, heq⟩
    · rw [heq, hdom]
      refine assign_at h hc (fun l hl => ?_) (mem_levels.mpr ⟨hpos, hlvl⟩) _
      exact mem_levels.mp hl
    · rw [heq, hoff c hc' lvl hpos hle]
      refine assign_out (fun l hl heq' => ?_) _
      have hl' := mem_levels.mp hl
      have hsame := h.level c hc' cpu hc lvl l hpos hle hl'.1 hl'.2 heq'
      subst hsame
      exact hout hle heq'

/-- The setup leaves the boot CPU running under running domains, and everything else off. -/
theorem boot_inv (h : Topology topology) (hme : me < (psciSetup topology me).1.coreCount) :
    Inv (psciSetup topology me).1 (boot topology me) := by
  obtain ⟨-, hlayers, huntouched, hstart, hncpus⟩ := populate_spec h bss
  obtain ⟨start, count, heq, htree⟩ := powerTree_limits hlayers hstart hncpus
  set v := populatePowerDomainTree topology bss with hv
  have hd : (psciSetup topology me).1 = v.1.counted start count := heq
  have hs : (psciSetup topology me).2 =
      psciSetPwrDomainsToRun (v.1.counted start count) (psciInitReqLocalPwrStates (v.1.counted start count) v.2) me
        PLAT_MAX_PWR_LVL := by
    rw [← heq]
    rfl
  unfold boot
  rw [hs, hd]
  rw [hd] at hme
  refine Inv.boot htree hme huntouched.cpu ?_ ?_
  · intro c hc lvl hpos hle
    rw [domain_counted]
    exact huntouched.domain_off hlayers hc hpos hle
  · intro c hc lvl hpos hle
    exact if_pos ⟨hpos, hle, hc⟩

theorem runs_safe (h : Topology topology) (hme : me < (psciSetup topology me).1.coreCount) {s : System}
    {l : List (System × Event × System)} (hrun : Runs (Step (psciSetup topology me).1) (boot topology me) l s) :
    ∀ x ∈ l, Safe (psciSetup topology me).1 x.1 x.2.1 :=
  (Runs.invariant (I := Inv _) (P := fun s e _ => Safe _ s e) (fun _ _ _ hi hs => step_inv (psciSetup_tree h me).1 hi hs)
    (boot_inv h hme) hrun).2

/-- In every run a domain goes into a low power state only when no other CPU under it runs, and no deeper than each of
them has asked for. -/
theorem domain_down_safe (h : Topology topology) (hme : me < (psciSetup topology me).1.coreCount) {s : System}
    {l : List (System × Event × System)} (hrun : Runs (Step (psciSetup topology me).1) (boot topology me) l s)
    {x : System × Event × System} (hx : x ∈ l) {cpu endPwrlvl : ℕ} {stateInfo : ℕ → ℕ}
    (hdown : x.2.1 = .down cpu endPwrlvl stateInfo) {lvl : ℕ} (hpos : 0 < lvl) (hle : lvl ≤ PLAT_MAX_PWR_LVL)
    (hlow : stateInfo lvl ≠ PSCI_LOCAL_STATE_RUN) {c : ℕ} (hc : c < (psciSetup topology me).1.coreCount) (hne : c ≠ cpu)
    (hdom : (psciSetup topology me).1.domain c lvl = (psciSetup topology me).1.domain cpu lvl) :
    x.1.power c ≠ .running ∧ stateInfo lvl ≤ x.1.psci.reqLocalPwrStates lvl c := by
  have hsafe := runs_safe h hme hrun x hx
  rw [hdown] at hsafe
  exact hsafe lvl hpos hle hlow c hc hne hdom

/-- What the platform's check of a power state leaves for `psci_cpu_suspend` is such a request. -/
theorem suspendRequest_requestState {powerState : BitVec 32} {s : Bl31.Psci} (hs : AllRun s)
    (hlvl : requested powerState ≤ PLAT_MAX_PWR_LVL) :
    SuspendRequest (requested powerState)
      (fun lvl => if h : lvl < PLAT_MAX_PWR_LVL + 1 then (requestState powerState s).pwrDomainState ⟨lvl, h⟩
        else PSCI_LOCAL_STATE_RUN)
      (psciGetPstateType powerState ≠ PSTATE_TYPE_STANDBY) := by
  refine ⟨hlvl, ?_, ?_⟩
  · intro lvl habove hle
    rw [dif_pos (Nat.lt_succ_of_le hle)]
    exact (requestState_coherent hs hlvl).above _ habove
  · intro htype
    have hdown : psciGetPstateType powerState ≠ PSTATE_TYPE_STANDBY := by simpa using htype
    have hcore : PSCI_CPU_PWR_LVL < PLAT_MAX_PWR_LVL + 1 := by decide
    have hoff := (requestState_down hs hdown ⟨PSCI_CPU_PWR_LVL, hcore⟩).trans (if_pos (Nat.zero_le _))
    rw [dif_pos hcore, hoff]
    decide

theorem rcar_coreCount : (psciSetup rcarPowerDomainTreeDesc me).1.coreCount = PLATFORM_CORE_COUNT := by
  rw [(psciSetup_tree rcar_topology me).2]
  decide

theorem rcar_tree_eq (me : ℕ) : (psciSetup rcarPowerDomainTreeDesc me).1 = (psciSetup rcarPowerDomainTreeDesc 0).1 := rfl

theorem rcar_domain_one {c c' : ℕ} (hc : c < PLATFORM_CORE_COUNT) (hc' : c' < PLATFORM_CORE_COUNT)
    (h : c / PLATFORM_MAX_CPUS_PER_CLUSTER = c' / PLATFORM_MAX_CPUS_PER_CLUSTER) :
    (psciSetup rcarPowerDomainTreeDesc 0).1.domain c 1 = (psciSetup rcarPowerDomainTreeDesc 0).1.domain c' 1 := by
  have hall : ∀ c : Fin 8, (psciSetup rcarPowerDomainTreeDesc 0).1.domain c 1 = 1 + c / 4 := by decide
  have h1 := hall ⟨c, hc⟩
  have h2 := hall ⟨c', hc'⟩
  simp only [PLATFORM_MAX_CPUS_PER_CLUSTER] at h
  simp only at h1 h2
  rw [h1, h2, h]

/-- In every run on R-Car, whichever hook is called and whatever was asked for, a cluster is turned off only when none of
its other CPUs runs. -/
theorem clusteroff_alone (hme : me < PLATFORM_CORE_COUNT) {s : System} {l : List (System × Event × System)}
    (hrun : Runs (Step (psciSetup rcarPowerDomainTreeDesc me).1) (boot rcarPowerDomainTreeDesc me) l s)
    {x : System × Event × System} (hx : x ∈ l) {cpu endPwrlvl : ℕ} {stateInfo : ℕ → ℕ}
    (hdown : x.2.1 = .down cpu endPwrlvl stateInfo) (hcpu : cpu < PLATFORM_CORE_COUNT) {d3 : Bool}
    (hoff : .clusteroff ∈ rcarPwrDomainOff d3 ⟨stateInfo 0, stateInfo 1⟩ ∨
      .clusteroff ∈ rcarPwrDomainSuspend ⟨stateInfo 0, stateInfo 1⟩) {c : ℕ} (hc : c < PLATFORM_CORE_COUNT) (hne : c ≠ cpu)
    (hcluster : c / PLATFORM_MAX_CPUS_PER_CLUSTER = cpu / PLATFORM_MAX_CPUS_PER_CLUSTER) : x.1.power c ≠ .running := by
  have hlow : stateInfo 1 = PLAT_MAX_OFF_STATE := by
    rcases hoff with hoff | hoff
    · unfold rcarPwrDomainOff at hoff
      by_contra hnot
      simp [hnot] at hoff
    · unfold rcarPwrDomainSuspend at hoff
      by_contra hnot
      split at hoff
      · exact absurd hoff List.not_mem_nil
      · simp at hoff
  have hdom := rcar_domain_one hc hcpu hcluster
  rw [← rcar_tree_eq me] at hdom
  refine (domain_down_safe rcar_topology (by rwa [rcar_coreCount]) hrun hx hdown Nat.one_pos (by decide) ?_
    (by rwa [rcar_coreCount]) hne hdom).1
  rw [hlow]
  decide

/-- The boot CPU turns itself off, and with it the whole tree. -/
def rcarOff : System × Event × System :=
  let b := boot rcarPowerDomainTreeDesc 0
  let d := (psciSetup rcarPowerDomainTreeDesc 0).1
  (b, .down 0 PLAT_MAX_PWR_LVL (psciDoCpuOff d b.psci 0).1,
    ⟨(psciDoCpuOff d b.psci 0).2, Function.update b.power 0 .leaving,
      tell d b.told 0 PLAT_MAX_PWR_LVL (psciDoCpuOff d b.psci 0).1⟩)

theorem rcarOff_run :
    Runs (Step (psciSetup rcarPowerDomainTreeDesc 0).1) (boot rcarPowerDomainTreeDesc 0) [rcarOff] rcarOff.2.2 :=
  .cons (.cpuOff (by decide) rfl rfl) (.nil _)

theorem domain_down_safe_rcar : rcarOff.1.power 5 ≠ .running ∧
    (psciDoCpuOff (psciSetup rcarPowerDomainTreeDesc 0).1 rcarOff.1.psci 0).1 2 ≤ rcarOff.1.psci.reqLocalPwrStates 2 5 :=
  domain_down_safe rcar_topology (by decide) rcarOff_run List.mem_cons_self rfl (by decide) (by decide) (by decide)
    (by decide) (by decide) (by decide)

/-- The boot CPU turns CPU 5 on. -/
def rcarOn : System × Event × System :=
  let b := boot rcarPowerDomainTreeDesc 0
  (b, .on 5, ⟨(psciCpuOnStart b.psci 5).2, Function.update b.power 5 .booting, b.told⟩)

/-- It comes up. -/
def rcarUp : System × Event × System :=
  let s := rcarOn.2.2
  let d := (psciSetup rcarPowerDomainTreeDesc 0).1
  (s, .up 5 PLAT_MAX_PWR_LVL (psciGetTargetLocalPwrStates d s.psci 5 PLAT_MAX_PWR_LVL fun _ => 0),
    ⟨psciSetPwrDomainsToRun d s.psci 5 PLAT_MAX_PWR_LVL, Function.update s.power 5 .running,
      tell d s.told 5 PLAT_MAX_PWR_LVL fun _ => PSCI_LOCAL_STATE_RUN⟩)

theorem rcarUp_run : Runs (Step (psciSetup rcarPowerDomainTreeDesc 0).1) (boot rcarPowerDomainTreeDesc 0) [rcarOn, rcarUp]
    rcarUp.2.2 :=
  .cons (@Step.cpuOn _ _ 0 5 rfl (by decide) rfl) (.cons (.warmboot (by decide) (.inl rfl) rfl) (.nil _))

theorem clusteroff_alone_three : rcarOff.1.power 3 ≠ .running :=
  clusteroff_alone (by decide) rcarOff_run List.mem_cons_self rfl (by decide) (.inl (by decide : _ ∈ rcarPwrDomainOff false _)) (by decide)
    (by decide) (by decide)

end RCar.Psci
