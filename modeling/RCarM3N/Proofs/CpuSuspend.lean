import RCarM3N.Model.PlatPm

/-! What a CPU_SUSPEND request of the normal world can turn off. The level field has two bits and the platform three
levels, so that a power-down request can name a level past the end of the request. -/

namespace RCar.Bl31

open Prog

variable {s t : Psci} {lvls : List ℕ} {powerState : BitVec 32}

/-! ## The accesses to a request -/

@[simp] theorem run_setPwrDomainState (s : Psci) (lvl : Fin (PLAT_MAX_PWR_LVL + 1)) (val : ℕ) :
    (setPwrDomainState lvl val).run s =
      (some (), { s with pwrDomainState := Function.update s.pwrDomainState lvl val }) := by
  unfold setPwrDomainState
  rw [dif_pos lvl.isLt]
  rfl

theorem setPwrDomainState_faults {lvl : ℕ} (h : PLAT_MAX_PWR_LVL < lvl) (val : ℕ) (s : Psci) :
    (setPwrDomainState lvl val).run s = (none, s) := by
  unfold setPwrDomainState
  rw [dif_neg (by omega)]
  rfl

@[simp] theorem run_getPwrDomainState (s : Psci) (lvl : Fin (PLAT_MAX_PWR_LVL + 1)) :
    (getPwrDomainState lvl).run s = (some (s.pwrDomainState lvl), s) := by
  unfold getPwrDomainState
  rw [run_bind_get, dif_pos lvl.isLt]
  rfl

@[simp] theorem run_psciSetReqLocalPwrState (s : Psci) (lvl cpu val : ℕ) :
    (psciSetReqLocalPwrState lvl cpu val).run s = (some (), { s with
      psciReqLocalPwrStates := Function.update s.psciReqLocalPwrStates lvl
        (Function.update (s.psciReqLocalPwrStates lvl) cpu val) }) := rfl

/-- A loop whose body always returns returns, and what each round preserves the loop does. -/
theorem forLevels_induct {body : ℕ → Prog Psci Unit} (R : Psci → Psci → Prop) (hrefl : ∀ s, R s s)
    (htrans : ∀ s t u, R s t → R t u → R s u)
    (hbody : ∀ lvl ∈ lvls, ∀ s, ∃ t, (body lvl).run s = (some (), t) ∧ R s t) (s : Psci) :
    ∃ t, (forLevels body lvls).run s = (some (), t) ∧ R s t := by
  induction lvls generalizing s with
  | nil => exact ⟨s, rfl, hrefl s⟩
  | cons lvl lvls ih =>
    obtain ⟨t, ht, hst⟩ := hbody lvl List.mem_cons_self s
    obtain ⟨u, hu, htu⟩ := ih (fun l hl => hbody l (List.mem_cons_of_mem _ hl)) t
    refine ⟨u, ?_, htrans s t u hst htu⟩
    unfold forLevels
    rw [run_bind_of_some ht, hu]

/-! ## The request -/

theorem forLevels_off (hlvls : ∀ lvl ∈ lvls, lvl ≤ PLAT_MAX_PWR_LVL) (s : Psci) :
    (forLevels (fun i => setPwrDomainState i PLAT_MAX_OFF_STATE) lvls).run s = (some (), { s with
      pwrDomainState := fun i => if (i : ℕ) ∈ lvls then PLAT_MAX_OFF_STATE else s.pwrDomainState i }) := by
  induction lvls generalizing s with
  | nil => simp [forLevels]
  | cons lvl lvls ih =>
    have hlvl : lvl < PLAT_MAX_PWR_LVL + 1 := Nat.lt_succ_of_le (hlvls lvl List.mem_cons_self)
    have hset := run_setPwrDomainState s ⟨lvl, hlvl⟩ PLAT_MAX_OFF_STATE
    unfold forLevels
    rw [run_bind_of_some hset, ih fun l hl => hlvls l (List.mem_cons_of_mem _ hl)]
    congr 2
    funext i
    by_cases hi : (i : ℕ) = lvl
    · obtain rfl : i = ⟨lvl, hlvl⟩ := Fin.ext hi
      simp
    · have hne : i ≠ ⟨lvl, hlvl⟩ := fun h => hi (congrArg Fin.val h)
      simp [hi, Function.update_of_ne hne]

theorem forLevels_off_faults {lvl : ℕ} (hmem : lvl ∈ lvls) (hlvl : PLAT_MAX_PWR_LVL < lvl) (s : Psci) :
    ((forLevels (fun i => setPwrDomainState i PLAT_MAX_OFF_STATE) lvls).run s).1 = none := by
  induction lvls generalizing s with
  | nil => exact absurd hmem List.not_mem_nil
  | cons first lvls ih =>
    unfold forLevels
    by_cases hfirst : first < PLAT_MAX_PWR_LVL + 1
    · have hset := run_setPwrDomainState s ⟨first, hfirst⟩ PLAT_MAX_OFF_STATE
      rw [run_bind_of_some hset]
      refine ih ?_ _
      rcases List.mem_cons.mp hmem with rfl | h
      · omega
      · exact h
    · rw [run_bind_of_none (setPwrDomainState_faults (by omega) _ s)]

/-- The level that a request names. -/
def requested (powerState : BitVec 32) : ℕ := psciGetPstatePwrlvl powerState

/-- The states that a request leaves: retention of the core, or off up to its level. -/
def requestState (powerState : BitVec 32) (s : Psci) : Psci :=
  if psciGetPstateType powerState = PSTATE_TYPE_STANDBY then
    { s with pwrDomainState := Function.update s.pwrDomainState 0 PLAT_MAX_RET_STATE }
  else { s with
    pwrDomainState := fun i => if (i : ℕ) ≤ requested powerState then PLAT_MAX_OFF_STATE else s.pwrDomainState i }

/-- The level is past the last one, in a request that is not refused before its levels are written. -/
def PastTheEnd (powerState : BitVec 32) : Prop :=
  psciGetPstateType powerState ≠ PSTATE_TYPE_STANDBY ∧ PLAT_MAX_PWR_LVL < psciGetPstatePwrlvl powerState

instance : Decidable (PastTheEnd powerState) := inferInstanceAs (Decidable (_ ∧ _))

theorem rcarValidatePowerState_faults (h : PastTheEnd powerState) (s : Psci) :
    ((rcarValidatePowerState powerState).run s).1 = none := by
  unfold rcarValidatePowerState
  simp only [if_neg h.1]
  exact run_bind_fst_of_none (forLevels_off_faults (List.mem_range.mpr (Nat.lt_succ_self _)) h.2 s) _

/-- The test of the id comes last. -/
theorem run_idTest (t : Psci) (Q : ℤ → Psci → Prop) (hbad : Q PSCI_E_INVALID_PARAMS t) (hgood : Q PSCI_E_SUCCESS t) :
    ∃ rc u, (if psciGetPstateId powerState ≠ 0 then pure PSCI_E_INVALID_PARAMS else pure PSCI_E_SUCCESS :
      Prog Psci ℤ).run t = (some rc, u) ∧ Q rc u := by
  rw [run_ite]
  split_ifs
  · exact ⟨_, t, rfl, hbad⟩
  · exact ⟨_, t, rfl, hgood⟩

/-- A request that stays in the array is refused, or leaves its states. -/
theorem rcarValidatePowerState_returns (h : ¬PastTheEnd powerState) (s : Psci) :
    ∃ rc t, (rcarValidatePowerState powerState).run s = (some rc, t) ∧ (rc = PSCI_E_SUCCESS →
      t = requestState powerState s ∧ requested powerState ≤ PLAT_MAX_PWR_LVL ∧
      (psciGetPstateType powerState = PSTATE_TYPE_STANDBY → requested powerState = PSCI_CPU_PWR_LVL)) := by
  unfold rcarValidatePowerState
  by_cases htype : psciGetPstateType powerState = PSTATE_TYPE_STANDBY
  · simp only [if_pos htype]
    by_cases hlvl : psciGetPstatePwrlvl powerState ≠ PSCI_CPU_PWR_LVL
    · rw [if_pos hlvl]
      exact ⟨_, s, rfl, fun hrc => absurd hrc (by decide)⟩
    · have hset : (setPwrDomainState PSCI_CPU_PWR_LVL PLAT_MAX_RET_STATE).run s = _ := run_setPwrDomainState s 0 _
      have hlevel : requested powerState = PSCI_CPU_PWR_LVL := not_not.mp hlvl
      rw [if_neg hlvl, run_bind_of_some hset]
      refine run_idTest _ _ (fun hrc => absurd hrc (by decide)) fun _ => ⟨?_, ?_, fun _ => hlevel⟩
      · rw [requestState, if_pos htype]
      · rw [hlevel]
        decide
  · have hlvl : requested powerState ≤ PLAT_MAX_PWR_LVL := by
      by_contra hgt
      exact h ⟨htype, Nat.lt_of_not_le hgt⟩
    have hmem : ∀ lvl ∈ List.range (psciGetPstatePwrlvl powerState + 1), lvl ≤ PLAT_MAX_PWR_LVL := fun lvl hmem =>
      (Nat.lt_succ_iff.mp (List.mem_range.mp hmem)).trans hlvl
    have hloop := forLevels_off hmem s
    simp only [if_neg htype]
    rw [run_bind_of_some hloop]
    refine run_idTest _ _ (fun hrc => absurd hrc (by decide)) fun _ => ⟨?_, hlvl, fun hs => absurd hs htype⟩
    rw [requestState, if_neg htype]
    congr 1
    funext i
    exact if_congr (by rw [List.mem_range, Nat.lt_succ_iff, requested]) rfl rfl

/-- What the normal world hands in: all levels run. -/
def AllRun (s : Psci) : Prop := ∀ i, s.pwrDomainState i = PSCI_LOCAL_STATE_RUN

/-- A request up to `top`: no level is deeper than one below it, those above run, and the platform has the level. -/
structure Coherent (top : ℕ) (s : Psci) : Prop where
  level : top ≤ PLAT_MAX_PWR_LVL
  ordered : ∀ i j, i ≤ j → s.pwrDomainState j ≤ s.pwrDomainState i
  above : ∀ i : Fin (PLAT_MAX_PWR_LVL + 1), top < i → s.pwrDomainState i = PSCI_LOCAL_STATE_RUN

theorem requestState_standby (hs : AllRun s) (htype : psciGetPstateType powerState = PSTATE_TYPE_STANDBY)
    (i : Fin (PLAT_MAX_PWR_LVL + 1)) : (requestState powerState s).pwrDomainState i =
      if i = 0 then PLAT_MAX_RET_STATE else PSCI_LOCAL_STATE_RUN := by
  rw [requestState, if_pos htype, ← hs i]
  exact Function.update_apply _ _ _ _

theorem requestState_down (hs : AllRun s) (htype : psciGetPstateType powerState ≠ PSTATE_TYPE_STANDBY)
    (i : Fin (PLAT_MAX_PWR_LVL + 1)) : (requestState powerState s).pwrDomainState i =
      if (i : ℕ) ≤ requested powerState then PLAT_MAX_OFF_STATE else PSCI_LOCAL_STATE_RUN := by
  rw [requestState, if_neg htype, ← hs i]

theorem requestState_coherent (hs : AllRun s) (hlvl : requested powerState ≤ PLAT_MAX_PWR_LVL) :
    Coherent (requested powerState) (requestState powerState s) := by
  by_cases htype : psciGetPstateType powerState = PSTATE_TYPE_STANDBY
  · refine ⟨hlvl, fun i j hij => ?_, fun i hi => ?_⟩
    · rw [requestState_standby hs htype, requestState_standby hs htype]
      by_cases hj : j = 0
      · subst hj
        rw [Fin.le_zero_iff.mp hij]
      · rw [if_neg hj]
        exact Nat.zero_le _
    · have hne : i ≠ 0 := by
        rintro rfl
        exact Nat.not_lt_zero _ hi
      rw [requestState_standby hs htype, if_neg hne]
  · refine ⟨hlvl, fun i j hij => ?_, fun i hi => ?_⟩
    · have hle : (i : ℕ) ≤ j := hij
      rw [requestState_down hs htype, requestState_down hs htype]
      by_cases hj : (j : ℕ) ≤ requested powerState
      · rw [if_pos hj, if_pos (hle.trans hj)]
      · rw [if_neg hj]
        exact Nat.zero_le _
    · rw [requestState_down hs htype, if_neg (Nat.not_le_of_gt hi)]

theorem findTarget_requestState (hs : AllRun s) (hlvl : requested powerState ≤ PLAT_MAX_PWR_LVL)
    (hstandby : psciGetPstateType powerState = PSTATE_TYPE_STANDBY → requested powerState = PSCI_CPU_PWR_LVL) :
    psciFindTargetSuspendLvl (requestState powerState s) = requested powerState := by
  unfold psciFindTargetSuspendLvl
  by_cases htype : psciGetPstateType powerState = PSTATE_TYPE_STANDBY
  · simp only [requestState_standby hs htype, hstandby htype]
    decide
  · simp only [requestState_down hs htype]
    generalize requested powerState = top at hlvl ⊢
    change top ≤ 2 at hlvl
    interval_cases top <;> decide

/-! ## The coordination -/

/-- The coordination leaves the core as it is, and brings no level down. -/
structure Shallower (s t : Psci) : Prop where
  core : t.pwrDomainState 0 = s.pwrDomainState 0
  le : ∀ i, t.pwrDomainState i ≤ s.pwrDomainState i

theorem Shallower.refl (s : Psci) : Shallower s s := ⟨rfl, fun _ => le_rfl⟩

theorem Shallower.trans {s t u : Psci} (h : Shallower s t) (h' : Shallower t u) : Shallower s u :=
  ⟨h'.core.trans h.core, fun i => (h'.le i).trans (h.le i)⟩

/-- Setting a level above the core to a state that is no deeper. -/
theorem Shallower.set (s : Psci) (req : ℕ → ℕ → ℕ) {lvl : Fin (PLAT_MAX_PWR_LVL + 1)} {val : ℕ} (hlvl : lvl ≠ 0)
    (hval : val ≤ s.pwrDomainState lvl) :
    Shallower s ⟨Function.update s.pwrDomainState lvl val, req⟩ := by
  constructor
  · exact Function.update_of_ne (Ne.symm hlvl) _ _
  · intro i
    by_cases hi : i = lvl
    · subst hi
      simpa using hval
    · simp [Function.update_of_ne hi]

theorem foldl_min_le (l : List ℕ) (target : ℕ) :
    l.foldl (fun target temp => if temp < target then temp else target) target ≤ target ∧
      ∀ x ∈ l, l.foldl (fun target temp => if temp < target then temp else target) target ≤ x := by
  induction l generalizing target with
  | nil => simp
  | cons y l ih =>
    obtain ⟨hle, hall⟩ := ih (if y < target then y else target)
    have hmin : (if y < target then y else target) ≤ target ∧ (if y < target then y else target) ≤ y := by
      split_ifs <;> omega
    simp only [List.foldl_cons, List.mem_cons, forall_eq_or_imp]
    exact ⟨hle.trans hmin.1, hle.trans hmin.2, hall⟩

theorem mem_domainCpus (lvl : ℕ) (cpu : Fin PLATFORM_CORE_COUNT) : (cpu : ℕ) ∈ domainCpus lvl cpu := by
  have hcpu : (cpu : ℕ) < PLATFORM_CORE_COUNT := cpu.isLt
  unfold domainCpus
  split_ifs
  · simp only [List.mem_range'_1, PLATFORM_MAX_CPUS_PER_CLUSTER]
    omega
  · exact List.mem_range.mpr hcpu

theorem keepUp_shallower (cpu : ℕ) {lvl : ℕ} (h1 : 1 ≤ lvl) (h2 : lvl ≤ PLAT_MAX_PWR_LVL) (s : Psci) :
    ∃ t, (keepUp cpu lvl).run s = (some (), t) ∧ Shallower s t := by
  obtain ⟨i, rfl⟩ : ∃ i : Fin (PLAT_MAX_PWR_LVL + 1), lvl = i := ⟨⟨lvl, Nat.lt_succ_of_le h2⟩, rfl⟩
  have hi : i ≠ 0 := by
    rintro rfl
    exact absurd h1 (by decide)
  unfold keepUp
  rw [run_bind_of_some (run_getPwrDomainState s i), run_bind_of_some (run_psciSetReqLocalPwrState s _ _ _),
    run_setPwrDomainState]
  exact ⟨_, rfl, Shallower.set s _ hi (Nat.zero_le _)⟩

theorem coordinate_shallower (cpu : Fin PLATFORM_CORE_COUNT) (hlvls : ∀ lvl ∈ lvls, 1 ≤ lvl ∧ lvl ≤ PLAT_MAX_PWR_LVL)
    (s : Psci) : ∃ t, (coordinate cpu lvls).run s = (some (), t) ∧ Shallower s t := by
  induction lvls generalizing s with
  | nil => exact ⟨s, rfl, Shallower.refl s⟩
  | cons lvl lvls ih =>
    obtain ⟨h1, h2⟩ := hlvls lvl List.mem_cons_self
    have hrest : ∀ l ∈ lvls, 1 ≤ l ∧ l ≤ PLAT_MAX_PWR_LVL := fun l hl => hlvls l (List.mem_cons_of_mem _ hl)
    obtain ⟨i, rfl⟩ : ∃ i : Fin (PLAT_MAX_PWR_LVL + 1), lvl = i := ⟨⟨lvl, Nat.lt_succ_of_le h2⟩, rfl⟩
    have hi : i ≠ 0 := by
      rintro rfl
      exact absurd h1 (by decide)
    unfold coordinate
    rw [run_bind_of_some (run_getPwrDomainState s i), run_bind_of_some (run_psciSetReqLocalPwrState s _ _ _),
      run_bind_get]
    generalize hreq : Function.update s.psciReqLocalPwrStates i
      (Function.update (s.psciReqLocalPwrStates i) cpu (s.pwrDomainState i)) = req
    -- the CPU's own request is among those that the target is the least of
    have hown : req i cpu = s.pwrDomainState i := by
      rw [← hreq]
      simp
    have htarget : platGetTargetPwrState ((domainCpus i cpu).map (req i)) ≤ s.pwrDomainState i := by
      rw [← hown]
      exact (foldl_min_le _ _).2 _ (List.mem_map_of_mem (mem_domainCpus i cpu))
    rw [run_bind_of_some (run_setPwrDomainState _ i _)]
    have hset := Shallower.set s req hi htarget
    rw [run_ite]
    split_ifs
    · obtain ⟨t, ht, hst⟩ := forLevels_induct Shallower Shallower.refl (fun _ _ _ => Shallower.trans)
        (fun l hl => keepUp_shallower cpu (hrest l hl).1 (hrest l hl).2) _
      exact ⟨t, ht, hset.trans hst⟩
    · obtain ⟨t, ht, hst⟩ := ih hrest _
      exact ⟨t, ht, hset.trans hst⟩

/-! ## The hook -/

/-- Nothing above the core is turned off without the core, nor above the level of the request. -/
structure WithTheCore (top : ℕ) (ops : List SuspendOp) : Prop where
  core : SuspendOp.pwrc .clusteroff ∈ ops ∨ SuspendOp.suspendToRam ∈ ops → SuspendOp.pwrc .cpuoff ∈ ops
  cluster : SuspendOp.pwrc .clusteroff ∈ ops → 1 ≤ top
  system : SuspendOp.suspendToRam ∈ ops → 2 ≤ top

theorem pwrDomainSuspend_withTheCore {top : ℕ} {req t : Psci} (hreq : Coherent top req) (h : Shallower req t)
    (systemSuspend : Bool) : WithTheCore top (pwrDomainSuspend systemSuspend t) := by
  -- a level that is off after the coordination was to be turned off by the request
  have hoff : ∀ i, t.pwrDomainState i = PLAT_MAX_OFF_STATE → (i : ℕ) ≤ top := by
    intro i hi
    by_contra hgt
    have hle := h.le i
    rw [hreq.above i (Nat.lt_of_not_le hgt), hi] at hle
    exact absurd hle (by decide)
  unfold pwrDomainSuspend rcarPwrDomainSuspend
  by_cases hcore : t.pwrDomainState 0 = PLAT_MAX_OFF_STATE
  · by_cases hcluster : t.pwrDomainState 1 = PLAT_MAX_OFF_STATE <;>
      by_cases hsystem : systemSuspend = true ∧ t.pwrDomainState 2 = PLAT_MAX_OFF_STATE
    · exact ⟨by simp [hcore], fun _ => hoff 1 hcluster, fun _ => hoff 2 hsystem.2⟩
    · exact ⟨by simp [hcore], fun _ => hoff 1 hcluster, by simp [hcore, hcluster, hsystem]⟩
    · exact ⟨by simp [hcore], by simp [hcore, hcluster, hsystem], fun _ => hoff 2 hsystem.2⟩
    · exact ⟨by simp [hcore], by simp [hcore, hcluster, hsystem], by simp [hcore, hcluster, hsystem]⟩
  · exact ⟨by simp [hcore], by simp [hcore], by simp [hcore]⟩

/-- The request is contained: every access stays in the array, a request that is accepted is coherent, and the call
turns the cluster or the system off only with the core. -/
structure Contained (powerState : BitVec 32) : Prop where
  request : ∀ s, AllRun s → ∃ rc t, (rcarValidatePowerState powerState).run s = (some rc, t) ∧
    (rc = PSCI_E_SUCCESS → Coherent (requested powerState) t)
  suspend : ∀ c s, AllRun s → ∃ r t, (psciCpuSuspend c powerState).run s = (some r, t) ∧
    ∀ ops, r = .suspended ops → WithTheCore (requested powerState) ops

theorem psciValidatePowerState_eq (h : psciCheckPowerState powerState = 0) :
    psciValidatePowerState powerState = rcarValidatePowerState powerState := by
  unfold psciValidatePowerState
  rw [if_neg (not_not.mpr h)]

theorem psciCpuSuspend_withTheCore (h : psciCheckPowerState powerState = 0) (hpast : ¬PastTheEnd powerState)
    (c : SuspendCall) (hs : AllRun s) : ∃ r t, (psciCpuSuspend c powerState).run s = (some r, t) ∧
      ∀ ops, r = .suspended ops → WithTheCore (requested powerState) ops := by
  obtain ⟨rc, t, hrun, hrc⟩ := rcarValidatePowerState_returns hpast s
  rw [← psciValidatePowerState_eq h] at hrun
  unfold psciCpuSuspend
  rw [run_bind_of_some hrun]
  by_cases hok : rc = PSCI_E_SUCCESS
  · obtain ⟨rfl, hlvl, hstandby⟩ := hrc hok
    have htarget := findTarget_requestState hs hlvl hstandby
    have hvalid : requested powerState ≠ PSCI_INVALID_PWR_LVL := Nat.ne_of_lt (Nat.lt_succ_of_le hlvl)
    rw [if_neg (not_not.mpr hok), run_bind_get, htarget, if_neg hvalid]
    by_cases hfast : psciGetPstateType powerState = 0 ∧ requested powerState = 0
    · have hget : (getPwrDomainState PSCI_CPU_PWR_LVL).run _ = _ := run_getPwrDomainState (requestState powerState s) 0
      rw [if_pos hfast]
      exact ⟨_, _, run_bind_of_some hget _, fun ops hops => by cases hops⟩
    · rw [if_neg hfast]
      by_cases hentry : psciGetPstateType powerState ≠ 0 ∧ c.entrypoint ≠ PSCI_E_SUCCESS
      · rw [if_pos hentry]
        exact ⟨_, _, rfl, fun ops hops => by cases hops⟩
      · rw [if_neg hentry]
        by_cases hpending : c.pending = true
        · rw [if_pos hpending]
          exact ⟨_, _, rfl, fun ops hops => by cases hops⟩
        · have hlvls : ∀ lvl ∈ List.range' (PSCI_CPU_PWR_LVL + 1) (requested powerState),
              1 ≤ lvl ∧ lvl ≤ PLAT_MAX_PWR_LVL := by
            intro lvl hmem
            obtain ⟨h1, h2⟩ := List.mem_range'_1.mp hmem
            unfold PSCI_CPU_PWR_LVL at h2
            exact ⟨h1, by omega⟩
          obtain ⟨u, hu, hshallower⟩ := coordinate_shallower c.cpu hlvls (requestState powerState s)
          rw [if_neg hpending]
          change ∃ r t, (coordinate _ _ >>= _ : Prog Psci SuspendResult).run _ = _ ∧ _
          rw [run_bind_of_some hu, run_bind_get]
          refine ⟨_, u, rfl, fun ops hops => ?_⟩
          cases hops
          exact pwrDomainSuspend_withTheCore (requestState_coherent hs hlvl) hshallower _
  · rw [if_pos hok]
    exact ⟨_, t, rfl, fun ops hops => by cases hops⟩

/-- A request that passes the generic check is contained exactly when it is no power-down past the last level. -/
theorem contained_iff (h : psciCheckPowerState powerState = 0) : Contained powerState ↔ ¬PastTheEnd powerState := by
  constructor
  · intro hcontained hpast
    obtain ⟨rc, t, hrun, -⟩ := hcontained.request ⟨fun _ => PSCI_LOCAL_STATE_RUN, fun _ _ => 0⟩ fun _ => rfl
    have hfault := rcarValidatePowerState_faults hpast ⟨fun _ => PSCI_LOCAL_STATE_RUN, fun _ _ => 0⟩
    rw [hrun] at hfault
    cases hfault
  · intro hpast
    refine ⟨fun s hs => ?_, fun c s hs => psciCpuSuspend_withTheCore h hpast c hs⟩
    obtain ⟨rc, t, hrun, hrc⟩ := rcarValidatePowerState_returns hpast s
    refine ⟨rc, t, hrun, fun hok => ?_⟩
    obtain ⟨rfl, hlvl, -⟩ := hrc hok
    exact requestState_coherent hs hlvl

/-- Power down at level 3: the byte behind the request is written. -/
theorem level3_not_contained : ¬∀ powerState, psciCheckPowerState powerState = 0 → Contained powerState := by
  intro hall
  obtain ⟨rc, t, hrun, -⟩ := (hall 0x03010000#32 (by decide)).request
    ⟨fun _ => PSCI_LOCAL_STATE_RUN, fun _ _ => 0⟩ fun _ => rfl
  have hpast : PastTheEnd 0x03010000#32 := by decide
  have hfault := rcarValidatePowerState_faults hpast ⟨fun _ => PSCI_LOCAL_STATE_RUN, fun _ _ => 0⟩
  rw [hrun] at hfault
  cases hfault

theorem cluster_off_contained : Contained 0x01010000#32 := (contained_iff (by decide)).mpr (by decide)

end RCar.Bl31
