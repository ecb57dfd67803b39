import RCarM3N.Lib.Runs
import RCarM3N.Model.Pwrc

/-! The wake-up masks of the CPUs over every interleaving of the power domain handlers: when an
operation on one CPU leaves the bits of the others alone. -/

namespace RCar.Bl31

open Prog

variable {p p' : Pwrc} {s t : System} {c : Cpu} {cpus : Set Cpu} {prr : BitVec 32} {d3 : Bool}

/-! ## The operations -/

/-- The clusters that the product register announces. -/
def socCluster (prr : BitVec 32) : Cluster :=
  if prr &&& 1#32 <<< (STATE_CA53_CPU + RCAR_CA53CPU_NUM_MAX) ≠ 0 then .ca57
  else if prr &&& 1#32 <<< (STATE_CA57_CPU + RCAR_CA57CPU_NUM_MAX) ≠ 0 then .ca53
  else .a53a57

def cpuCluster (prr : BitVec 32) (c : Cpu) : Cluster :=
  if socCluster prr = .a53a57 then if c.cluster ≠ 0 then .ca53 else .ca57 else socCluster prr

/-- The register with the wake-up bits of a CPU. -/
def wakeupReg (prr : BitVec 32) (c : Cpu) : ℕ :=
  if cpuCluster prr c = .ca53 then RCAR_WUPMSKCA53 else RCAR_WUPMSKCA57

theorem mpidr_cluster (c : Cpu) : c.mpidr &&& MPIDR_CLUSTER_MASK ≠ 0 ↔ c.cluster ≠ 0 := by
  obtain ⟨cluster, core⟩ := c
  revert cluster core
  decide

theorem mpidr_core (c : Cpu) : c.mpidr &&& MPIDR_CPU_MASK = c.core := by
  obtain ⟨cluster, core⟩ := c
  revert cluster core
  decide

theorem run_rcarPwrcGetCluster (p : Pwrc) :
    rcarPwrcGetCluster.run p = (some (socCluster (p.reg RCAR_PRR)), p) := by
  unfold rcarPwrcGetCluster socCluster mmioRead32
  rw [Prog.bind_assoc, run_bind_get, run_bind_pure, run_ite, run_ite]
  split_ifs <;> rfl

theorem run_rcarPwrcGetMpidrCluster (p : Pwrc) (c : Cpu) :
    (rcarPwrcGetMpidrCluster c.mpidr).run p = (some (cpuCluster (p.reg RCAR_PRR) c), p) := by
  unfold rcarPwrcGetMpidrCluster cpuCluster
  rw [run_bind_of_some (run_rcarPwrcGetCluster p), run_ite]
  simp only [run_ite, mpidr_cluster]
  split_ifs with h1 <;> rfl

/-- The word that enables the wake-up of a core. -/
def enableWord (core : Fin 4) : BitVec 32 :=
  ~~~(1#32 <<< (WUP_IRQ_SHIFT + core)) &&& ~~~(1#32 <<< (WUP_FIQ_SHIFT + core))

/-- The word that disables it. -/
def disableWord (core : Fin 4) : BitVec 32 :=
  1#32 <<< (WUP_IRQ_SHIFT + core) ||| 1#32 <<< (WUP_FIQ_SHIFT + core)

theorem run_enable (p : Pwrc) (c : Cpu) :
    (rcarPwrcEnableInterruptWakeup c.mpidr).run p = (some (), { p with
      reg := Function.update p.reg (wakeupReg (p.reg RCAR_PRR) c) (enableWord c.core) }) := by
  unfold rcarPwrcEnableInterruptWakeup
  simp only [mpidr_core]
  rw [run_bind_of_some (run_rcarPwrcGetMpidrCluster p c)]
  rfl

theorem run_disable (p : Pwrc) (c : Cpu) :
    (rcarPwrcDisableInterruptWakeup c.mpidr).run p = (some (), { p with
      reg := Function.update p.reg (wakeupReg (p.reg RCAR_PRR) c) (disableWord c.core) }) := by
  unfold rcarPwrcDisableInterruptWakeup
  simp only [mpidr_core]
  rw [run_bind_of_some (run_rcarPwrcGetMpidrCluster p c)]
  rfl

/-- The registers that no other operation writes. -/
def Untouched (a : ℕ) : Prop := a = RCAR_PRR ∨ a = RCAR_WUPMSKCA57 ∨ a = RCAR_WUPMSKCA53

theorem cpuoff_untouched {a : ℕ} (ha : Untouched a)
    (h : (rcarPwrcCpuoff c.mpidr c.mpidr).run p = (some (), p')) : p'.reg a = p.reg a := by
  unfold rcarPwrcCpuoff at h
  simp only [mpidr_core] at h
  rw [run_bind_of_some (run_rcarPwrcGetMpidrCluster p c), if_neg (not_not.mpr rfl)] at h
  obtain ⟨-, rfl⟩ := run_unique h rfl
  have hcore := c.core.isLt
  have h1 : a ≠ CPG_CPGWPR := by
    rcases ha with rfl | rfl | rfl <;> decide
  have h2 : a ≠ (if cpuCluster (p.reg RCAR_PRR) c = .ca53 then RCAR_CA53CPU0CR
      else RCAR_CA57CPU0CR) + c.core * 0x0010 := by
    rcases ha with rfl | rfl | rfl <;> split_ifs <;>
      simp only [RCAR_PRR, RCAR_WUPMSKCA57, RCAR_WUPMSKCA53, RCAR_CA53CPU0CR, RCAR_CA57CPU0CR] <;>
      omega
  simp only [Function.update_of_ne h2, Function.update_of_ne h1]

theorem clusteroff_untouched {a : ℕ} (ha : Untouched a)
    (h : (rcarPwrcClusteroff c.mpidr).run p = (some (), p')) : p'.reg a = p.reg a := by
  obtain ⟨dst, hdst⟩ : ∃ dst, (if cpuCluster (p.reg RCAR_PRR) c = .ca53 then RCAR_CA53CPUCMCR
      else RCAR_CA57CPUCMCR) = dst := ⟨_, rfl⟩
  have hne : a ≠ dst := by
    rw [← hdst]
    rcases ha with rfl | rfl | rfl <;> split_ifs <;> decide
  unfold rcarPwrcClusteroff mmioRead32 at h
  rw [Prog.bind_assoc, run_bind_get, run_bind_pure,
    run_bind_of_some (run_rcarPwrcGetMpidrCluster p c)] at h
  simp only [hdst, run_ite] at h
  split_ifs at h
  · rw [(run_unique h (run_pure _ _)).2]
  · rw [(run_unique h (run_pure _ _)).2]
  · obtain ⟨-, rfl⟩ := run_unique h rfl
    exact Function.update_of_ne hne _ _

/-! ## The bits -/

theorem enableWord_bit (i j : Fin 4) {shift : ℕ} (h : shift = WUP_IRQ_SHIFT ∨ shift = WUP_FIQ_SHIFT) :
    (enableWord i).getLsbD (shift + j) = !decide (j = i) := by
  rcases h with rfl | rfl <;> revert i j <;> decide

theorem disableWord_bit (i j : Fin 4) {shift : ℕ}
    (h : shift = WUP_IRQ_SHIFT ∨ shift = WUP_FIQ_SHIFT) :
    (disableWord i).getLsbD (shift + j) = decide (j = i) := by
  rcases h with rfl | rfl <;> revert i j <;> decide

/-- With one cluster on the chip, every CPU has cluster number 0. -/
def OnChip (prr : BitVec 32) (cpus : Set Cpu) : Prop :=
  ∀ c ∈ cpus, socCluster prr = .a53a57 ∨ c.cluster = 0

/-- Two CPUs with the same wake-up register differ in their core number. -/
theorem core_ne {d : Cpu} (hcpus : OnChip prr cpus) (hc : c ∈ cpus) (hd : d ∈ cpus) (hne : d ≠ c)
    (hreg : wakeupReg prr d = wakeupReg prr c) : d.core ≠ c.core := by
  intro hcore
  have hcluster : d.cluster = c.cluster := by
    by_cases hsoc : socCluster prr = .a53a57
    · have hregs : RCAR_WUPMSKCA53 ≠ RCAR_WUPMSKCA57 := by decide
      by_cases hc0 : c.cluster = 0 <;> by_cases hd0 : d.cluster = 0 <;>
        simp [wakeupReg, cpuCluster, hsoc, hc0, hd0, hregs, hregs.symm] at hreg ⊢
      omega
    · rw [(hcpus c hc).resolve_left hsoc, (hcpus d hd).resolve_left hsoc]
  exact hne (by
    cases c
    cases d
    simp_all)

/-- The wake-up bits of every CPU are clear exactly if its last wake-up operation enabled it. -/
def WakeupBits (prr : BitVec 32) (cpus : Set Cpu) (s : System) : Prop :=
  ∀ c ∈ cpus, ∀ shift, shift = WUP_IRQ_SHIFT ∨ shift = WUP_FIQ_SHIFT →
    (s.pwrc.reg (wakeupReg prr c)).getLsbD (shift + c.core) = !s.armed c

/-- The other CPUs of the register are all as the write of the event leaves them: it masks every
other CPU when it enables one, and unmasks every other when it disables one. -/
def Spares (prr : BitVec 32) (cpus : Set Cpu) (s : System) (r : Cpu × PowerEvent) : Prop :=
  match r.2 with
  | .op .enableInterruptWakeup =>
    ∀ d ∈ cpus, d ≠ r.1 → wakeupReg prr d = wakeupReg prr r.1 → s.armed d = false
  | .op .disableInterruptWakeup =>
    ∀ d ∈ cpus, d ≠ r.1 → wakeupReg prr d = wakeupReg prr r.1 → s.armed d = true
  | _ => True

/-- The bits after a write to the register of `c` that has `c` as it should be. -/
theorem wakeupBits_write {w : BitVec 32} {b : Bool} {todo : Cpu → List PwrcOp}
    (hcpus : OnChip prr cpus) (hc : c ∈ cpus) (hs : WakeupBits prr cpus s)
    (hw : ∀ (j : Fin 4) shift, shift = WUP_IRQ_SHIFT ∨ shift = WUP_FIQ_SHIFT →
      w.getLsbD (shift + j) = if j = c.core then !b else b) :
    WakeupBits prr cpus { s with
        pwrc := { s.pwrc with reg := Function.update s.pwrc.reg (wakeupReg prr c) w }
        todo := todo
        armed := Function.update s.armed c b } ↔
      ∀ d ∈ cpus, d ≠ c → wakeupReg prr d = wakeupReg prr c → s.armed d = !b := by
  constructor
  · intro h d hd hne hreg
    have hbit := h d hd WUP_IRQ_SHIFT (.inl rfl)
    simp only [hreg, Function.update_self, Function.update_of_ne hne] at hbit
    rw [hw _ _ (.inl rfl), if_neg (core_ne hcpus hc hd hne hreg)] at hbit
    rw [hbit, Bool.not_not]
  · intro h d hd shift hshift
    by_cases hreg : wakeupReg prr d = wakeupReg prr c
    · simp only [hreg, Function.update_self]
      rw [hw _ _ hshift]
      by_cases hne : d = c
      · subst hne
        rw [if_pos rfl, Function.update_self]
      · rw [if_neg (core_ne hcpus hc hd hne hreg), Function.update_of_ne hne, h d hd hne hreg,
          Bool.not_not]
    · have hne : d ≠ c := fun h => hreg (by rw [h])
      simp only [Function.update_of_ne hreg, Function.update_of_ne hne]
      exact hs d hd shift hshift

/-- The bits after a step that writes no wake-up register. -/
theorem wakeupBits_same {s' : System} (hs : WakeupBits prr cpus s) (harmed : s'.armed = s.armed)
    (hreg : ∀ a, Untouched a → s'.pwrc.reg a = s.pwrc.reg a) : WakeupBits prr cpus s' := by
  intro c hc shift hshift
  have huntouched : Untouched (wakeupReg prr c) := by
    unfold wakeupReg
    split_ifs
    · exact .inr (.inr rfl)
    · exact .inr (.inl rfl)
  rw [hreg _ huntouched, harmed]
  exact hs c hc shift hshift

/-! ## Every interleaving -/

/-- The step lemma. -/
theorem wakeupBits_step {r : Cpu × PowerEvent} (hcpus : OnChip prr cpus)
    (hprr : s.pwrc.reg RCAR_PRR = prr) (hs : WakeupBits prr cpus s)
    (h : PowerStep d3 cpus s r t) :
    t.pwrc.reg RCAR_PRR = prr ∧ (WakeupBits prr cpus t ↔ Spares prr cpus s r) := by
  have hkept : ∀ {c : Cpu} {op : PwrcOp} {p : Pwrc}, (∀ a, Untouched a → p.reg a = s.pwrc.reg a) →
      op.arm (s.armed c) = s.armed c → ∀ todo, WakeupBits prr cpus { s with
        pwrc := p
        todo := todo
        armed := Function.update s.armed c (op.arm (s.armed c)) } := by
    intro c op p hreg harm todo
    refine wakeupBits_same hs ?_ hreg
    rw [harm, Function.update_eq_self]
  have hwrite : ∀ c : Cpu, RCAR_PRR ≠ wakeupReg prr c := by
    intro c
    unfold wakeupReg
    split_ifs <;> decide
  cases h with
  | suspend st hc h hp => exact ⟨hprr, ⟨fun _ => trivial, fun _ => wakeupBits_same hs rfl fun _ _ => rfl⟩⟩
  | off st hc h hp => exact ⟨hprr, ⟨fun _ => trivial, fun _ => wakeupBits_same hs rfl fun _ _ => rfl⟩⟩
  | suspendFinish st hc h hp =>
    exact ⟨hprr, ⟨fun _ => trivial, fun _ => wakeupBits_same hs rfl fun _ _ => rfl⟩⟩
  | onFinish st hc h hp =>
    exact ⟨hprr, ⟨fun _ => trivial, fun _ => wakeupBits_same hs rfl fun _ _ => rfl⟩⟩
  | @op c op l p hc h hrun =>
    cases op with
    | cpuoff =>
      have hreg : ∀ a, Untouched a → p.reg a = s.pwrc.reg a := fun a ha => cpuoff_untouched ha hrun
      exact ⟨(hreg _ (.inl rfl)).trans hprr, ⟨fun _ => trivial, fun _ => hkept hreg rfl _⟩⟩
    | clusteroff =>
      have hreg : ∀ a, Untouched a → p.reg a = s.pwrc.reg a := fun a ha => clusteroff_untouched ha hrun
      exact ⟨(hreg _ (.inl rfl)).trans hprr, ⟨fun _ => trivial, fun _ => hkept hreg rfl _⟩⟩
    | enableInterruptWakeup =>
      obtain ⟨-, rfl⟩ := run_unique hrun (run_enable s.pwrc c)
      simp only [hprr]
      refine ⟨(Function.update_of_ne (hwrite c) _ _).trans hprr,
        wakeupBits_write hcpus hc hs fun j shift hshift => ?_⟩
      rw [enableWord_bit _ _ hshift]
      by_cases hj : j = c.core <;> simp [hj, PwrcOp.arm]
    | disableInterruptWakeup =>
      obtain ⟨-, rfl⟩ := run_unique hrun (run_disable s.pwrc c)
      simp only [hprr]
      refine ⟨(Function.update_of_ne (hwrite c) _ _).trans hprr,
        wakeupBits_write hcpus hc hs fun j shift hshift => ?_⟩
      rw [disableWord_bit _ _ hshift]
      by_cases hj : j = c.core <;> simp [hj, PwrcOp.arm]

/-- All mask bits are set and no CPU has its wake-up enabled. -/
structure MaskedAtReset (s : System) : Prop where
  ca57 : s.pwrc.reg RCAR_WUPMSKCA57 = BitVec.allOnes 32
  ca53 : s.pwrc.reg RCAR_WUPMSKCA53 = BitVec.allOnes 32
  armed : ∀ c, s.armed c = false

theorem wakeupBits_reset (h : MaskedAtReset s) : WakeupBits prr cpus s := by
  intro c hc shift hshift
  have hreg : s.pwrc.reg (wakeupReg prr c) = BitVec.allOnes 32 := by
    unfold wakeupReg
    split_ifs
    · exact h.ca53
    · exact h.ca57
  have hcore := c.core.isLt
  rw [hreg, h.armed c, BitVec.getLsbD_allOnes]
  have hlt : shift + c.core < 32 := by
    rcases hshift with rfl | rfl
    · unfold WUP_IRQ_SHIFT
      omega
    · unfold WUP_FIQ_SHIFT
      omega
  exact decide_eq_true hlt

theorem wakeupBits_run_iff {l : List (System × (Cpu × PowerEvent) × System)}
    (hcpus : OnChip prr cpus) (hprr : s.pwrc.reg RCAR_PRR = prr) (hs : WakeupBits prr cpus s)
    (h : Runs (PowerStep d3 cpus) s l t) :
    (∀ x ∈ l, WakeupBits prr cpus x.2.2) ↔ ∀ x ∈ l, Spares prr cpus x.1 x.2.1 := by
  induction h with
  | nil => simp
  | cons h hl ih =>
    obtain ⟨hprr', hiff⟩ := wakeupBits_step hcpus hprr hs h
    rw [List.forall_mem_cons, List.forall_mem_cons]
    constructor
    · rintro ⟨hfirst, hrest⟩
      exact ⟨hiff.mp hfirst, (ih hprr' hfirst).mp hrest⟩
    · rintro ⟨hspares, hrest⟩
      have hfirst := hiff.mpr hspares
      exact ⟨hfirst, (ih hprr' hfirst).mpr hrest⟩

/-- From reset, over every interleaving: the wake-up bits of all CPUs are right after every step if
and only if no wake-up operation finds another CPU of its register in the other state. -/
theorem wakeup_independent_iff {l : List (System × (Cpu × PowerEvent) × System)}
    (hcpus : OnChip (s.pwrc.reg RCAR_PRR) cpus) (hreset : MaskedAtReset s)
    (h : Runs (PowerStep d3 cpus) s l t) :
    (∀ x ∈ l, WakeupBits (s.pwrc.reg RCAR_PRR) cpus x.2.2) ↔
      ∀ x ∈ l, Spares (s.pwrc.reg RCAR_PRR) cpus x.1 x.2.1 :=
  wakeupBits_run_iff hcpus rfl (wakeupBits_reset hreset) h

/-! ## Two CPUs of an R-Car M3-N -/

def cpu0 : Cpu := ⟨0, 0⟩
def cpu1 : Cpu := ⟨0, 1⟩

/-- An R-Car M3-N, which has only the two CA57, with both of them running. -/
def twoCpus : System where
  pwrc := { reg := fun a => if a = RCAR_PRR then 0x04005500#32 else BitVec.allOnes 32 }
  power _ := .running
  todo _ := []
  armed _ := false

def coreOff : PsciPowerState := ⟨PLAT_MAX_OFF_STATE, 0⟩

/-- A CPU enters its suspend handler and makes the first operation. -/
def afterEnable (c : Cpu) (s : System) : System :=
  { s.enter c .suspended (rcarPwrDomainSuspend coreOff) with
    pwrc :=
      { reg := Function.update s.pwrc.reg (wakeupReg (s.pwrc.reg RCAR_PRR) c) (enableWord c.core) }
    todo := Function.update (s.enter c .suspended (rcarPwrDomainSuspend coreOff)).todo c [.cpuoff]
    armed := Function.update s.armed c true }

theorem runs_afterEnable {l : List (System × (Cpu × PowerEvent) × System)} (hc : c ∈ cpus)
    (htodo : s.todo c = []) (hp : s.power c = .running)
    (hl : Runs (PowerStep d3 cpus) (afterEnable c s) l t) :
    Runs (PowerStep d3 cpus) s
      ((s, (c, .suspend coreOff), s.enter c .suspended (rcarPwrDomainSuspend coreOff)) ::
        (s.enter c .suspended (rcarPwrDomainSuspend coreOff), (c, .op .enableInterruptWakeup),
          afterEnable c s) :: l) t := by
  have hrun : (PwrcOp.enableInterruptWakeup.prog c.mpidr).run s.pwrc = _ := run_enable s.pwrc c
  exact .cons (.suspend coreOff hc htodo hp) (.cons (.op hc (Function.update_self _ _ _) hrun) hl)

theorem onChip_twoCpus : OnChip (twoCpus.pwrc.reg RCAR_PRR) {cpu0, cpu1} := by
  rintro c (rfl | rfl) <;> exact .inr rfl

theorem reset_twoCpus : MaskedAtReset twoCpus := ⟨rfl, rfl, fun _ => rfl⟩

theorem wakeup_independent_cpu0 :
    WakeupBits (twoCpus.pwrc.reg RCAR_PRR) {cpu0, cpu1} (afterEnable cpu0 twoCpus) := by
  have hrun : Runs (PowerStep false {cpu0, cpu1}) twoCpus _ (afterEnable cpu0 twoCpus) :=
    runs_afterEnable (.inl rfl) rfl rfl (.nil _)
  refine (wakeup_independent_iff onChip_twoCpus reset_twoCpus hrun).mpr ?_ _
    (.tail _ (.head _))
  rintro x (_ | ⟨_, _ | ⟨_, ⟨⟩⟩⟩)
  · trivial
  · intro d _ _ _
    rfl

/-- CPU 0 suspends, and then CPU 1: the wake-up of CPU 0 is masked again while it sleeps. -/
theorem second_suspend_masks_first :
    ∃ l t, Runs (PowerStep false {cpu0, cpu1}) twoCpus l t ∧ t.power cpu0 = .suspended ∧
      t.armed cpu0 = true ∧ (t.pwrc.reg RCAR_WUPMSKCA57).getLsbD (WUP_IRQ_SHIFT + cpu0.core) = true ∧
      (t.pwrc.reg RCAR_WUPMSKCA57).getLsbD (WUP_FIQ_SHIFT + cpu0.core) = true :=
  ⟨_, _, runs_afterEnable (.inl rfl) rfl rfl (runs_afterEnable (c := cpu1) (.inr rfl) rfl rfl
    (.nil _)), by decide, by decide, by decide, by decide⟩

end RCar.Bl31
