import RCarM3N.Model.PlatPm
import RCarM3N.Proofs.Pwrc

/-! Whom system off turns off. It hands the affinity fields of the caller to `rcar_pwrc_cpuoff`, which compares them
with the whole of `MPIDR_EL1`. -/

namespace RCar.Bl31

open Prog

variable {p : Pwrc} {me boot : ℕ} {d3 : Bool}

/-! ## The purpose -/

/-- The first CPU bit, the bit of the whole cluster and the power status register of a cluster. -/
def Cluster.bits : Cluster → ℕ × ℕ
  | .ca53 => (STATE_CA53_CPU, RCAR_CA53CPU_NUM_MAX)
  | _ => (STATE_CA57_CPU, RCAR_CA57CPU_NUM_MAX)

def Cluster.pstr : Cluster → ℕ
  | .ca53 => RCAR_CA53PSTR
  | _ => RCAR_CA57PSTR

/-- The product register reports core `j` of the cluster as present. -/
def Present (prr : BitVec 32) (c : Cluster) (j : ℕ) : Prop :=
  prr &&& 1#32 <<< (c.bits.1 + c.bits.2) = 0 ∧ j < c.bits.2 ∧ prr &&& 1#32 <<< (c.bits.1 + j) = 0

/-- The cluster of the caller. -/
def callerCluster (prr : BitVec 32) (me : ℕ) : Cluster :=
  if socCluster prr = .a53a57 then
    if me &&& 0xffff &&& MPIDR_CLUSTER_MASK ≠ 0 then .ca53 else .ca57
  else socCluster prr

/-- The caller is not the boot CPU, and every other CPU that is present has a nonzero power status. -/
structure MayTurnOff (p : Pwrc) (boot me : ℕ) : Prop where
  notBoot : me &&& 0xffff ≠ boot
  others : ∀ c, c = .ca53 ∨ c = .ca57 → ∀ j, Present (p.reg RCAR_PRR) c j →
    ¬(c = callerCluster (p.reg RCAR_PRR) me ∧ j = me &&& MPIDR_CPU_MASK) → p.reg c.pstr >>> (j * 4) &&& 3#32 ≠ 0

/-- The power control of the caller, and the common one of its cluster. -/
def cpuControl (prr : BitVec 32) (me : ℕ) : ℕ :=
  (if callerCluster prr me = .ca53 then RCAR_CA53CPU0CR else RCAR_CA57CPU0CR) + (me &&& MPIDR_CPU_MASK) * 0x10

def clusterControl (prr : BitVec 32) (me : ℕ) : ℕ :=
  if callerCluster prr me = .ca53 then RCAR_CA53CPUCMCR else RCAR_CA57CPUCMCR

/-- System off reaches its WFI with both registers off when it may, and else panics before it writes them. -/
structure TurnsOff (d3 : Bool) (boot me : ℕ) (p : Pwrc) : Prop where
  off : MayTurnOff p boot me → ∃ p', (rcarSystemOff d3 boot me).run p = (some (), p') ∧
    p'.reg (cpuControl (p.reg RCAR_PRR) me) = CPU_PWR_OFF ∧
    p'.reg (clusterControl (p.reg RCAR_PRR) me) = MODE_L2_DOWN
  panics : ¬MayTurnOff p boot me → ∃ p', (rcarSystemOff d3 boot me).run p = (none, p') ∧
    p'.reg (cpuControl (p.reg RCAR_PRR) me) = p.reg (cpuControl (p.reg RCAR_PRR) me) ∧
    p'.reg (clusterControl (p.reg RCAR_PRR) me) = p.reg (clusterControl (p.reg RCAR_PRR) me)

/-! ## The checks only read -/

theorem run_mmioRead32 (p : Pwrc) (a : ℕ) : (mmioRead32 a).run p = (some (p.reg a), p) := rfl

theorem rcarPwrcGetCpuNum_reads (d3 : Bool) (c : Cluster) (p : Pwrc) :
    ∃ n, (rcarPwrcGetCpuNum d3 c).run p = (some n, p) := by
  unfold rcarPwrcGetCpuNum
  cases d3 with
  | true => exact ⟨1, rfl⟩
  | false => exact ⟨_, by simp only [Bool.false_eq_true, if_false]; exact run_bind_of_some (run_mmioRead32 p _) _⟩

theorem cpuOnCheckCluster_reads (mine : Cluster) (myCpu : ℕ) (c : Cluster) (reg : ℕ) (js : List ℕ) (rtn : ℤ)
    (p : Pwrc) : ∃ r, (cpuOnCheckCluster mine myCpu c reg js rtn).run p = (some r, p) := by
  induction js generalizing rtn with
  | nil => exact ⟨rtn, rfl⟩
  | cons j js ih =>
    unfold cpuOnCheckCluster
    rw [run_ite]
    split_ifs with hother
    · rw [run_bind_of_some (run_mmioRead32 p reg), run_ite]
      split_ifs
      · exact ih (rtn - 1)
      · exact ih rtn
    · exact ih rtn

theorem rcarPwrcCpuOnCheck_reads (d3 : Bool) (mpidr : ℕ) (p : Pwrc) :
    ∃ r, (rcarPwrcCpuOnCheck d3 mpidr).run p = (some r, p) := by
  obtain ⟨n53, h53⟩ := rcarPwrcGetCpuNum_reads d3 .ca53 p
  obtain ⟨n57, h57⟩ := rcarPwrcGetCpuNum_reads d3 .ca57 p
  obtain ⟨r, hr⟩ := cpuOnCheckCluster_reads (socCluster (p.reg RCAR_PRR)) (mpidr &&& MPIDR_CPU_MASK) .ca53
    RCAR_CA53PSTR (List.range n53) 0 p
  obtain ⟨r', hr'⟩ := cpuOnCheckCluster_reads (socCluster (p.reg RCAR_PRR)) (mpidr &&& MPIDR_CPU_MASK) .ca57
    RCAR_CA57PSTR (List.range n57) r p
  unfold rcarPwrcCpuOnCheck
  rw [run_bind_of_some (run_rcarPwrcGetCluster p), run_bind_of_some h53, run_bind_of_some hr, run_bind_of_some h57]
  exact ⟨r', hr'⟩

/-! ## The panic -/

theorem rcarPwrcGetMpidrCluster_reads (mpidr : ℕ) (p : Pwrc) :
    ∃ c, (rcarPwrcGetMpidrCluster mpidr).run p = (some c, p) := by
  unfold rcarPwrcGetMpidrCluster
  rw [run_bind_of_some (run_rcarPwrcGetCluster p), run_ite, run_ite]
  split_ifs
  · exact ⟨.ca53, rfl⟩
  · exact ⟨.ca57, rfl⟩
  · exact ⟨_, rfl⟩

theorem rcarPwrcCpuoff_panics {mpidr : ℕ} (h : me ≠ mpidr) (p : Pwrc) :
    (rcarPwrcCpuoff me mpidr).run p = (none, p) := by
  obtain ⟨c, hc⟩ := rcarPwrcGetMpidrCluster_reads mpidr p
  unfold rcarPwrcCpuoff
  simp only [if_pos h]
  rw [run_bind_of_some hc]
  exact run_bind_of_none (run_stuck p) _

/-- Bit 31 is not among the affinity fields. -/
theorem masked_ne (h : me.testBit 31 = true) : me ≠ me &&& 0xffff := by
  intro heq
  have hbit : (me &&& 0xffff).testBit 31 = false := by
    rw [Nat.testBit_and, show (0xffff : ℕ).testBit 31 = false by decide, Bool.and_false]
  rw [← heq, h] at hbit
  cases hbit

theorem rcarSystemOff_panics (h : me.testBit 31 = true) (d3 : Bool) (boot : ℕ) (p : Pwrc) :
    (rcarSystemOff d3 boot me).run p = (none, p) := by
  obtain ⟨r, hr⟩ := rcarPwrcCpuOnCheck_reads d3 (me &&& 0xffff) p
  have hoff := rcarPwrcCpuoff_panics (masked_ne h) p
  unfold rcarSystemOff
  rw [run_bind_of_some hr, run_ite]
  by_cases hboot : me &&& 0xffff = boot
  · rw [if_pos hboot]
    exact run_bind_of_none (run_stuck p) _
  · rw [if_neg hboot]
    by_cases hon : r ≠ 0
    · simp only [if_pos hon]
      exact run_bind_of_none (run_stuck p) _
    · simp only [if_neg hon]
      exact run_bind_of_none hoff _

/-- The registers are as they should be exactly when nothing is to be turned off: the caller is the boot CPU, or another
CPU is on. -/
theorem turnsOff_iff (d3 : Bool) (boot : ℕ) (h : me.testBit 31 = true) (p : Pwrc) :
    TurnsOff d3 boot me p ↔ ¬MayTurnOff p boot me := by
  have hrun := rcarSystemOff_panics h d3 boot p
  constructor
  · intro hoff hmay
    obtain ⟨p', hp', -⟩ := hoff.off hmay
    rw [hrun] at hp'
    cases hp'
  · intro hmay
    exact ⟨fun hmay' => absurd hmay' hmay, fun _ => ⟨p, hrun, rfl, rfl⟩⟩

/-- An H3 of which only the second CA57 core is on. -/
def lastCore : Pwrc where
  reg a := if a = RCAR_PRR then 0x4F30#32 else if a = RCAR_CA57PSTR then 0x3303#32 else
    if a = RCAR_CA53PSTR then 0x3333#32 else 0#32

theorem lastCore_mayTurnOff : MayTurnOff lastCore 0 0x80000001 := by
  refine ⟨by decide, ?_⟩
  rintro c (rfl | rfl) j ⟨-, hj, -⟩ hother <;> replace hj : j < 4 := hj
  · interval_cases j <;> decide
  · interval_cases j
    · decide
    · exact absurd ⟨by decide, by decide⟩ hother
    · decide
    · decide

theorem lastCore_panics : ¬TurnsOff false 0 0x80000001 lastCore := by
  intro hoff
  obtain ⟨p', hp', -⟩ := hoff.off lastCore_mayTurnOff
  rw [rcarSystemOff_panics (by decide)] at hp'
  cases hp'

/-- The boot CPU is not turned off. -/
theorem bootCore_turnsOff : TurnsOff false 1 0x80000001 lastCore :=
  (turnsOff_iff false 1 (by decide) lastCore).mpr fun h => h.notBoot (by decide)

end RCar.Bl31
