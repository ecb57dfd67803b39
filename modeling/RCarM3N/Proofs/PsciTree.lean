import RCarM3N.Lib.Blocks
import RCarM3N.Model.Psci

/-! The power domain tree that the PSCI setup builds from a topology: every domain knows exactly the CPUs under it. -/

namespace RCar.Psci

open Bl31

/-- The children of `n` entries of the topology from `p` on. -/
def children (topology : ℕ → ℕ) (p n : ℕ) : ℕ := ∑ i ∈ Finset.range n, topology (p + i)

theorem children_succ (topology : ℕ → ℕ) (p n : ℕ) :
    children topology p (n + 1) = children topology p n + topology (p + n) := Finset.sum_range_succ _ _

theorem children_le (topology : ℕ → ℕ) (p : ℕ) {n m : ℕ} (h : n ≤ m) : children topology p n ≤ children topology p m := by
  apply Finset.sum_le_sum_of_subset
  exact Finset.range_subset_range.mpr h

/-! ## One level -/

/-- The parents of the nodes of a level. -/
def Nodes.parent (d : Nodes) (level : ℕ) : ℕ → ℕ := if level > PSCI_CPU_PWR_LVL then d.parentNode else d.cpuParent

/-- A node of a level that no call has touched yet. -/
def State.Fresh (s : State) (level x : ℕ) : Prop :=
  if level > PSCI_CPU_PWR_LVL then s.localState x = PLAT_MAX_OFF_STATE
  else s.affInfoState x = .off ∧ s.targetPwrlvl x = PSCI_INVALID_PWR_LVL

section Level

variable {topology : ℕ → ℕ} {level : ℕ}

theorem init_parent (parentIdx level : ℕ) (w : Nodes × State) (x : ℕ) :
    (psciInitPwrDomainNode parentIdx level w x).1.parent level = Function.update (w.1.parent level) x parentIdx := by
  unfold psciInitPwrDomainNode Nodes.parent
  split <;> rfl

theorem init_other (parentIdx level : ℕ) (w : Nodes × State) (x : ℕ) {other : ℕ}
    (h : ¬ (other > PSCI_CPU_PWR_LVL ↔ level > PSCI_CPU_PWR_LVL)) :
    (psciInitPwrDomainNode parentIdx level w x).1.parent other = w.1.parent other := by
  unfold psciInitPwrDomainNode Nodes.parent
  split <;> split <;> first | rfl | (exfalso; tauto)

theorem init_limits (parentIdx level : ℕ) (w : Nodes × State) (x : ℕ) :
    (psciInitPwrDomainNode parentIdx level w x).1.cpuStartIdx = w.1.cpuStartIdx ∧
      (psciInitPwrDomainNode parentIdx level w x).1.ncpus = w.1.ncpus := by
  unfold psciInitPwrDomainNode
  split <;> exact ⟨rfl, rfl⟩

theorem init_fresh (parentIdx level : ℕ) (w : Nodes × State) (x : ℕ) :
    (psciInitPwrDomainNode parentIdx level w x).2.Fresh level x := by
  unfold psciInitPwrDomainNode State.Fresh
  split <;> simp

theorem init_fresh_of_fresh (parentIdx level : ℕ) {w : Nodes × State} (x : ℕ) {other y : ℕ} (h : w.2.Fresh other y) :
    (psciInitPwrDomainNode parentIdx level w x).2.Fresh other y := by
  unfold psciInitPwrDomainNode State.Fresh at *
  by_cases hxy : y = x
  · subst hxy
    split <;> split <;> simp_all
  · split <;> split <;> simp_all

/-- What the visit of a level does: `p` is its first entry, `q` its first node. -/
structure Visited (topology : ℕ → ℕ) (level p q n : ℕ) (w : Nodes × State) (v : Walk) : Prop where
  parentNodeIndex : v.parentNodeIndex = p + n
  nodeIndex : v.nodeIndex = q + children topology p n
  next : v.numNodesAtNextLvl = children topology p n
  parent_out : ∀ x < q, v.nodes.parent level x = w.1.parent level x
  parent_mem : 0 < p → ∀ x, q ≤ x → x < q + children topology p n →
    p - 1 ≤ v.nodes.parent level x ∧ v.nodes.parent level x < p - 1 + n
  parent_mono : 0 < p → ∀ x y, q ≤ x → x ≤ y → y < q + children topology p n →
    v.nodes.parent level x ≤ v.nodes.parent level y
  other : ∀ other, ¬ (other > PSCI_CPU_PWR_LVL ↔ level > PSCI_CPU_PWR_LVL) → v.nodes.parent other = w.1.parent other
  limits : v.nodes.cpuStartIdx = w.1.cpuStartIdx ∧ v.nodes.ncpus = w.1.ncpus
  fresh : ∀ x, q ≤ x → x < q + children topology p n → v.state.Fresh level x
  keeps : ∀ other x, w.2.Fresh other x → v.state.Fresh other x

/-- The nodes that one entry gives its children. -/
theorem foldl_init (parentIdx level first count : ℕ) (w : Nodes × State) (h : first + count ≤ 2 ^ 8) :
    let v := (List.range' first count).foldl (fun nodes j => psciInitPwrDomainNode parentIdx level nodes (j % 2 ^ 8)) w
    (∀ x, v.1.parent level x = if first ≤ x ∧ x < first + count then parentIdx else w.1.parent level x) ∧
      (∀ other, ¬ (other > PSCI_CPU_PWR_LVL ↔ level > PSCI_CPU_PWR_LVL) → v.1.parent other = w.1.parent other) ∧
      (v.1.cpuStartIdx = w.1.cpuStartIdx ∧ v.1.ncpus = w.1.ncpus) ∧
      (∀ x, first ≤ x → x < first + count → v.2.Fresh level x) ∧
      ∀ other x, w.2.Fresh other x → v.2.Fresh other x := by
  induction count with
  | zero => exact ⟨fun x => by simp, fun _ _ => rfl, ⟨rfl, rfl⟩, fun x h1 h2 => by omega, fun _ _ h => h⟩
  | succ count ih =>
    obtain ⟨hparent, hother, hlimits, hfresh, hkeeps⟩ := ih (by omega)
    have hcast : (first + count) % 2 ^ 8 = first + count := Nat.mod_eq_of_lt (by omega)
    simp only [List.range'_concat, List.foldl_append, List.foldl_cons, List.foldl_nil, Nat.one_mul, hcast]
    refine ⟨?_, ?_, ?_, ?_, ?_⟩
    · intro x
      rw [init_parent]
      by_cases hx : x = first + count
      · rw [hx, Function.update_self, if_pos (by omega)]
      · rw [Function.update_of_ne hx, hparent x]
        exact if_congr (by omega) rfl rfl
    · intro other hne
      rw [init_other _ _ _ _ hne, hother other hne]
    · rw [(init_limits _ _ _ _).1, (init_limits _ _ _ _).2]
      exact hlimits
    · intro x h1 h2
      by_cases hx : x = first + count
      · rw [hx]
        exact init_fresh _ _ _ _
      · exact init_fresh_of_fresh _ _ _ (hfresh x h1 (by omega))
    · intro other x hx
      exact init_fresh_of_fresh _ _ _ (hkeeps other x hx)

theorem visitLevel_spec (topology : ℕ → ℕ) (level n : ℕ) (w : Walk) (hnodes : w.nodeIndex + children topology w.parentNodeIndex n ≤ 2 ^ 8)
    (hentries : w.parentNodeIndex + n ≤ 2 ^ 32) :
    Visited topology level w.parentNodeIndex w.nodeIndex n (w.nodes, w.state) (visitLevel topology level n w) := by
  unfold visitLevel
  induction n with
  | zero =>
    exact ⟨rfl, rfl, rfl, fun _ _ => rfl, fun _ x h1 h2 => absurd h2 (not_lt.mpr h1),
      fun _ x y h1 h2 h3 => absurd h3 (not_lt.mpr (h1.trans h2)), fun _ _ => rfl, ⟨rfl, rfl⟩,
      fun x h1 h2 => absurd h2 (not_lt.mpr h1), fun _ _ h => h⟩
  | succ n ih =>
    rw [children_succ] at hnodes
    have hv := ih (by omega) (by omega)
    rw [Function.iterate_succ_apply']
    set v := (visitEntry topology level)^[n] { w with numNodesAtNextLvl := 0 } with hvdef
    have hbound : v.nodeIndex + topology v.parentNodeIndex ≤ 2 ^ 8 := by
      rw [hv.nodeIndex, hv.parentNodeIndex]
      omega
    obtain ⟨hparent, hother, hlimits, hfresh, hkeeps⟩ :=
      foldl_init ((v.parentNodeIndex + 2 ^ 32 - 1) % 2 ^ 32) level v.nodeIndex (topology v.parentNodeIndex) (v.nodes, v.state) hbound
    have hidx : 0 < w.parentNodeIndex → (v.parentNodeIndex + 2 ^ 32 - 1) % 2 ^ 32 = w.parentNodeIndex - 1 + n := by
      intro hp
      rw [hv.parentNodeIndex, show w.parentNodeIndex + n + 2 ^ 32 - 1 = w.parentNodeIndex - 1 + n + 2 ^ 32 by omega,
        Nat.add_mod_right, Nat.mod_eq_of_lt (by omega)]
    have hnew : ∀ x, (visitEntry topology level v).nodes.parent level x =
        if w.nodeIndex + children topology w.parentNodeIndex n ≤ x ∧
          x < w.nodeIndex + children topology w.parentNodeIndex n + topology (w.parentNodeIndex + n) then
          (v.parentNodeIndex + 2 ^ 32 - 1) % 2 ^ 32 else v.nodes.parent level x := by
      intro x
      rw [← hv.nodeIndex, ← hv.parentNodeIndex]
      exact hparent x
    refine ⟨?_, ?_, ?_, ?_, ?_, ?_, ?_, ?_, ?_, ?_⟩
    · simp only [visitEntry, hv.parentNodeIndex]
      omega
    · simp only [visitEntry, hv.nodeIndex, hv.parentNodeIndex, children_succ]
      omega
    · simp only [visitEntry, hv.next, hv.parentNodeIndex, children_succ]
    · intro x hx
      rw [hnew, if_neg (by omega)]
      exact hv.parent_out x hx
    · intro hp x h1 h2
      rw [children_succ] at h2
      rw [hnew]
      split
      · rw [hidx hp]
        omega
      · have hold := hv.parent_mem hp x h1 (by omega)
        omega
    · intro hp x y h1 hxy h2
      rw [children_succ] at h2
      rw [hnew y]
      split
      · rw [hnew x]
        split
        · exact le_rfl
        · have hold := hv.parent_mem hp x h1 (by omega)
          rw [hidx hp]
          omega
      · rw [hnew x, if_neg (by omega)]
        exact hv.parent_mono hp x y h1 hxy (by omega)
    · intro other hne
      exact (hother other hne).trans (hv.other other hne)
    · exact ⟨hlimits.1.trans hv.limits.1, hlimits.2.trans hv.limits.2⟩
    · intro x h1 h2
      rw [children_succ] at h2
      by_cases hx : x < w.nodeIndex + children topology w.parentNodeIndex n
      · exact hkeeps level x (hv.fresh x h1 hx)
      · exact hfresh x (by rw [hv.nodeIndex]; omega) (by rw [hv.nodeIndex, hv.parentNodeIndex]; omega)
    · intro other x hx
      exact hkeeps other x (hv.keeps other x hx)

end Level

/-! ## The whole tree -/

/-- A topology with a CPU cluster, of nodes and CPUs that `unsigned char` can number. -/
structure Topology (topology : ℕ → ℕ) : Prop where
  nodes : topology 0 + children topology 1 (topology 0) ≤ 2 ^ 8
  cpus : children topology (1 + topology 0) (children topology 1 (topology 0)) ≤ 2 ^ 8
  clusters : 0 < children topology 1 (topology 0)

/-- The nodes before `split` are of the highest level and the parents of those up to `all`, which are the CPUs'. -/
structure Layers (d : Nodes) (split all : ℕ) : Prop where
  cpu_mem : ∀ c < d.coreCount, split ≤ d.cpuParent c ∧ d.cpuParent c < all
  cpu_mono : ∀ c c', c ≤ c' → c' < d.coreCount → d.cpuParent c ≤ d.cpuParent c'
  node_mem : ∀ x, split ≤ x → x < all → d.parentNode x < split
  node_mono : ∀ x y, split ≤ x → x ≤ y → y < all → d.parentNode x ≤ d.parentNode y

/-- No call has been made. -/
structure Untouched (d : Nodes) (all : ℕ) (s : State) : Prop where
  cpu : ∀ c < d.coreCount, s.affInfoState c = .off ∧ s.targetPwrlvl c = PSCI_INVALID_PWR_LVL
  node : ∀ x < all, s.localState x = PLAT_MAX_OFF_STATE

theorem visitLevel_j (topology : ℕ → ℕ) (level : ℕ) {n : ℕ} (h : 0 < n) (w : Walk) :
    (visitLevel topology level n w).j = (visitLevel topology level n w).nodeIndex := by
  obtain ⟨m, rfl⟩ := Nat.exists_eq_succ_of_ne_zero h.ne'
  rw [visitLevel, Function.iterate_succ_apply']
  rfl

theorem populate_spec {topology : ℕ → ℕ} (h : Topology topology) (w : Nodes × State) :
    let v := populatePowerDomainTree topology w
    v.1.coreCount = children topology (1 + topology 0) (children topology 1 (topology 0)) ∧
      Layers v.1 (topology 0) (topology 0 + children topology 1 (topology 0)) ∧
      Untouched v.1 (topology 0 + children topology 1 (topology 0)) v.2 ∧
      v.1.cpuStartIdx = w.1.cpuStartIdx ∧ v.1.ncpus = w.1.ncpus := by
  have hroot : children topology 0 1 = topology 0 := by simp [children]
  have hnodes := h.nodes
  have hcpus := h.cpus
  -- the highest level
  set w0 : Walk := ⟨w.1, w.2, 0, 0, 0, 0⟩ with hw0
  have h2 := visitLevel_spec topology 2 1 w0 (by rw [hw0, hroot]; simp only; omega) (by rw [hw0]; simp)
  set w2 := visitLevel topology 2 1 w0 with hw2
  have hp2 : w2.parentNodeIndex = 1 := h2.parentNodeIndex
  have hq2 : w2.nodeIndex = topology 0 := by rw [h2.nodeIndex, hw0, hroot, Nat.zero_add]
  have hn2 : w2.numNodesAtNextLvl = topology 0 := by rw [h2.next, hw0, hroot]
  -- the clusters
  have h1 := visitLevel_spec topology 1 w2.numNodesAtNextLvl w2 (by rw [hp2, hq2, hn2]; omega) (by rw [hp2, hn2]; omega)
  set w1 := visitLevel topology 1 w2.numNodesAtNextLvl w2 with hw1
  rw [hp2, hq2, hn2] at h1
  have hp1 : w1.parentNodeIndex = 1 + topology 0 := h1.parentNodeIndex
  have hn1 : w1.numNodesAtNextLvl = children topology 1 (topology 0) := h1.next
  -- the CPUs
  have h0 := visitLevel_spec topology 0 w1.numNodesAtNextLvl { w1 with nodeIndex := 0 }
    (by simp only [hp1, hn1]; omega) (by simp only [hp1, hn1]; omega)
  have hj := visitLevel_j topology 0 (by rw [hn1]; exact h.clusters) { w1 with nodeIndex := 0 } (n := w1.numNodesAtNextLvl)
  have hresult : populatePowerDomainTree topology w =
      ({ (visitLevel topology 0 w1.numNodesAtNextLvl { w1 with nodeIndex := 0 }).nodes with
          coreCount := (visitLevel topology 0 w1.numNodesAtNextLvl { w1 with nodeIndex := 0 }).j },
        (visitLevel topology 0 w1.numNodesAtNextLvl { w1 with nodeIndex := 0 }).state) := rfl
  set v := visitLevel topology 0 w1.numNodesAtNextLvl { w1 with nodeIndex := 0 } with hv
  simp only [hp1, hn1] at h0
  rw [h0.nodeIndex, Nat.zero_add] at hj
  rw [hresult]
  have hcpuParent : v.nodes.cpuParent = v.nodes.parent 0 := rfl
  have hparentNode : v.nodes.parentNode = w1.nodes.parent 1 := h0.other 1 (by simp [PSCI_CPU_PWR_LVL])
  refine ⟨hj, ⟨?_, ?_, ?_, ?_⟩, ⟨?_, ?_⟩, ?_, ?_⟩
  · intro c hc
    rw [hj] at hc
    have := h0.parent_mem (by omega) c (Nat.zero_le c) (by rwa [Nat.zero_add])
    rw [hcpuParent]
    omega
  · intro c c' hcc hc'
    rw [hj] at hc'
    exact h0.parent_mono (by omega) c c' (Nat.zero_le c) hcc (by rwa [Nat.zero_add])
  · intro x hx1 hx2
    have := h1.parent_mem Nat.one_pos x hx1 hx2
    rw [hparentNode]
    omega
  · intro x y hx hxy hy
    rw [hparentNode]
    exact h1.parent_mono Nat.one_pos x y hx hxy hy
  · intro c hc
    rw [hj] at hc
    exact h0.fresh c (Nat.zero_le c) (by rwa [Nat.zero_add])
  · intro x hx
    by_cases hsplit : x < topology 0
    · exact h0.keeps 2 x (h1.keeps 2 x (h2.fresh x (Nat.zero_le x) (by rw [hw0, hroot, Nat.zero_add]; exact hsplit)))
    · exact h0.keeps 1 x (h1.fresh x (not_lt.mp hsplit) hx)
  · exact h0.limits.1.trans (h1.limits.1.trans h2.limits.1)
  · exact h0.limits.2.trans (h1.limits.2.trans h2.limits.2)

/-! ## The CPUs of every domain -/

/-- Domains of different levels differ, and every domain knows where the CPUs under it start and how many they are. -/
structure PowerTree (d : Nodes) : Prop where
  level : ∀ c < d.coreCount, ∀ c' < d.coreCount, ∀ lvl lvl', 0 < lvl → lvl ≤ PLAT_MAX_PWR_LVL → 0 < lvl' →
    lvl' ≤ PLAT_MAX_PWR_LVL → d.domain c lvl = d.domain c' lvl' → lvl = lvl'
  cpus : ∀ c < d.coreCount, ∀ lvl, 0 < lvl → lvl ≤ PLAT_MAX_PWR_LVL → ∀ c',
    (d.cpuStartIdx (d.domain c lvl) ≤ c' ∧ c' < d.cpuStartIdx (d.domain c lvl) + d.ncpus (d.domain c lvl)) ↔
      c' < d.coreCount ∧ d.domain c' lvl = d.domain c lvl

/-- The tree with the CPUs of its domains counted anew. -/
def Nodes.counted (d : Nodes) (start count : ℕ → ℕ) : Nodes := { d with cpuStartIdx := start, ncpus := count }

theorem domain_counted (d : Nodes) (start count : ℕ → ℕ) (c lvl : ℕ) : (d.counted start count).domain c lvl = d.domain c lvl := by
  induction lvl with
  | zero => rfl
  | succ lvl ih =>
    cases lvl with
    | zero => rfl
    | succ lvl => exact congrArg d.parentNode ih

theorem updateLimit_eq (d : Nodes) (start count idx : ℕ → ℕ) (cpu j : ℕ) (temp : List ℕ) :
    updateLimit cpu temp (d.counted start count, idx) j =
      (d.counted (if temp.getD j 0 ≠ idx j then Function.update start (temp.getD j 0) cpu else start)
        (Function.update count (temp.getD j 0) (count (temp.getD j 0) + 1)), Function.update idx j (temp.getD j 0)) := by
  unfold updateLimit
  by_cases h : temp.getD j 0 = idx j
  · simp only [h, ne_eq, not_true_eq_false, if_false, Function.update_eq_self]
    rfl
  · simp only [ne_eq, h, not_false_eq_true, if_true, Function.update_self]
    rfl

/-- The domains of the CPUs at a level, the last CPU's for all others. -/
def Nodes.at (d : Nodes) (lvl c : ℕ) : ℕ := d.domain (min c (d.coreCount - 1)) lvl

theorem at_eq {d : Nodes} {c : ℕ} (h : c < d.coreCount) (lvl : ℕ) : d.at lvl c = d.domain c lvl := by
  rw [Nodes.at, Nat.min_eq_left (by omega)]

section Limits

variable {d : Nodes} {split all : ℕ}

theorem Layers.at_one_mono (h : Layers d split all) : Monotone (d.at 1) := by
  intro c c' hcc
  rcases Nat.eq_zero_or_pos d.coreCount with hn | hn
  · simp [Nodes.at, hn]
  · exact h.cpu_mono _ _ (min_le_min_right _ hcc) (by omega)

theorem Layers.at_two_mono (h : Layers d split all) : Monotone (d.at 2) := by
  intro c c' hcc
  rcases Nat.eq_zero_or_pos d.coreCount with hn | hn
  · simp [Nodes.at, hn]
  · exact h.node_mono _ _ (h.cpu_mem _ (by omega)).1 (h.at_one_mono hcc) (h.cpu_mem _ (by omega)).2

theorem Layers.domain_one (h : Layers d split all) {c : ℕ} (hc : c < d.coreCount) : split ≤ d.domain c 1 :=
  (h.cpu_mem c hc).1

theorem Layers.domain_two (h : Layers d split all) {c : ℕ} (hc : c < d.coreCount) : d.domain c 2 < split :=
  h.node_mem _ (h.cpu_mem c hc).1 (h.cpu_mem c hc).2

/-- What the loop over the CPUs has noted of the first `k`, at both levels. -/
structure Limits (d : Nodes) (split k : ℕ) (start count idx : ℕ → ℕ) : Prop where
  low : Blocks (d.at 1) (Set.Ici split) k (idx 0) start count
  high : Blocks (d.at 2) (Set.Iio split) k (idx 1) start count

theorem Limits.next (h : Layers d split all) {k : ℕ} {start count idx : ℕ → ℕ} (hk : k < d.coreCount)
    (hl : Limits d split k start count idx) : ∃ start' count' idx',
      updateLimits (d.counted start count, idx) k = (d.counted start' count', idx') ∧
        Limits d split (k + 1) start' count' idx' := by
  have htemp : psciGetParentPwrDomainNodes (d.counted start count) k PLAT_MAX_PWR_LVL = [d.domain k 1, d.domain k 2] := rfl
  have hlow : d.at 1 k = d.domain k 1 := at_eq hk 1
  have hhigh : d.at 2 k = d.domain k 2 := at_eq hk 2
  have hA1 : d.domain k 1 ∈ Set.Ici split := h.domain_one hk
  have hA2 : d.domain k 2 ∈ Set.Iio split := h.domain_two hk
  have hne2 : ∀ v ∈ Set.Ici split, v ≠ d.domain k 2 := by
    rintro v hv rfl
    exact absurd (h.domain_two hk) (not_lt.mpr (Set.mem_Ici.mp hv))
  have hne1 : ∀ v ∈ Set.Iio split, v ≠ d.domain k 1 := by
    rintro v hv rfl
    exact absurd (Set.mem_Iio.mp hv) (not_lt.mpr (h.domain_one hk))
  -- the higher level first: it touches no cluster
  have hh := hl.high.next h.at_two_mono (hhigh ▸ hA2)
  rw [hhigh] at hh
  set start2 := if d.domain k 2 ≠ idx 1 then Function.update start (d.domain k 2) k else start with hstart2
  set count2 := Function.update count (d.domain k 2) (count (d.domain k 2) + 1) with hcount2
  have hkeep : Blocks (d.at 1) (Set.Ici split) k (idx 0) start2 count2 := by
    apply hl.low.congr
    · intro v hv
      rw [hstart2]
      split
      · exact Function.update_of_ne (hne2 v hv) _ _
      · rfl
    · intro v hv
      exact Function.update_of_ne (hne2 v hv) _ _
  have hll := hkeep.next h.at_one_mono (hlow ▸ hA1)
  rw [hlow] at hll
  refine ⟨_, _, Function.update (Function.update idx 1 (d.domain k 2)) 0 (d.domain k 1), ?_, hll, hh.congr ?_ ?_⟩
  · rw [updateLimits, htemp]
    change updateLimit k _ (updateLimit k _ _ 1) 0 = _
    rw [updateLimit_eq, updateLimit_eq]
    rfl
  · intro v hv
    split
    · exact Function.update_of_ne (hne1 v hv) _ _
    · rfl
  · intro v hv
    exact Function.update_of_ne (hne1 v hv) _ _

theorem limits_run (h : Layers d split all) (hstart : d.cpuStartIdx = fun _ => 0) (hcount : d.ncpus = fun _ => 0) {k : ℕ}
    (hk : k ≤ d.coreCount) : ∃ start count idx, (List.range k).foldl updateLimits (d, fun _ => 0) = (d.counted start count, idx) ∧
      Limits d split k start count idx := by
  induction k with
  | zero =>
    exact ⟨d.cpuStartIdx, d.ncpus, fun _ => 0, rfl, Blocks.empty (fun _ _ => by rw [hcount]) fun _ => by rw [hstart],
      Blocks.empty (fun _ _ => by rw [hcount]) fun _ => by rw [hstart]⟩
  | succ k ih =>
    obtain ⟨start, count, idx, hrun, hl⟩ := ih (by omega)
    obtain ⟨start', count', idx', hnext, hl'⟩ := hl.next h (by omega)
    refine ⟨start', count', idx', ?_, hl'⟩
    rw [List.range_succ, List.foldl_append, hrun]
    exact hnext

/-- After `psci_update_pwrlvl_limits` the tree is right. -/
theorem powerTree_limits (h : Layers d split all) (hstart : d.cpuStartIdx = fun _ => 0) (hcount : d.ncpus = fun _ => 0) :
    ∃ start count, psciUpdatePwrlvlLimits d = d.counted start count ∧ PowerTree (d.counted start count) := by
  obtain ⟨start, count, idx, hrun, hl⟩ := limits_run h hstart hcount le_rfl
  refine ⟨start, count, ?_, ?_, ?_⟩
  · rw [psciUpdatePwrlvlLimits, hrun]
  · intro c hc c' hc' lvl lvl' hpos hle hpos' hle' heq
    have htwo : PLAT_MAX_PWR_LVL = 2 := rfl
    rw [domain_counted, domain_counted] at heq
    have h1 := h.domain_one hc
    have h2 := h.domain_two hc
    have h1' := h.domain_one hc'
    have h2' := h.domain_two hc'
    obtain rfl | rfl : lvl = 1 ∨ lvl = 2 := by omega
    · obtain rfl | rfl : lvl' = 1 ∨ lvl' = 2 := by omega
      · rfl
      · omega
    · obtain rfl | rfl : lvl' = 1 ∨ lvl' = 2 := by omega
      · omega
      · rfl
  · intro c hc lvl hpos hle c'
    have htwo : PLAT_MAX_PWR_LVL = 2 := rfl
    have hc0 : c < d.coreCount := hc
    rw [domain_counted, domain_counted]
    have hblock : (start (d.at lvl c) ≤ c' ∧ c' < start (d.at lvl c) + count (d.at lvl c)) ↔
        c' < d.coreCount ∧ d.at lvl c' = d.at lvl c := by
      obtain rfl | rfl : lvl = 1 ∨ lvl = 2 := by omega
      · exact hl.low.mem_iff h.at_one_mono hc0 (by rw [at_eq hc0]; exact h.domain_one hc0)
      · exact hl.high.mem_iff h.at_two_mono hc0 (by rw [at_eq hc0]; exact h.domain_two hc0)
    rw [at_eq hc0] at hblock
    change (start (d.domain c lvl) ≤ c' ∧ c' < start (d.domain c lvl) + count (d.domain c lvl)) ↔ c' < d.coreCount ∧ _
    rw [hblock]
    exact and_congr_right fun hc' => by rw [at_eq hc']

end Limits

/-- For every topology the setup builds a tree in which each domain has exactly the CPUs below it. -/
theorem psciSetup_tree {topology : ℕ → ℕ} (h : Topology topology) (me : ℕ) :
    PowerTree (psciSetup topology me).1 ∧
      (psciSetup topology me).1.coreCount = children topology (1 + topology 0) (children topology 1 (topology 0)) := by
  obtain ⟨hcount, hlayers, -, hstart, hncpus⟩ := populate_spec h bss
  obtain ⟨start, count, heq, htree⟩ := powerTree_limits hlayers hstart hncpus
  have hd : (psciSetup topology me).1 = (populatePowerDomainTree topology bss).1.counted start count := heq
  rw [hd]
  exact ⟨htree, hcount⟩

/-- `rcar_power_domain_tree_desc`. -/
def rcarPowerDomainTreeDesc (i : ℕ) : ℕ := [1, 2, 4, 4].getD i 0

theorem rcar_topology : Topology rcarPowerDomainTreeDesc := ⟨by decide, by decide, by decide⟩

theorem psciSetup_tree_rcar : PowerTree (psciSetup rcarPowerDomainTreeDesc 0).1 ∧
    (psciSetup rcarPowerDomainTreeDesc 0).1.coreCount = children rcarPowerDomainTreeDesc
      (1 + rcarPowerDomainTreeDesc 0) (children rcarPowerDomainTreeDesc 1 (rcarPowerDomainTreeDesc 0)) :=
  psciSetup_tree rcar_topology 0

end RCar.Psci
