import RCarM3N.Lib.Bakery
import RCarM3N.Model.BakeryLock

/-! The bakery lock of BL31 is a bakery as long as no ticket leaves its 15 bits: one holder, first come,
first served. Clearing the lock under its holder, as a warm boot does, lets a second one in. -/

namespace RCar.BakeryLock

open Bakery (Phase Act Before)

variable {n : ℕ}

/-! ## The words -/

theorem data_chosen (t : ℕ) : makeBakeryData CHOSEN_TICKET t = t * 2 % 2 ^ 16 := by
  simp [makeBakeryData, CHOSEN_TICKET, Nat.shiftLeft_eq]

theorem number_chosen {t : ℕ} (ht : t < 2 ^ 15) : bakeryTicketNumber (makeBakeryData CHOSEN_TICKET t) = t := by
  have hmask : (0x7FFF : ℕ) = 2 ^ 15 - 1 := rfl
  rw [data_chosen, bakeryTicketNumber, hmask, Nat.and_two_pow_sub_one_eq_mod, Nat.shiftRight_eq_div_pow]
  omega

theorem number_choosing : bakeryTicketNumber (makeBakeryData CHOOSING_TICKET 0) = 0 := by decide

theorem choosing_chosen (t : ℕ) : bakeryIsChoosing (makeBakeryData CHOSEN_TICKET t) = false := by
  rw [data_chosen, bakeryIsChoosing, CHOOSING_TICKET, Nat.and_one_is_mod, beq_eq_false_iff_ne]
  omega

theorem number_lt (info : ℕ) : bakeryTicketNumber info < 2 ^ 15 := by
  have hmask : (0x7FFF : ℕ) = 2 ^ 15 - 1 := rfl
  rw [bakeryTicketNumber, hmask, Nat.and_two_pow_sub_one_eq_mod]
  exact Nat.mod_lt _ (by decide)

/-- With positions of one byte, priorities are tickets with ties broken by position. -/
theorem priority_lt {t u i j : ℕ} (hi : i < 256) (hj : j < 256) :
    bakeryGetPriority t i < bakeryGetPriority u j ↔ t < u ∨ t = u ∧ i < j := by
  unfold bakeryGetPriority
  rw [← Nat.shiftLeft_add_eq_or_of_lt (i := 8) hi, ← Nat.shiftLeft_add_eq_or_of_lt (i := 8) hj, Nat.shiftLeft_eq,
    Nat.shiftLeft_eq]
  omega

theorem priority_lt_iff {t u : ℕ} {i j : Fin n} (hn : n ≤ 256) :
    bakeryGetPriority t i < bakeryGetPriority u j ↔ Before t i u j := by
  rw [priority_lt (i.isLt.trans_le hn) (j.isLt.trans_le hn), Before, Prod.Lex.toLex_lt_toLex]
  rfl

/-! ## The bakery that the lock is -/

namespace Pc

/-- The word of a CPU. -/
def word : Pc → ℕ
  | idle => 0
  | scan _ _ => makeBakeryData CHOOSING_TICKET 0
  | check _ t => makeBakeryData CHOSEN_TICKET t
  | wait _ t _ => makeBakeryData CHOSEN_TICKET t
  | held t => makeBakeryData CHOSEN_TICKET t

/-- The ticket of a CPU, or the greatest one it has read. -/
def ticket : Pc → ℕ
  | idle => 0
  | scan _ t => t
  | check _ t => t
  | wait _ t _ => t
  | held t => t

/-- The CPUs before one of the loop counter. -/
def below (n they : ℕ) : Set (Fin n) := {j | j.val < they}

def phase : Pc → Phase (Fin n)
  | idle => .out
  | scan they t => .choosing (below n they) t
  | check they t => .waiting t (below n they) none
  | wait they t u => .waiting t (below n they) (if h : they < n then some (⟨they, h⟩, u) else none)
  | held t => .waiting t Set.univ none

theorem below_zero : below n 0 = ∅ := by
  simp [below]

theorem below_succ {they : ℕ} (h : they < n) : below n (they + 1) = insert ⟨they, h⟩ (below n they) := by
  ext j
  simp only [below, Set.mem_ofPred_eq, Set.mem_insert_iff, Fin.ext_iff]
  omega

theorem below_all {they : ℕ} (h : n ≤ they) (j : Fin n) : j ∈ below n they := j.isLt.trans_le h

theorem shown_phase {pc : Pc} (h : pc.ticket < 2 ^ 15) :
    (pc.phase : Phase (Fin n)).shown = bakeryTicketNumber pc.word := by
  cases pc with
  | idle => rfl
  | scan they t => exact number_choosing.symm
  | check they t => exact (number_chosen h).symm
  | wait they t u => exact (number_chosen h).symm
  | held t => exact (number_chosen h).symm

theorem choosing_phase (pc : Pc) : (pc.phase : Phase (Fin n)).Choosing ↔ bakeryIsChoosing pc.word = true := by
  cases pc with
  | idle => simp [phase, Phase.Choosing, word, bakeryIsChoosing, CHOOSING_TICKET]
  | scan they t => simp [phase, Phase.Choosing, word, bakeryIsChoosing, makeBakeryData, CHOOSING_TICKET]
  | check they t => simp [phase, Phase.Choosing, word, choosing_chosen]
  | wait they t u => simp [phase, Phase.Choosing, word, choosing_chosen]
  | held t => simp [phase, Phase.Choosing, word, choosing_chosen]

theorem shown_le_ticket (pc : Pc) : (pc.phase : Phase (Fin n)).shown ≤ pc.ticket := by
  cases pc <;> simp [phase, Phase.shown, ticket]

end Pc

namespace Lock

def phases (s : Lock n) : Fin n → Phase (Fin n) := fun i => (s.pc i).phase

/-- `k` bounds the tickets. -/
structure Valid (s : Lock n) (k : ℕ) : Prop where
  word : ∀ i, s.lockData i = (s.pc i).word
  bound : ∀ i, (s.pc i).ticket ≤ k
  they : ∀ i they t u, s.pc i = .wait they t u → they < n
  inv : Bakery.Inv s.phases

theorem valid_cleared : (cleared : Lock n).Valid 0 := by
  refine ⟨fun _ => rfl, fun _ => le_rfl, ?_, ?_⟩
  · intro i they t u h
    cases h
  · intro i t passed ahead h
    cases h

theorem Valid.mono {s : Lock n} {k k' : ℕ} (hs : s.Valid k) (h : k ≤ k') : s.Valid k' :=
  ⟨hs.word, fun i => (hs.bound i).trans h, hs.they, hs.inv⟩

theorem phases_update (s : Lock n) (me : Fin n) (pc : Pc) :
    (fun i => (Function.update s.pc me pc i).phase) = Function.update s.phases me pc.phase := by
  funext i
  by_cases h : i = me
  · subst h
    simp
  · simp [h, phases]

/-- A step of the lock that is a step of the bakery. -/
theorem Valid.act {s : Lock n} {k k' : ℕ} {me : Fin n} {data : ℕ} {pc : Pc} (hs : s.Valid k) (hk : k ≤ k')
    (hdata : data = pc.word) (hticket : pc.ticket ≤ k') (hthey : ∀ they t u, pc = .wait they t u → they < n)
    (h : Act s.phases me pc.phase) : (s.write me data pc).Valid k' := by
  have hinv : Bakery.Inv (s.write me data pc).phases := by
    change Bakery.Inv fun i => (Function.update s.pc me pc i).phase
    rw [phases_update]
    exact hs.inv.act h
  refine ⟨?_, ?_, ?_, hinv⟩ <;> intro i <;> simp only [write] <;> by_cases hi : i = me
  · subst hi
    simpa using hdata
  · simpa [hi] using hs.word i
  · subst hi
    simpa using hticket
  · simpa [hi] using (hs.bound i).trans hk
  · subst hi
    simpa using hthey
  · simpa [hi] using hs.they i

/-- A read leaves the words alone. -/
theorem goto_eq_write {s : Lock n} {k : ℕ} {me : Fin n} {pc : Pc} (hs : s.Valid k) (hpc : pc.word = (s.pc me).word) :
    s.goto me pc = s.write me pc.word pc := by
  have : Function.update s.lockData me pc.word = s.lockData := by
    rw [hpc, ← hs.word me, Function.update_eq_self]
  simp only [goto, write, this]

theorem Valid.read {s : Lock n} {k k' : ℕ} {me : Fin n} {pc : Pc} (hs : s.Valid k) (hk : k ≤ k')
    (hword : pc.word = (s.pc me).word) (hticket : pc.ticket ≤ k') (hthey : ∀ they t u, pc = .wait they t u → they < n)
    (h : Act s.phases me pc.phase) : (s.goto me pc).Valid k' := by
  rw [goto_eq_write hs hword]
  exact hs.act hk rfl hticket hthey h

theorem Valid.shown {s : Lock n} {k : ℕ} (hs : s.Valid k) (hk : k < 2 ^ 15) (j : Fin n) :
    bakeryTicketNumber (s.lockData j) = (s.phases j).shown := by
  rw [hs.word j]
  exact (Pc.shown_phase ((hs.bound j).trans_lt hk)).symm

theorem Valid.choosing {s : Lock n} {k : ℕ} (hs : s.Valid k) (j : Fin n) :
    bakeryIsChoosing (s.lockData j) = true ↔ (s.phases j).Choosing := by
  rw [hs.word j]
  exact (Pc.choosing_phase _).symm

/-- A step of `me` that is one of the bakery, or changes nothing. -/
def Moves (s : Lock n) (me : Fin n) (k : ℕ) (s' : Lock n) : Prop :=
  s' = s ∨ ∃ pc, s'.pc = Function.update s.pc me pc ∧ Act s.phases me pc.phase ∧ s'.Valid k

theorem Valid.writes {s : Lock n} {k k' : ℕ} {me : Fin n} (hs : s.Valid k) (hk : k ≤ k') (pc : Pc)
    (hticket : pc.ticket ≤ k') (hthey : ∀ they t u, pc = .wait they t u → they < n) (h : Act s.phases me pc.phase) :
    s.Moves me k' (s.write me pc.word pc) := Or.inr ⟨pc, rfl, h, hs.act hk rfl hticket hthey h⟩

theorem Valid.reads {s : Lock n} {k : ℕ} {me : Fin n} (hs : s.Valid k) (pc : Pc) (hword : pc.word = (s.pc me).word)
    (hticket : pc.ticket ≤ k) (hthey : ∀ they t u, pc = .wait they t u → they < n) (h : Act s.phases me pc.phase) :
    s.Moves me k (s.goto me pc) := Or.inr ⟨pc, rfl, h, hs.read le_rfl hword hticket hthey h⟩

theorem Valid.ticket_le {s : Lock n} {k : ℕ} {me : Fin n} {pc : Pc} (hs : s.Valid k) (hpc : s.pc me = pc) :
    pc.ticket ≤ k := hpc ▸ hs.bound me

section Steps

variable {s : Lock n} {k they t u : ℕ} {me : Fin n}

theorem scanStep_reads (hs : s.Valid k) (hk : k < 2 ^ 15) (hpc : s.pc me = .scan they t) (h : they < n) :
    s.Moves me k (s.scanStep me they t) := by
  have hmax : (if bakeryTicketNumber (s.lockData ⟨they, h⟩) > t then bakeryTicketNumber (s.lockData ⟨they, h⟩) else t) =
      max t (s.phases ⟨they, h⟩).shown := by
    rw [hs.shown hk]
    split <;> omega
  have hbest : max t (s.phases ⟨they, h⟩).shown ≤ k :=
    max_le (hs.ticket_le hpc) ((Pc.shown_le_ticket _).trans (hs.bound _))
  rw [scanStep, dif_pos h]
  simp only [hmax]
  refine hs.reads (.scan (they + 1) (max t (s.phases ⟨they, h⟩).shown)) (by rw [hpc]; rfl) hbest (fun _ _ _ h => by cases h) ?_
  rw [Pc.phase, Pc.below_succ h]
  exact Act.look (by rw [phases, hpc]; rfl) _

theorem scanStep_writes (hs : s.Valid k) (hpc : s.pc me = .scan they t) (h : n ≤ they) :
    s.Moves me (k + 1) (s.scanStep me they t) := by
  rw [scanStep, dif_neg (not_lt.mpr h)]
  have ht : t ≤ k := hs.ticket_le hpc
  refine hs.writes (Nat.le_succ k) (.check 0 (t + 1)) (Nat.succ_le_succ ht) (fun _ _ _ h => by cases h) ?_
  rw [Pc.phase, Pc.below_zero]
  exact Act.choose (by rw [phases, hpc]; rfl) fun j _ => Pc.below_all h j

/-- The loop counter moves past a CPU that is itself, has no ticket, or has a later one. -/
theorem check_passes (hs : s.Valid k) (hpc : s.pc me = .check they t) (h : they < n)
    (hj : me ≠ ⟨they, h⟩ → ¬ (s.phases ⟨they, h⟩).Choosing ∧ ((s.phases ⟨they, h⟩).shown = 0 ∨
      Before t me (s.phases ⟨they, h⟩).shown ⟨they, h⟩)) : s.Moves me k (s.goto me (.check (they + 1) t)) := by
  have ht : t ≤ k := hs.ticket_le hpc
  refine hs.reads (.check (they + 1) t) (by rw [hpc]; rfl) ht (fun _ _ _ h => by cases h) ?_
  rw [Pc.phase, Pc.below_succ h]
  exact Act.pass (by rw [phases, hpc]; rfl) _ fun hne => hj hne.symm

theorem checkStep_spec (hn : n ≤ 256) (hs : s.Valid k) (hk : k < 2 ^ 15) (hpc : s.pc me = .check they t) :
    s.Moves me k (s.checkStep me they t) := by
  have hphase : s.phases me = .waiting t (Pc.below n they) none := by rw [phases, hpc]; rfl
  have ht : t ≤ k := hs.ticket_le hpc
  unfold checkStep
  by_cases h : they < n
  · rw [dif_pos h]
    by_cases hme : me = ⟨they, h⟩
    · rw [if_pos hme]
      exact check_passes hs hpc h fun hne => absurd hme hne
    rw [if_neg hme]
    by_cases hchoosing : bakeryIsChoosing (s.lockData ⟨they, h⟩) = true
    · rw [if_pos hchoosing]
      exact Or.inl rfl
    rw [if_neg hchoosing, hs.shown hk]
    by_cases hahead : (s.phases ⟨they, h⟩).shown ≠ 0 ∧
        bakeryGetPriority (s.phases ⟨they, h⟩).shown they < bakeryGetPriority t me
    · rw [if_pos hahead]
      refine hs.reads (.wait they t (s.phases ⟨they, h⟩).shown) (by rw [hpc]; rfl) ht ?_ ?_
      · rintro they' t' u' ⟨⟩
        exact h
      · rw [Pc.phase, dif_pos h]
        exact Act.block hphase _ hahead.1
    · rw [if_neg hahead]
      apply check_passes hs hpc h
      intro hne
      refine ⟨fun hch => hchoosing ((hs.choosing _).mpr hch), ?_⟩
      rw [not_and_or, not_not] at hahead
      refine hahead.imp_right fun hnot => ?_
      have hnot' : ¬ Before (s.phases ⟨they, h⟩).shown ⟨they, h⟩ t me := fun hb =>
        hnot ((priority_lt_iff (i := ⟨they, h⟩) hn).mpr hb)
      exact lt_of_le_of_ne (not_lt.mp hnot') fun heq => hne (congrArg Prod.snd (toLex.injective heq))
  · rw [dif_neg h]
    have hall : Pc.below n they = Set.univ := Set.eq_univ_of_forall (Pc.below_all (not_lt.mp h))
    refine hs.reads (.held t) (by rw [hpc]; rfl) ht (fun _ _ _ h => by cases h) ?_
    -- the loop is over: nobody is left to pass
    have := Act.pass hphase me fun hne => absurd rfl hne
    rwa [hall, Set.insert_eq_of_mem (Set.mem_univ me)] at this

theorem waitStep_spec (hs : s.Valid k) (hk : k < 2 ^ 15) (hpc : s.pc me = .wait they t u) :
    s.Moves me k (s.waitStep me they t u) := by
  have h := hs.they me they t u hpc
  rw [waitStep, dif_pos h]
  by_cases hsame : u = bakeryTicketNumber (s.lockData ⟨they, h⟩)
  · rw [if_pos hsame]
    exact Or.inl rfl
  · rw [if_neg hsame]
    have ht : t ≤ k := hs.ticket_le hpc
    refine hs.reads (.check (they + 1) t) (by rw [hpc]; rfl) ht (fun _ _ _ h => by cases h) ?_
    rw [Pc.phase, Pc.below_succ h]
    exact Act.unblock (by rw [phases, hpc, Pc.phase, dif_pos h]) fun heq => hsame (by rw [hs.shown hk, heq])

/-- Every step of the lock is one of the bakery, or changes nothing. -/
theorem step_spec (hn : n ≤ 256) (hs : s.Valid k) (me : Fin n)
    (hk : k + (if s.takesTicket me then 1 else 0) < 2 ^ 15) :
    s.Moves me (k + if s.takesTicket me then 1 else 0) (s.step me) := by
  cases hpc : s.pc me with
  | idle =>
    simp only [step, takesTicket, hpc]
    refine hs.writes le_rfl (.scan 0 0) (Nat.zero_le _) (fun _ _ _ h => by cases h) ?_
    rw [Pc.phase, Pc.below_zero]
    exact Act.enter (by rw [phases, hpc]; rfl)
  | scan they t =>
    simp only [step, takesTicket, hpc, decide_eq_true_eq] at hk ⊢
    by_cases h : n ≤ they
    · rw [if_pos h]
      exact scanStep_writes hs hpc h
    · rw [if_neg h] at hk ⊢
      exact scanStep_reads hs hk hpc (not_le.mp h)
  | check they t =>
    simp only [step, takesTicket, hpc] at hk ⊢
    exact checkStep_spec hn hs hk hpc
  | wait they t u =>
    simp only [step, takesTicket, hpc] at hk ⊢
    exact waitStep_spec hs hk hpc
  | held t =>
    simp only [step, takesTicket, hpc]
    exact hs.writes le_rfl .idle (Nat.zero_le _) (fun _ _ _ h => by cases h)
      (Act.leave (by rw [phases, hpc]; rfl))

end Steps

theorem step_valid {s : Lock n} {k : ℕ} (hn : n ≤ 256) (hs : s.Valid k) (me : Fin n)
    (hk : k + (if s.takesTicket me then 1 else 0) < 2 ^ 15) :
    (s.step me).Valid (k + if s.takesTicket me then 1 else 0) := by
  obtain h | ⟨pc, -, -, h⟩ := step_spec hn hs me hk
  · rw [h]
    exact hs.mono (Nat.le_add_right _ _)
  · exact h

theorem run_valid {s : Lock n} {k : ℕ} (hn : n ≤ 256) (hs : s.Valid k) (sched : List (Fin n))
    (hk : k + s.tickets sched < 2 ^ 15) : (s.run sched).Valid (k + s.tickets sched) := by
  induction sched generalizing s k with
  | nil => exact hs
  | cons me sched ih =>
    simp only [tickets, ← Nat.add_assoc] at hk ⊢
    exact ih (step_valid hn hs me (by omega)) hk

theorem holds_phase {s : Lock n} {i : Fin n} (h : s.Holds i) : (s.phases i).Holds i := by
  obtain ⟨t, ht⟩ := h
  rw [phases, ht]
  exact fun j _ => Set.mem_univ j

theorem Valid.asserts {s : Lock n} {k : ℕ} (hs : s.Valid k) (hk : k < 2 ^ 15) (i : Fin n) : s.AssertsHold i := by
  refine ⟨fun h => ?_, ?_⟩
  · rw [hs.word i, h]
    rfl
  · rintro ⟨t, ht⟩
    have hpos := (hs.inv i t Set.univ none (by rw [phases, ht]; rfl)).pos
    rw [hs.shown hk i, phases, ht]
    exact hpos.ne'

/-- On every schedule that takes fewer than 2 ^ 15 tickets no two CPUs hold the lock, and no assertion fails. -/
theorem bakeryLock_exclusive (hn : n ≤ 256) (sched : List (Fin n)) (h : (cleared : Lock n).tickets sched < 2 ^ 15) :
    (∀ i j, ((cleared : Lock n).run sched).Holds i → ((cleared : Lock n).run sched).Holds j → i = j) ∧
      ∀ i, ((cleared : Lock n).run sched).AssertsHold i := by
  have hv := run_valid hn valid_cleared sched (by rwa [Nat.zero_add])
  rw [Nat.zero_add] at hv
  exact ⟨fun i j hi hj => hv.inv.exclusive (holds_phase hi) (holds_phase hj), hv.asserts h⟩

theorem bakeryLock_exclusive_r8 : (8 ≤ 256 ∧ (cleared : Lock 8).tickets [0, 1, 0, 1, 7] < 2 ^ 15) ∧
    (∀ i j, ((cleared : Lock 8).run [0, 1, 0, 1, 7]).Holds i → ((cleared : Lock 8).run [0, 1, 0, 1, 7]).Holds j → i = j) ∧
      ∀ i, ((cleared : Lock 8).run [0, 1, 0, 1, 7]).AssertsHold i :=
  ⟨by decide, bakeryLock_exclusive (by decide) [0, 1, 0, 1, 7] (by decide)⟩

/-! ## First come, first served -/

theorem run_append (s : Lock n) (a b : List (Fin n)) : s.run (a ++ b) = (s.run a).run b := List.foldl_append

theorem tickets_append (s : Lock n) (a b : List (Fin n)) : s.tickets (a ++ b) = s.tickets a + (s.run a).tickets b := by
  induction a generalizing s with
  | nil => simp [tickets, run]
  | cons me a ih =>
    rw [List.cons_append, tickets, tickets, ih, Nat.add_assoc]
    rfl

theorem follows_step {s : Lock n} {k t : ℕ} {i j me : Fin n} (hn : n ≤ 256) (hs : s.Valid k) (hne : j ≠ i)
    (hk : k + (if s.takesTicket me then 1 else 0) < 2 ^ 15) (hstay : (s.step me).pc i ≠ .idle)
    (h : Bakery.Follows i t j s.phases) : Bakery.Follows i t j (s.step me).phases := by
  obtain hsame | ⟨pc, hpc, hact, -⟩ := step_spec hn hs me hk
  · rwa [hsame]
  · have hphases : (s.step me).phases = Function.update s.phases me pc.phase := by
      rw [← phases_update]
      unfold phases
      rw [hpc]
    rw [hphases]
    apply h.act hne hact
    rintro rfl hout
    rw [hpc, Function.update_self] at hstay
    cases pc <;> first | exact hstay rfl | cases hout

theorem follows_run {s : Lock n} {k t : ℕ} {i j : Fin n} (hn : n ≤ 256) (hs : s.Valid k) (hne : j ≠ i)
    (sched : List (Fin n)) (hk : k + s.tickets sched < 2 ^ 15) (hstay : ∀ pre ∈ sched.inits, (s.run pre).pc i ≠ .idle)
    (h : Bakery.Follows i t j s.phases) : Bakery.Follows i t j (s.run sched).phases := by
  induction sched generalizing s k with
  | nil => exact h
  | cons me sched ih =>
    have hstay' : ∀ pre ∈ sched.inits, ((s.step me).run pre).pc i ≠ .idle := fun pre hpre =>
      hstay (me :: pre) (by simpa using hpre)
    simp only [tickets, ← Nat.add_assoc] at hk
    exact ih (step_valid hn hs me (by omega)) hk hstay'
      (follows_step hn hs hne (by omega) (hstay' [] (by simp)) h)

theorem step_other (s : Lock n) {i me : Fin n} (h : i ≠ me) :
    (s.step me).pc i = s.pc i ∧ (s.step me).lockData i = s.lockData i := by
  unfold step
  cases s.pc me with
  | idle => simp [write, h]
  | scan they t =>
    simp only [scanStep]
    split <;> simp [goto, write, h]
  | check they t =>
    simp only [checkStep]
    split_ifs <;> simp [goto, h]
  | wait they t u =>
    simp only [waitStep]
    split_ifs <;> simp [goto, h]
  | held t => simp [write, h]

theorem run_other (s : Lock n) {i me : Fin n} (h : i ≠ me) (k : ℕ) :
    (s.run (List.replicate k me)).pc i = s.pc i ∧ (s.run (List.replicate k me)).lockData i = s.lockData i := by
  induction k generalizing s with
  | zero => exact ⟨rfl, rfl⟩
  | succ k ih =>
    obtain ⟨hpc, hdata⟩ := step_other s h
    rw [← hpc, ← hdata]
    exact ih (s.step me)

/-- No other CPU shows that it wants the lock. -/
def Quiet (s : Lock n) (me : Fin n) : Prop := ∀ i, i ≠ me → s.lockData i = 0

theorem Quiet.run {s : Lock n} {me : Fin n} (hs : s.Quiet me) (k : ℕ) : (s.run (List.replicate k me)).Quiet me := by
  intro i hi
  rw [(run_other s hi k).2]
  exact hs i hi

theorem run_succ (s : Lock n) (me : Fin n) (k : ℕ) :
    s.run (List.replicate (k + 1) me) = (s.step me).run (List.replicate k me) := rfl

theorem run_scan {s : Lock n} {me : Fin n} (hs : s.Quiet me) (hme : bakeryTicketNumber (s.lockData me) = 0)
    {they k : ℕ} (hk : they + k = n) (hpc : s.pc me = .scan they 0) :
    (s.run (List.replicate k me)).pc me = .scan n 0 := by
  induction k generalizing s they with
  | zero =>
    obtain rfl : they = n := hk
    exact hpc
  | succ k ih =>
    have h : they < n := by omega
    have hzero : bakeryTicketNumber (s.lockData ⟨they, h⟩) = 0 := by
      by_cases hi : (⟨they, h⟩ : Fin n) = me
      · rw [hi]
        exact hme
      · rw [hs _ hi]
        rfl
    have hstep : s.step me = s.goto me (.scan (they + 1) 0) := by
      simp only [step, hpc, scanStep, dif_pos h, hzero, gt_iff_lt, lt_irrefl, if_false]
    rw [run_succ, hstep]
    exact @ih _ hs hme (they + 1) (by omega) (by simp [goto])

theorem run_check {s : Lock n} {me : Fin n} (hs : s.Quiet me) {they t k : ℕ} (hk : they + k = n)
    (hpc : s.pc me = .check they t) : (s.run (List.replicate k me)).pc me = .check n t := by
  induction k generalizing s they with
  | zero =>
    obtain rfl : they = n := hk
    exact hpc
  | succ k ih =>
    have h : they < n := by omega
    have hstep : s.step me = s.goto me (.check (they + 1) t) := by
      simp only [step, hpc, checkStep, dif_pos h]
      by_cases hi : me = ⟨they, h⟩
      · rw [if_pos hi]
      · rw [if_neg hi, hs _ fun he => hi he.symm]
        rfl
    rw [run_succ, hstep]
    exact @ih _ hs (they + 1) (by omega) (by simp [goto])

/-- A CPU gets a lock that no other one shows interest in by its own steps alone. -/
theorem quiet_holds {s : Lock n} {me : Fin n} (hs : s.Quiet me) (hpc : s.pc me = .idle) :
    (s.run (List.replicate (2 * n + 3) me)).Holds me := by
  have hcount : 2 * n + 3 = 1 + (n + (1 + (n + 1))) := by omega
  have h1 : (s.run (List.replicate 1 me)) = s.write me (makeBakeryData CHOOSING_TICKET 0) (.scan 0 0) := by
    rw [run_succ, step, hpc]
    rfl
  have hdata : bakeryTicketNumber ((s.run (List.replicate 1 me)).lockData me) = 0 := by
    rw [h1]
    simp [write, number_choosing]
  have h2 := run_scan (hs.run 1) hdata (Nat.zero_add n) (by rw [h1]; simp [write])
  have hs2 := (hs.run 1).run n
  have h3 : ((s.run (List.replicate 1 me)).run (List.replicate n me)).step me =
      ((s.run (List.replicate 1 me)).run (List.replicate n me)).write me (makeBakeryData CHOSEN_TICKET 1) (.check 0 1) := by
    rw [step, h2]
    simp [scanStep]
  have h4 := run_check (hs2.run 1) (t := 1) (Nat.zero_add n) (by rw [run_succ, h3]; simp [run, write])
  refine ⟨1, ?_⟩
  rw [hcount, List.replicate_add, run_append, List.replicate_add n, run_append, List.replicate_add 1, run_append,
    List.replicate_add n, run_append, run_succ _ _ 0, step, h4]
  simp [run, checkStep, goto]

/-- The warm boot of a CPU clears the lock. Under a holder this lets the booting CPU in beside it, with no wait. -/
theorem clear_admits_second (s : Lock n) {holder booting : Fin n} (hh : s.Holds holder)
    (hb : s.pc booting = .idle) : (s.clear.run (List.replicate (2 * n + 3) booting)).Holds holder ∧
      (s.clear.run (List.replicate (2 * n + 3) booting)).Holds booting := by
  have hne : holder ≠ booting := by
    rintro rfl
    obtain ⟨t, ht⟩ := hh
    rw [hb] at ht
    cases ht
  refine ⟨?_, quiet_holds (fun _ _ => rfl) hb⟩
  obtain ⟨t, ht⟩ := hh
  exact ⟨t, by rw [(run_other _ hne _).1]; exact ht⟩

theorem clear_admits_second_two :
    (((cleared : Lock 2).run (List.replicate 7 0)).clear.run (List.replicate 7 1)).Holds 0 ∧
      (((cleared : Lock 2).run (List.replicate 7 0)).clear.run (List.replicate 7 1)).Holds 1 :=
  clear_admits_second ((cleared : Lock 2).run (List.replicate 7 0)) ⟨1, by decide⟩ (by decide)

end Lock

end RCar.BakeryLock
