import RCarM3N.Lib.Runs
import RCarM3N.Model.Avs

/-! The adaptive voltage setting over every sequence of status values: what the PMIC has been sent when the setting is
complete, and how many transfers are given up before. -/

namespace RCar.Avs

open Prog

variable {s s' t : AvsDriver} {vol : UInt8}

/-! ## The purpose -/

/-- The voltage that the table assigns to an eFuse code, for an unknown one that of AVS0. -/
def assigned (advadjp2 : UInt32) : UInt8 :=
  match initVolTbl.find? fun e => advadjp2 &&& ADVADJP2_VOLCOND_MASK = e.avs with
  | some e => e.vol
  | none => 0x53

def startCondition : Access := .write .iccr ICCR_START

/-- The accesses that the PMIC sees: those to the data and the control register. -/
def onBus : Access → Bool
  | .write .icdr _ => true
  | .write .iccr _ => true
  | _ => false

/-- What has gone out since the last start condition, in order. -/
def transfer (log : List Access) : List Access :=
  ((log.takeWhile (· ≠ startCondition)).filter onBus).reverse

/-- Exactly the address of the PMIC, its register and the voltage were sent and a stop condition followed, after which
the module was disabled. -/
structure Programmed (vol : UInt8) (log : List Access) : Prop where
  started : startCondition ∈ log
  sent : transfer log = [.write .icdr PMIC_W_SLAVE_ADDRESS, .write .icdr PMIC_DVFS_SETVID, .write .icdr vol,
    .write .iccr ICCR_STOP, .write .iccr 0x00]

def AvsStatus.transferring : AvsStatus → Bool
  | .setSlaveAddr | .writeRegAddr | .writeRegData | .stopCondition => true
  | _ => false

def AvsStatus.recovering : AvsStatus → Bool
  | .alStart | .alTransfer | .nack | .errorStop | .errorEnd => true
  | _ => false

/-- The states after the initialisation. -/
def AvsStatus.alive : AvsStatus → Bool
  | .none | .init => false
  | _ => true

/-- A call gives up the transfer. -/
def abandons (s s' : AvsDriver) : Bool := s.avsStatus.transferring && s'.avsStatus.recovering

/-- A call of `rcar_avs_setting` that returns. -/
def Setting (s : AvsDriver) (_ : Unit) (s' : AvsDriver) : Prop := rcarAvsSetting.run s = (some (), s')

/-- The transfers that the calls of a run gave up. -/
def abandoned (l : List (AvsDriver × Unit × AvsDriver)) : ℕ := l.countP fun x => abandons x.1 x.2.2

/-! ## The accesses -/

@[simp] theorem run_mmioRead8 (r : Reg) (s : AvsDriver) :
    (mmioRead8 r).run s = (some (s.device s.reads), { s with reads := s.reads + 1 }) := rfl

@[simp] theorem run_mmioWrite8 (r : Reg) (v : UInt8) (s : AvsDriver) :
    (mmioWrite8 r v).run s = (some (), { s with log := .write r v :: s.log }) := rfl

@[simp] theorem run_setStatus (st : AvsStatus) (s : AvsDriver) :
    (setStatus st).run s = (some (), { s with avsStatus := st }) := rfl

@[simp] theorem run_mmioUpdate8 (r : Reg) (f : UInt8 → UInt8) (s : AvsDriver) :
    (mmioUpdate8 r f).run s =
      (some (), { s with reads := s.reads + 1, log := .write r (f (s.device s.reads)) :: s.log }) := rfl

theorem avsSetIicClock_writes (s : AvsDriver) : ∃ a b, avsSetIicClock.run s =
    (some (), { s with log := .write .icch a :: .write .iccl b :: s.log }) := by
  unfold avsSetIicClock
  exact ⟨_, _, rfl⟩

theorem checkRetry_cases (err : AvsError) (s : AvsDriver) :
    (AVS_RETRY_NUM ≤ s.avsRetry ∧ (checkRetry err).run s = (none, s)) ∨
      (s.avsRetry < AVS_RETRY_NUM ∧ (checkRetry err).run s = (some err, s)) := by
  unfold checkRetry
  rw [run_bind_get, run_ite]
  split_ifs with h
  · exact .inl ⟨h, rfl⟩
  · exact .inr ⟨Nat.lt_of_not_le h, rfl⟩

/-- The check panics or reports an error, as the retries say, or reports none. -/
theorem avsCheckError_cases (s : AvsDriver) : ∃ n,
    (AVS_RETRY_NUM ≤ s.avsRetry ∧ avsCheckError.run s = (none, { s with reads := n })) ∨
      ∃ err, (err = .none ∨ s.avsRetry < AVS_RETRY_NUM) ∧
        avsCheckError.run s = (some err, { s with reads := n }) := by
  unfold avsCheckError
  simp only [run_bind_of_some (run_mmioRead8 _ _), run_ite]
  split_ifs with hal htack
  · rcases checkRetry_cases .al { s with reads := s.reads + 1 } with ⟨h, hrun⟩ | ⟨h, hrun⟩
    · exact ⟨_, .inl ⟨h, hrun⟩⟩
    · exact ⟨_, .inr ⟨_, .inr h, hrun⟩⟩
  · rcases checkRetry_cases .nack { s with reads := s.reads + 1 + 1 } with ⟨h, hrun⟩ | ⟨h, hrun⟩
    · exact ⟨_, .inl ⟨h, hrun⟩⟩
    · exact ⟨_, .inr ⟨_, .inr h, hrun⟩⟩
  · exact ⟨_, .inr ⟨.none, .inl rfl, rfl⟩⟩

/-! ## The steps -/

/-- What one call does: the accesses it adds and the state and the retries that it leaves. -/
inductive Move (retry : ℕ) (vol : UInt8) : AvsStatus → List Access → AvsStatus → ℕ → Prop
  | wait {st : AvsStatus} (h : st ≠ .startCondition) : Move retry vol st [] st retry
  | start (rest : List Access) : Move retry vol .startCondition (startCondition :: rest) .setSlaveAddr retry
  | slaveAddr (v : UInt8) : Move retry vol .setSlaveAddr [.write .icdr PMIC_W_SLAVE_ADDRESS, .write .icic v]
      .writeRegAddr retry
  | regAddr (v : UInt8) : Move retry vol .writeRegAddr [.write .icsr v, .write .icdr PMIC_DVFS_SETVID]
      .writeRegData retry
  | regData (v : UInt8) : Move retry vol .writeRegData [.write .icsr v, .write .icdr vol] .stopCondition retry
  | stop (v : UInt8) : Move retry vol .stopCondition [.write .icsr v, .write .iccr ICCR_STOP] .fin retry
  | disable : Move retry vol .fin [.write .iccr 0x00] .complete retry
  | abandon {st st' : AvsStatus} (h : st.transferring) (h' : st'.recovering) (hretry : retry < AVS_RETRY_NUM) :
      Move retry vol st [] st' retry
  | recover {st st' : AvsStatus} (h : st.recovering) (h' : st'.recovering) (new : List Access) :
      Move retry vol st new st' retry
  | again : Move retry vol .errorEnd [.write .iccr 0x00] .startCondition (retry + 1)

/-- The call goes from `s` to `s'` by a move. -/
def Moves (vol : UInt8) (s s' : AvsDriver) : Prop := ∃ n new st retry,
  s' = { s with reads := n, log := new ++ s.log, avsStatus := st, avsRetry := retry } ∧
    Move s.avsRetry vol s.avsStatus new st retry

/-- The call panics with nothing done. -/
def Panics (s : AvsDriver) : Prop := AVS_RETRY_NUM ≤ s.avsRetry ∧ s.avsStatus.transferring ∧
  ∃ n, rcarAvsSetting.run s = (none, { s with reads := n })

theorem transferState_cases {alState : AvsStatus} {bit : UInt8} {next : Prog AvsDriver Unit}
    (hst : s.avsStatus.transferring) (hal : alState.recovering)
    (hnext : ∀ n, ∃ s', next.run { s with reads := n } = (some (), s') ∧ Moves vol s s') :
    (AVS_RETRY_NUM ≤ s.avsRetry ∧ ∃ n, (transferState alState bit next).run s = (none, { s with reads := n })) ∨
      ∃ s', (transferState alState bit next).run s = (some (), s') ∧ Moves vol s s' := by
  obtain ⟨n, ⟨hretry, hrun⟩ | ⟨err, herr, hrun⟩⟩ := avsCheckError_cases s
  · exact .inl ⟨hretry, n, run_bind_of_none hrun _⟩
  · refine .inr ?_
    unfold transferState
    rw [run_bind_of_some hrun]
    cases err with
    | al =>
      have hlt : s.avsRetry < AVS_RETRY_NUM := herr.resolve_left (by decide)
      exact ⟨_, rfl, n, [], alState, s.avsRetry, rfl, .abandon hst hal hlt⟩
    | nack =>
      have hlt : s.avsRetry < AVS_RETRY_NUM := herr.resolve_left (by decide)
      exact ⟨_, rfl, n, [], .nack, s.avsRetry, rfl, .abandon hst rfl hlt⟩
    | none =>
      rw [if_neg (by decide), if_neg (by decide), run_bind_of_some (run_mmioRead8 _ _), run_ite]
      split_ifs
      · exact hnext (n + 1)
      · refine ⟨_, rfl, n + 1, [], s.avsStatus, s.avsRetry, rfl, .wait ?_⟩
        rintro heq
        rw [heq] at hst
        cases hst

theorem waitState_cases {ready : UInt8 → Bool} {next : Prog AvsDriver Unit} (hst : s.avsStatus ≠ .startCondition)
    (hnext : ∀ n, ∃ s', next.run { s with reads := n } = (some (), s') ∧ Moves vol s s') :
    ∃ s', (waitState ready next).run s = (some (), s') ∧ Moves vol s s' := by
  unfold waitState
  rw [run_bind_of_some (run_mmioRead8 _ _), run_ite]
  split_ifs
  · exact hnext (s.reads + 1)
  · exact ⟨_, rfl, s.reads + 1, [], s.avsStatus, s.avsRetry, rfl, .wait hst⟩

/-- The voltage of the table entry that was chosen. -/
def Chosen (vol : UInt8) (s : AvsDriver) : Prop := ∃ e, initVolTbl[s.efuseAvs]? = some e ∧ e.vol = vol

/-- Once it is initialised a call makes a move, or it panics in a transfer. -/
theorem setting_cases (hvol : Chosen vol s) (halive : s.avsStatus.alive) :
    Panics s ∨ ∃ s', rcarAvsSetting.run s = (some (), s') ∧ Moves vol s s' := by
  -- the states of a transfer, and the states that wait or go on at once
  have htransfer : ∀ {alState bit next}, s.avsStatus.transferring = true → alState.recovering = true →
      rcarAvsSetting.run s = (transferState alState bit next).run s →
      (∀ n, ∃ s', next.run { s with reads := n } = (some (), s') ∧ Moves vol s s') →
      Panics s ∨ ∃ s', rcarAvsSetting.run s = (some (), s') ∧ Moves vol s s' := by
    intro alState bit next hst hal hrun hnext
    rw [Panics, hrun]
    rcases transferState_cases hst hal hnext with ⟨hretry, hpanic⟩ | hmoves
    · exact .inl ⟨hretry, hst, hpanic⟩
    · exact .inr hmoves
  have hwait : ∀ {ready next}, s.avsStatus ≠ .startCondition →
      rcarAvsSetting.run s = (waitState ready next).run s →
      (∀ n, ∃ s', next.run { s with reads := n } = (some (), s') ∧ Moves vol s s') →
      Panics s ∨ ∃ s', rcarAvsSetting.run s = (some (), s') ∧ Moves vol s s' := by
    intro ready next hst hrun hnext
    rw [hrun]
    exact .inr (waitState_cases hst hnext)
  cases hst : s.avsStatus with
  | none =>
    rw [hst] at halive
    cases halive
  | init =>
    rw [hst] at halive
    cases halive
  | startCondition =>
    obtain ⟨a, b, hclock⟩ := avsSetIicClock_writes { s with
      reads := s.reads + 1
      log := .write .iccr (s.device s.reads ||| ICCR_ENABLE) :: s.log }
    have hrun : rcarAvsSetting.run s = (some (), { s with
        reads := s.reads + 2
        avsStatus := .setSlaveAddr
        log := startCondition ::
          [.write .icic (s.device (s.reads + 1) ||| ICIC_TACKE ||| ICIC_WAITE ||| ICIC_DTEE), .write .icch a,
            .write .iccl b, .write .iccr (s.device s.reads ||| ICCR_ENABLE)] ++ s.log }) := by
      unfold rcarAvsSetting
      rw [run_bind_get, hst]
      simp only [run_bind_of_some (run_mmioUpdate8 _ _ _), run_bind_of_some hclock]
      rfl
    exact .inr ⟨_, hrun, _, _, _, _, rfl, hst ▸ .start _⟩
  | setSlaveAddr =>
    refine htransfer (by rw [hst]; rfl) rfl (by unfold rcarAvsSetting; rw [run_bind_get, hst]) fun n => ?_
    exact ⟨_, rfl, _, [_, _], _, _, rfl, hst ▸ .slaveAddr _⟩
  | writeRegAddr =>
    refine htransfer (by rw [hst]; rfl) rfl (by unfold rcarAvsSetting; rw [run_bind_get, hst]) fun n => ?_
    exact ⟨_, rfl, _, [_, _], _, _, rfl, hst ▸ .regAddr _⟩
  | writeRegData =>
    obtain ⟨e, he, rfl⟩ := hvol
    refine htransfer (by rw [hst]; rfl) rfl (by unfold rcarAvsSetting; rw [run_bind_get, hst]) fun n => ?_
    rw [he]
    exact ⟨_, rfl, _, [_, _], _, _, rfl, hst ▸ .regData _⟩
  | stopCondition =>
    refine htransfer (by rw [hst]; rfl) rfl (by unfold rcarAvsSetting; rw [run_bind_get, hst]) fun n => ?_
    exact ⟨_, rfl, _, [_, _], _, _, rfl, hst ▸ .stop _⟩
  | fin =>
    refine hwait (by rw [hst]; decide) (by unfold rcarAvsSetting; rw [run_bind_get, hst]) fun n => ?_
    exact ⟨_, rfl, _, [_], _, _, rfl, hst ▸ .disable⟩
  | complete =>
    refine .inr ⟨s, ?_, s.reads, [], s.avsStatus, s.avsRetry, rfl, .wait (by rw [hst]; decide)⟩
    unfold rcarAvsSetting
    rw [run_bind_get, hst]
    rfl
  | alStart =>
    refine .inr ⟨_, by unfold rcarAvsSetting; rw [run_bind_get, hst]; rfl, _, [_, _], .errorStop, _, rfl, ?_⟩
    exact hst ▸ .recover rfl rfl _
  | alTransfer =>
    refine .inr ⟨_, by unfold rcarAvsSetting; rw [run_bind_get, hst]; rfl, _, [_], .errorStop, _, rfl, ?_⟩
    exact hst ▸ .recover rfl rfl _
  | nack =>
    refine .inr ⟨_, by unfold rcarAvsSetting; rw [run_bind_get, hst]; rfl, _, [_, _, _], .errorEnd, _, rfl, ?_⟩
    exact hst ▸ .recover rfl rfl _
  | errorStop =>
    refine hwait (by rw [hst]; decide) (by unfold rcarAvsSetting; rw [run_bind_get, hst]) fun n => ?_
    exact ⟨_, rfl, _, [_, _], .errorEnd, _, rfl, hst ▸ .recover rfl rfl _⟩
  | errorEnd =>
    refine hwait (by rw [hst]; decide) (by unfold rcarAvsSetting; rw [run_bind_get, hst]) fun n => ?_
    exact ⟨_, rfl, _, [_], .startCondition, _, rfl, hst ▸ .again⟩

/-! ## The invariant -/

/-- What has gone out when a transfer is in the given state. -/
def sentBy (vol : UInt8) : AvsStatus → Option (List Access)
  | .setSlaveAddr => some []
  | .writeRegAddr => some [.write .icdr PMIC_W_SLAVE_ADDRESS]
  | .writeRegData => some [.write .icdr PMIC_W_SLAVE_ADDRESS, .write .icdr PMIC_DVFS_SETVID]
  | .stopCondition => some [.write .icdr PMIC_W_SLAVE_ADDRESS, .write .icdr PMIC_DVFS_SETVID, .write .icdr vol]
  | .fin => some [.write .icdr PMIC_W_SLAVE_ADDRESS, .write .icdr PMIC_DVFS_SETVID, .write .icdr vol,
      .write .iccr ICCR_STOP]
  | .complete => some [.write .icdr PMIC_W_SLAVE_ADDRESS, .write .icdr PMIC_DVFS_SETVID, .write .icdr vol,
      .write .iccr ICCR_STOP, .write .iccr 0x00]
  | _ => none

/-- The transfers given up: those that were tried again, and the one that is being recovered. -/
def givenUp (s : AvsDriver) : ℕ := s.avsRetry + if s.avsStatus.recovering then 1 else 0

structure Inv (vol : UInt8) (s : AvsDriver) : Prop where
  chosen : Chosen vol s
  alive : s.avsStatus.alive
  retries : givenUp s ≤ AVS_RETRY_NUM
  sent : ∀ l, sentBy vol s.avsStatus = some l → startCondition ∈ s.log ∧ transfer s.log = l

theorem transfer_append {new log : List Access} (h : startCondition ∉ new) :
    transfer (new ++ log) = transfer log ++ (new.filter onBus).reverse := by
  have hnew : ∀ a ∈ new, decide (a ≠ startCondition) = true := by
    intro a ha
    exact decide_eq_true fun heq => h (heq ▸ ha)
  rw [transfer, List.takeWhile_append_of_pos hnew, List.filter_append, List.reverse_append, transfer]

theorem transfer_start (log : List Access) : transfer (startCondition :: log) = [] := by
  simp [transfer]

/-- A byte more has gone out. -/
theorem sent_append {new : List Access} {log : List Access} {l l' : List Access}
    (h : startCondition ∈ log ∧ transfer log = l) (hnew : startCondition ∉ new)
    (hl : l ++ (new.filter onBus).reverse = l') :
    startCondition ∈ new ++ log ∧ transfer (new ++ log) = l' :=
  ⟨List.mem_append_right _ h.1, by rw [transfer_append hnew, h.2, hl]⟩

theorem transferring_not_recovering {st : AvsStatus} (h : st.recovering = true) : st.transferring = false := by
  cases st <;> first | rfl | cases h

/-- A state of a recovery is none of the others, and nothing is said of what has gone out. -/
theorem recovering_alive (vol : UInt8) {st : AvsStatus} (h : st.recovering = true) :
    st.alive = true ∧ sentBy vol st = none := by
  cases st <;> first | exact ⟨rfl, rfl⟩ | cases h

theorem Inv.moves (h : Inv vol s) (hm : Moves vol s s') :
    Inv vol s' ∧ givenUp s' = givenUp s + if abandons s s' then 1 else 0 := by
  obtain ⟨n, new, st, retry, rfl, hmove⟩ := hm
  obtain ⟨chosen, alive, retries, sent⟩ := h
  obtain ⟨device, reads, advadjp2, modemr, status, avsRetry, efuse, log⟩ := s
  simp only at hmove alive sent
  cases hmove with
  | wait h =>
    have hstays : (st.transferring && st.recovering) = false := by cases st <;> rfl
    refine ⟨⟨chosen, alive, retries, sent⟩, ?_⟩
    simp only [givenUp, abandons, hstays]
    rfl
  | start rest =>
    refine ⟨⟨chosen, rfl, retries, fun l hl => ?_⟩, rfl⟩
    cases hl
    exact ⟨List.mem_cons_self, transfer_start _⟩
  | slaveAddr v =>
    refine ⟨⟨chosen, rfl, retries, fun l hl => ?_⟩, rfl⟩
    cases hl
    exact sent_append (sent _ rfl) (by simp [startCondition]) rfl
  | regAddr v =>
    refine ⟨⟨chosen, rfl, retries, fun l hl => ?_⟩, rfl⟩
    cases hl
    exact sent_append (sent _ rfl) (by simp [startCondition]) rfl
  | regData v =>
    refine ⟨⟨chosen, rfl, retries, fun l hl => ?_⟩, rfl⟩
    cases hl
    exact sent_append (sent _ rfl) (by simp [startCondition]) rfl
  | stop v =>
    refine ⟨⟨chosen, rfl, retries, fun l hl => ?_⟩, rfl⟩
    cases hl
    exact sent_append (sent _ rfl) (by simp [startCondition, ICCR_START, ICCR_STOP]) rfl
  | disable =>
    refine ⟨⟨chosen, rfl, retries, fun l hl => ?_⟩, rfl⟩
    cases hl
    exact sent_append (sent _ rfl) (by decide) rfl
  | abandon h h' hretry =>
    have hbefore : status.recovering = false := by
      by_contra hrec
      rw [transferring_not_recovering (Bool.eq_true_of_not_eq_false hrec)] at h
      cases h
    obtain ⟨halive, hsent⟩ := recovering_alive vol h'
    refine ⟨⟨chosen, halive, ?_, fun l hl => ?_⟩, ?_⟩
    · simp only [givenUp, h']
      exact hretry
    · rw [hsent] at hl
      cases hl
    · simp only [givenUp, abandons, h, h', hbefore]
      rfl
  | recover h h' new =>
    obtain ⟨halive, hsent⟩ := recovering_alive vol h'
    refine ⟨⟨chosen, halive, ?_, fun l hl => ?_⟩, ?_⟩
    · simp only [givenUp, h, h'] at retries ⊢
      exact retries
    · rw [hsent] at hl
      cases hl
    · simp only [givenUp, abandons, transferring_not_recovering h, h, h']
      rfl
  | again =>
    refine ⟨⟨chosen, rfl, retries, fun l hl => by cases hl⟩, rfl⟩

/-! ## The runs -/

theorem disableModule_keeps (fuel : ℕ) (h : (disableModule fuel).run s = (some (), s')) :
    ∃ n log, s' = { s with reads := n, log := log } := by
  induction fuel generalizing s with
  | zero => cases h
  | succ fuel ih =>
    unfold disableModule at h
    rw [run_bind_of_some (run_mmioRead8 _ _), run_ite] at h
    split_ifs at h
    · rw [run_bind_of_some (run_mmioWrite8 _ _ _)] at h
      obtain ⟨n, log, rfl⟩ := ih h
      exact ⟨n, log, rfl⟩
    · cases h
      exact ⟨_, s.log, rfl⟩

/-- The entry that the initialisation chooses, when the search for the code has come to entry `i`. -/
theorem chosen_entry (p : InitialVoltage → Bool) {i : ℕ}
    (hi : i = if initVolTbl.findIdx p ≥ EFUSE_AVS_NUM then EFUSE_AVS0 else initVolTbl.findIdx p) :
    ∃ e, initVolTbl[i]? = some e ∧ e.vol = match initVolTbl.find? p with
      | some e => e.vol
      | none => 0x53 := by
  cases hfind : initVolTbl.find? p with
  | none =>
    have hlen : initVolTbl.findIdx p = initVolTbl.length := List.findIdx_eq_length.mpr fun x hx => by
      simpa using List.find?_eq_none.mp hfind x hx
    rw [if_pos (by rw [hlen]; exact le_rfl)] at hi
    subst hi
    exact ⟨_, rfl, rfl⟩
  | some e =>
    have hlt : initVolTbl.findIdx p < initVolTbl.length := List.findIdx_lt_length.mpr
      ⟨e, List.mem_of_find?_eq_some hfind, List.find?_some hfind⟩
    rw [if_neg (show ¬initVolTbl.findIdx p ≥ EFUSE_AVS_NUM from Nat.not_le_of_gt hlt)] at hi
    subst hi
    exact ⟨e, by rw [← List.find?_eq_getElem?_findIdx, hfind], rfl⟩

theorem init_inv {fuel : ℕ} (hretry : s.avsRetry = 0) (h : (rcarAvsInit fuel).run s = (some (), s')) :
    Inv (assigned s.advadjp2) s' ∧ givenUp s' = 0 := by
  obtain ⟨i, hi⟩ : ∃ i, i = if (initVolTbl.findIdx fun e => s.advadjp2 &&& ADVADJP2_VOLCOND_MASK = e.avs) ≥
    EFUSE_AVS_NUM then EFUSE_AVS0 else initVolTbl.findIdx fun e => s.advadjp2 &&& ADVADJP2_VOLCOND_MASK = e.avs := ⟨_, rfl⟩
  obtain ⟨u, hu, hs'⟩ : ∃ u, (disableModule fuel).run { s with
      avsStatus := .init
      efuseAvs := i
      log := [.write .iccr 0x00, .mstpcr CPG_SYS_DVFS_BIT, .mstpcr CPG_SYS_ADVFS_BIT] ++ s.log } = (some (), u) ∧
        s' = { u with avsStatus := .startCondition } := by
    subst hi
    obtain ⟨_, u, hu, h'⟩ := run_bind_eq_some (x := disableModule fuel) (f := fun _ => setStatus .startCondition) h
    exact ⟨u, hu, (congrArg Prod.snd h').symm⟩
  obtain ⟨n, log, rfl⟩ := disableModule_keeps fuel hu
  subst hs'
  refine ⟨⟨chosen_entry _ hi, rfl, ?_, fun l hl => by cases hl⟩, ?_⟩
  · simp [givenUp, hretry, AvsStatus.recovering]
  · simp [givenUp, hretry, AvsStatus.recovering]

theorem abandoned_givenUp {l : List (AvsDriver × Unit × AvsDriver)} (hs : Inv vol s) (h : Runs Setting s l t) :
    Inv vol t ∧ givenUp t = givenUp s + abandoned l := by
  induction h with
  | nil s => exact ⟨hs, rfl⟩
  | @cons s u t r l h _ ih =>
    rcases setting_cases hs.chosen hs.alive with ⟨-, -, n, hpanic⟩ | ⟨s', hs', hmoves⟩
    · rw [Setting, hpanic] at h
      cases h
    · obtain ⟨-, rfl⟩ := run_unique h hs'
      obtain ⟨hu, hgiven⟩ := hs.moves hmoves
      obtain ⟨ht, hrest⟩ := ih hu
      refine ⟨ht, ?_⟩
      have hcons : abandoned ((s, r, u) :: l) = abandoned l + if abandons s u then 1 else 0 := List.countP_cons
      rw [hrest, hgiven, hcons]
      omega

/-- What holds after any number of calls: it is complete only with the PMIC programmed, it has given up at most
`AVS_RETRY_NUM` transfers, it panics only after that many and then with nothing done, and once it is complete
nothing changes. -/
structure SetsVoltage (vol : UInt8) (l : List (AvsDriver × Unit × AvsDriver)) (t : AvsDriver) : Prop where
  programmed : t.avsStatus = .complete → Programmed vol t.log
  retries : abandoned l ≤ AVS_RETRY_NUM
  panics : ∀ t', rcarAvsSetting.run t = (none, t') →
    abandoned l = AVS_RETRY_NUM ∧ t'.log = t.log ∧ t'.avsStatus = t.avsStatus
  silent : t.avsStatus = .complete → rcarAvsSetting.run t = (some (), t)

theorem setsVoltage {fuel : ℕ} {l : List (AvsDriver × Unit × AvsDriver)} (hretry : s.avsRetry = 0)
    (hinit : (rcarAvsInit fuel).run s = (some (), s')) (hl : Runs Setting s' l t) :
    SetsVoltage (assigned s.advadjp2) l t := by
  obtain ⟨hs', hzero⟩ := init_inv hretry hinit
  obtain ⟨ht, hcount⟩ := abandoned_givenUp hs' hl
  rw [hzero, Nat.zero_add] at hcount
  refine ⟨fun hst => ?_, hcount ▸ ht.retries, fun t' ht' => ?_, fun hst => ?_⟩
  · obtain ⟨hstart, hsent⟩ := ht.sent _ (by rw [hst]; rfl)
    exact ⟨hstart, hsent⟩
  · rcases setting_cases ht.chosen ht.alive with ⟨hfull, -, n, hpanic⟩ | ⟨u, hu, -⟩
    · rw [ht'] at hpanic
      cases hpanic
      have hle := ht.retries
      refine ⟨?_, rfl, rfl⟩
      rw [← hcount]
      unfold givenUp at hle ⊢
      omega
    · rw [ht'] at hu
      cases hu
  · unfold rcarAvsSetting
    rw [run_bind_get, hst]
    rfl

/-- A device that is always ready for the next byte, and a code that the table does not have. -/
def readyDevice : AvsDriver := ⟨fun _ => 0x03, 0, 0x1FF, 0, .none, 0, 0, []⟩

/-- The states of a number of calls after the initialisation. -/
def calls : ℕ → AvsDriver
  | 0 => ((rcarAvsInit 1).run readyDevice).2
  | n + 1 => (rcarAvsSetting.run (calls n)).2

/-- Six calls program the voltage of AVS0. -/
theorem sixCalls_setVoltage : (calls 6).avsStatus = .complete ∧ Programmed 0x53 (calls 6).log := by
  have hrun : Runs Setting (calls 0) [(calls 0, (), calls 1), (calls 1, (), calls 2), (calls 2, (), calls 3),
      (calls 3, (), calls 4), (calls 4, (), calls 5), (calls 5, (), calls 6)] (calls 6) :=
    .cons rfl (.cons rfl (.cons rfl (.cons rfl (.cons rfl (.cons rfl (.nil _))))))
  have hinit : (rcarAvsInit 1).run readyDevice = (some (), calls 0) := rfl
  exact ⟨rfl, (setsVoltage rfl hinit hrun).programmed rfl⟩

end RCar.Avs
