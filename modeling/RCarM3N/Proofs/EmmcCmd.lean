import RCarM3N.Model.EmmcCmd

/-! The execution of an eMMC command for every sequence of status values: which samples the state
machine heeds, and what a command that succeeds has seen. -/

namespace RCar.Emmc

open Prog

variable {s t u : Mmc} {x : Sample} {errorMask : UInt32} {response n : ℕ}

/-! ## Events -/

namespace Sample

/-- An error of SD_INFO2. -/
def SdError (x : Sample) : Prop := SD_INFO2_ALL_ERR &&& x.intEvent2 ≠ 0

/-- The buffer is ready for a block. -/
def Pio (x : Sample) : Prop := (SD_INFO2_BWE ||| SD_INFO2_BRE) &&& x.intEvent2 ≠ 0

/-- A transfer of DMA channel 0 or 1 has ended. -/
def Dma0End (x : Sample) : Prop := BIT16 &&& x.dmEvent1 ≠ 0

def Dma1End (x : Sample) : Prop := x.endBit &&& x.dmEvent1 ≠ 0

/-- An error of a DMA channel. -/
def DmaError (x : Sample) : Prop := (BIT16 ||| BIT17) &&& x.dmEvent2 ≠ 0

def ResponseEnd (x : Sample) : Prop := SD_INFO1_INFO0 &&& x.intEvent1 ≠ 0

def AccessEnd (x : Sample) : Prop := SD_INFO1_INFO2 &&& x.intEvent1 ≠ 0

/-- The card was busy. -/
def Busy (x : Sample) : Prop := x.info2 &&& SD_INFO2_CBSY ≠ 0

/-- The event handler wakes the state machine. -/
def Unblocks (x : Sample) : Prop :=
  x.SdError ∨ x.Pio ∨ x.Dma0End ∨ x.Dma1End ∨ x.ResponseEnd ∨ x.AccessEnd

/-- The event handler takes the sample for a failed DMA transfer. -/
def DmaFailure (x : Sample) : Prop :=
  ¬ x.SdError ∧ ¬ x.Pio ∧ ((x.Dma0End ∧ BIT16 &&& x.dmEvent2 ≠ 0) ∨
    (¬ x.Dma0End ∧ x.Dma1End ∧ BIT17 &&& x.dmEvent2 ≠ 0))

/-- The transfer of a data command has ended: the buffer is ready for its direction, or its DMA
channel has ended. -/
def Complete (mode : HalMemcardDataTransferMode) (dir : HalMemcardOperation) (x : Sample) : Prop :=
  match mode, dir with
  | .HAL_MEMCARD_NOT_DMA, .HAL_MEMCARD_WRITE => SD_INFO2_BWE &&& x.intEvent2 ≠ 0
  | .HAL_MEMCARD_NOT_DMA, .HAL_MEMCARD_READ => SD_INFO2_BRE &&& x.intEvent2 ≠ 0
  | .HAL_MEMCARD_DMA, .HAL_MEMCARD_WRITE => x.Dma0End
  | .HAL_MEMCARD_DMA, .HAL_MEMCARD_READ => x.Dma1End

end Sample

/-- An error bit in a sample, or in a response under the mask of the caller. -/
def Event.IsError (errorMask : UInt32) : Event → Prop
  | .sample _ x => x.SdError ∨ x.DmaError
  | .response word => word &&& errorMask ≠ 0

/-- What a command that succeeds has seen, each event while the machine waited for it. -/
structure Succeeded (info : StCommandInfo) (mode : HalMemcardDataTransferMode)
    (errorMask : UInt32) (events : List Event) : Prop where
  noError : ∀ e ∈ events, ¬ e.IsError errorMask
  responseEnd : ∃ state x, Event.sample state x ∈ events ∧
    (state = .ESTATE_NON_RESP_CMD ∨ state = .ESTATE_RCV_RESP) ∧ x.ResponseEnd
  complete : info.cmd.commandType.isData = true →
    ∃ x, Event.sample .ESTATE_DATA_TRANSFER_COMPLETE x ∈ events ∧ x.Complete mode info.dir
  accessEnd : info.cmd.commandType.isData = true →
    ∃ x, Event.sample .ESTATE_ACCESS_END x ∈ events ∧ x.AccessEnd

/-- The flags that say that something is in progress are clear. -/
structure InProgressClear (s : Mmc) : Prop where
  duringCmdProcessing : s.duringCmdProcessing = false
  duringTransfer : s.duringTransfer = false
  duringDmaTransfer : s.duringDmaTransfer = false
  stateMachineBlocking : s.stateMachineBlocking = false
  forceTerminate : s.forceTerminate = false

/-- The result of a command reports every failure, and nothing is left in progress. -/
def Reports (info : StCommandInfo) (mode : HalMemcardDataTransferMode) (errorMask : UInt32)
    (r : Option EmmcErrorCode × Mmc) : Prop :=
  (∀ code, r.1 = some code → InProgressClear r.2) ∧
  (r.1 = some .EMMC_SUCCESS → Succeeded info mode errorMask r.2.events)

/-! ## When the machine heeds its samples -/

/-- The sample that the next call of the event handler takes. -/
def sampled (s : Mmc) : Option Sample :=
  match s.input with
  | info1 :: info2 :: _ :: _ :: dmInfo1 :: dmInfo2 :: _ => some {
      info2 := info2
      endBit := dmaEndBit (s.reg .RCAR_PRR)
      intEvent1 := info1 &&& s.reg .SD_INFO1_MASK
      intEvent2 := info2 &&& s.reg .SD_INFO2_MASK
      dmEvent1 := dmInfo1 &&& s.reg .DM_CM_INFO1_MASK
      dmEvent2 := dmInfo2 &&& s.reg .DM_CM_INFO2_MASK }
  | _ => none

/-- A sample that does not get past the machine, by the state it is taken in. -/
def Heeded (s : Mmc) (x : Sample) : Prop :=
  match s.state with
  | .ESTATE_BEGIN =>
    (x.Busy → x.Pio → x.SdError) ∧ (¬ x.Busy → ¬ x.SdError ∧ (x.DmaError → x.Pio))
  | .ESTATE_NON_RESP_CMD | .ESTATE_RCV_RESP =>
    x.DmaError → x.SdError ∨ (x.Unblocks ∧ ¬ x.ResponseEnd)
  | .ESTATE_RCV_RESPONSE_BUSY => x.DmaError → x.SdError
  | .ESTATE_CHECK_RESPONSE_COMPLETE | .ESTATE_DATA_TRANSFER => ¬ x.SdError ∧ ¬ x.DmaError
  | .ESTATE_DATA_TRANSFER_COMPLETE =>
    s.dmaErrorFlag = true ∨ x.SdError ∨ x.DmaFailure ∨
      (¬ x.DmaError ∧ (x.Unblocks → x.Complete s.transferMode s.cmdInfo.dir))
  | .ESTATE_ACCESS_END => ¬ x.SdError ∧ ¬ x.DmaError ∧ (x.Unblocks → x.AccessEnd)
  | _ => True

/-- The rounds of the loop, `n` at most, all heed their samples. -/
def HeededRun (errorMask : UInt32) (response : ℕ) : ℕ → Mmc → Prop
  | 0, _ => True
  | n + 1, s => s.running = true → (∀ x, sampled s = some x → Heeded s x) ∧
    ∀ t, (round errorMask response).run s = (some none, t) → HeededRun errorMask response n t

instance (x : Sample) : Decidable x.SdError := inferInstanceAs (Decidable (_ ≠ _))
instance (x : Sample) : Decidable x.Pio := inferInstanceAs (Decidable (_ ≠ _))
instance (x : Sample) : Decidable x.Dma0End := inferInstanceAs (Decidable (_ ≠ _))
instance (x : Sample) : Decidable x.Dma1End := inferInstanceAs (Decidable (_ ≠ _))
instance (x : Sample) : Decidable x.DmaError := inferInstanceAs (Decidable (_ ≠ _))
instance (x : Sample) : Decidable x.ResponseEnd := inferInstanceAs (Decidable (_ ≠ _))
instance (x : Sample) : Decidable x.AccessEnd := inferInstanceAs (Decidable (_ ≠ _))
instance (x : Sample) : Decidable x.Busy := inferInstanceAs (Decidable (_ ≠ _))
instance (x : Sample) : Decidable x.Unblocks := inferInstanceAs (Decidable (_ ∨ _))
instance (x : Sample) : Decidable x.DmaFailure := inferInstanceAs (Decidable (_ ∧ _))

instance (mode : HalMemcardDataTransferMode) (dir : HalMemcardOperation) (x : Sample) :
    Decidable (x.Complete mode dir) :=
  match mode, dir with
  | .HAL_MEMCARD_NOT_DMA, .HAL_MEMCARD_WRITE => inferInstanceAs (Decidable (_ ≠ _))
  | .HAL_MEMCARD_NOT_DMA, .HAL_MEMCARD_READ => inferInstanceAs (Decidable (_ ≠ _))
  | .HAL_MEMCARD_DMA, .HAL_MEMCARD_WRITE => inferInstanceAs (Decidable x.Dma0End)
  | .HAL_MEMCARD_DMA, .HAL_MEMCARD_READ => inferInstanceAs (Decidable x.Dma1End)

instance (s : Mmc) (x : Sample) : Decidable (Heeded s x) := by
  unfold Heeded
  split <;> infer_instance

instance decidableHeededRun (errorMask : UInt32) (response : ℕ) :
    ∀ n s, Decidable (HeededRun errorMask response n s)
  | 0, _ => isTrue trivial
  | n + 1, s =>
    have : Decidable (∀ x, sampled s = some x → Heeded s x) :=
      match sampled s with
      | none => isTrue (fun _ h => nomatch h)
      | some x => decidable_of_iff (Heeded s x) ⟨fun h _ hx => Option.some.inj hx ▸ h, fun h => h x rfl⟩
    have : Decidable (∀ t, (round errorMask response).run s = (some none, t) →
        HeededRun errorMask response n t) :=
      match (round errorMask response).run s with
      | (none, _) => isTrue (fun _ h => nomatch h)
      | (some (some _), _) => isTrue (fun _ h => nomatch h)
      | (some none, u) => have := decidableHeededRun errorMask response n u
        decidable_of_iff (HeededRun errorMask response n u)
          ⟨fun h _ hu => (Prod.mk.inj hu).2 ▸ h, fun h => h u rfl⟩
    inferInstanceAs (Decidable (_ → _ ∧ _))

/-! ## Accesses -/

/-- Only the registers and the data have changed. -/
def SameObj (s t : Mmc) : Prop :=
  ∃ input fifo sent mem reg,
    t = { s with input := input, fifo := fifo, sent := sent, mem := mem, reg := reg }

instance : IsPreorder Mmc SameObj where
  refl s := ⟨s.input, s.fifo, s.sent, s.mem, s.reg, rfl⟩
  trans _ _ _ h h' := by
    obtain ⟨_, _, _, _, _, rfl⟩ := h
    obtain ⟨input, fifo, sent, mem, reg, rfl⟩ := h'
    exact ⟨input, fifo, sent, mem, reg, rfl⟩

theorem run_getr32 (r : Reg) (s : Mmc) : (getr32 r).run s = if r.isStatus then
    match s.input with
    | [] => (none, s)
    | v :: l => (some v, { s with input := l })
  else (some (s.reg r), s) := rfl

theorem getr32_keeps (r : Reg) : Keeps SameObj (getr32 r) := by
  intro s
  rw [run_getr32]
  split
  · split
    · exact refl_of SameObj s
    · exact ⟨_, s.fifo, s.sent, s.mem, s.reg, rfl⟩
  · exact refl_of SameObj s

theorem setr32_keeps (r : Reg) (v : UInt32) : Keeps SameObj (setr32 r v) :=
  fun s => ⟨s.input, s.fifo, s.sent, s.mem, Function.update s.reg r v, rfl⟩

theorem run_getr64 (s : Mmc) : getr64.run s = match s.fifo with
    | [] => (none, s)
    | v :: l => (some v, { s with fifo := l }) := rfl

theorem getr64_keeps : Keeps SameObj getr64 := by
  intro s
  rw [run_getr64]
  split
  · exact refl_of SameObj s
  · exact ⟨s.input, _, s.sent, s.mem, s.reg, rfl⟩

theorem storeBytes_keeps (p : ℕ) (bytes : List UInt8) : Keeps SameObj (storeBytes p bytes) :=
  fun s => ⟨s.input, s.fifo, s.sent, _, s.reg, rfl⟩

theorem run_awaitBre (s : Mmc) : awaitBre.run s = match breCheck s.input with
    | none => (none, { s with input := [] })
    | some (came, l) => (some came, { s with input := l }) := rfl

theorem awaitBre_keeps : Keeps SameObj awaitBre := by
  intro s
  rw [run_awaitBre]
  split <;> exact ⟨_, s.fifo, s.sent, s.mem, s.reg, rfl⟩

theorem transWords_keeps (k i p : ℕ) : Keeps SameObj (transWords k i p) := by
  induction k generalizing i p with
  | zero => exact Keeps.pure _
  | succ k ih =>
    have hread : Keeps SameObj (do
        let v ← getr64
        storeBytes p ((List.range 8).map fun j => (v >>> UInt64.ofNat (8 * j)).toUInt8)
        transWords k (i + 1) (p + 8)) :=
      Keeps.bind getr64_keeps fun v => Keeps.bind (storeBytes_keeps _ _) fun _ => ih _ _
    refine Keeps.bind Keeps.get fun s => Keeps.ite ?_ (Keeps.ite ?_ hread)
    · refine Keeps.bind Keeps.get fun s => Keeps.bind ?_ fun _ => ih _ _
      exact fun s => ⟨s.input, s.fifo, _, s.mem, s.reg, rfl⟩
    · refine Keeps.bind awaitBre_keeps fun came => Keeps.ite ?_ (Keeps.pure _)
      exact Keeps.bind (getr32_keeps _) fun _ => Keeps.bind (setr32_keeps _ _) fun _ => hread

theorem emmcTransSector_keeps (p : ℕ) : Keeps SameObj (emmcTransSector p) :=
  Keeps.ite (Keeps.pure _) (Keeps.bind Keeps.get fun _ => Keeps.ite (Keeps.pure _)
    (transWords_keeps _ _ _))

/-- No sector is moved unless a transfer is under way. -/
theorem emmcTransSector_idle (p : ℕ) (h : s.duringTransfer = false) :
    ∃ code, code ≠ .EMMC_SUCCESS ∧ (emmcTransSector p).run s = (some code, s) := by
  unfold emmcTransSector
  rw [run_ite]
  split_ifs
  · exact ⟨.EMMC_ERR_PARAM, by decide, rfl⟩
  · rw [run_bind_get, run_ite, if_pos (.inl h)]
    exact ⟨.EMMC_ERR_STATE, by decide, rfl⟩

/-! ## The event handler -/

/-- What the event handler does with a sample. -/
structure Interrupted (s : Mmc) (x : Sample) (t : Mmc) : Prop where
  state : t.state = s.state
  rtnCode : t.rtnCode = s.rtnCode
  errNotCareFlag : t.errNotCareFlag = s.errNotCareFlag
  cmdInfo : t.cmdInfo = s.cmdInfo
  transferMode : t.transferMode = s.transferMode
  events : t.events = .sample s.state x :: s.events
  intEvent1 : t.intEvent1 = x.intEvent1
  intEvent2 : t.intEvent2 = x.intEvent2
  info2 : t.errorInfo.info2 = x.info2
  duringCmdProcessing : t.duringCmdProcessing = s.duringCmdProcessing
  duringTransfer : s.duringTransfer = false → t.duringTransfer = false
  duringDmaTransfer : s.duringDmaTransfer = false → t.duringDmaTransfer = false
  blocked : t.stateMachineBlocking = true ↔ s.stateMachineBlocking = true ∧ ¬ x.Unblocks
  forced : s.forceTerminate = false → ¬ (x.Pio ∧ ¬ x.SdError) → t.forceTerminate = false
  idlePio : s.duringTransfer = false → x.Pio → ¬ x.SdError → t.forceTerminate = true
  dmaErrorFlag : s.dmaErrorFlag = true ∨ x.DmaFailure → t.dmaErrorFlag = true

/-- The state after a sample has been taken, before it is handled. -/
def Mmc.sampling (s : Mmc) (x : Sample) (input : List UInt32) (info : StErrorInfo) : Mmc :=
  { s with
    input := input, errorInfo := info, intEvent1 := x.intEvent1, intEvent2 := x.intEvent2
    dmEvent1 := x.dmEvent1, dmEvent2 := x.dmEvent2, events := .sample s.state x :: s.events }

theorem run_takeSample (s : Mmc) : (∃ t, takeSample.run s = (none, t)) ∨
    ∃ x input info, sampled s = some x ∧ info.info2 = x.info2 ∧
      takeSample.run s = (some x, s.sampling x input info) := by
  have hs : ∀ l, s.input = l → s = { s with input := l } := by
    rintro _ rfl
    rfl
  unfold sampled
  rcases hi : s.input with _ | ⟨a, _ | ⟨b, _ | ⟨c, _ | ⟨d, _ | ⟨e, _ | ⟨f, l⟩⟩⟩⟩⟩⟩
  case cons.cons.cons.cons.cons.cons =>
    exact .inr ⟨_, l, { s.errorInfo with
      info1 := a, info2 := b, status1 := c, status2 := d, dmInfo1 := e, dmInfo2 := f }, rfl, rfl,
      (congrArg takeSample.run (hs _ hi)).trans rfl⟩
  all_goals exact .inl ⟨_, (congrArg takeSample.run (hs _ hi)).trans rfl⟩

theorem sameObj_of_run {α : Type} {y : Prog Mmc α} {a : α} (hy : Keeps SameObj y)
    (h : y.run s = (some a, t)) : SameObj s t := by
  have hk := hy s
  rwa [h] at hk

/-- A part of the handler that leaves the driver object as it is, but for the flags in `f`. -/
theorem run_keeps {α β : Type} {y : Prog Mmc α} (hy : Keeps SameObj y) {f : α → Prog Mmc β}
    {b : β} (h : (y >>= f).run s = (some b, t)) :
    ∃ a input fifo sent mem reg, (f a).run
      { s with input := input, fifo := fifo, sent := sent, mem := mem, reg := reg } = (some b, t) := by
  obtain ⟨a, v, hv, h⟩ := run_bind_eq_some h
  obtain ⟨input, fifo, sent, mem, reg, rfl⟩ := sameObj_of_run hy hv
  exact ⟨a, input, fifo, sent, mem, reg, h⟩

/-- The flags after the handling of a sample that is none of the errors and transfers. -/
theorem interrupted_of_flags {tr dma err force block : Bool} {buff : ℕ} {remain : UInt32}
    {input : List UInt32} {info : StErrorInfo} {fifo sent : List UInt64} {mem : Mem}
    {reg : Reg → UInt32} (ht : t = { s with
      input := input, fifo := fifo, sent := sent, mem := mem, reg := reg, errorInfo := info
      intEvent1 := x.intEvent1, intEvent2 := x.intEvent2
      dmEvent1 := x.dmEvent1, dmEvent2 := x.dmEvent2, events := .sample s.state x :: s.events
      buffAddressVirtual := buff, remainSize := remain
      duringTransfer := tr, duringDmaTransfer := dma, dmaErrorFlag := err
      forceTerminate := force, stateMachineBlocking := block })
    (hinfo : info.info2 = x.info2) (htr : s.duringTransfer = false → tr = false) (hdma : s.duringDmaTransfer = false → dma = false)
    (hblock : block = true ↔ s.stateMachineBlocking = true ∧ ¬ x.Unblocks)
    (hforce : s.forceTerminate = false → ¬ (x.Pio ∧ ¬ x.SdError) → force = false)
    (hidle : s.duringTransfer = false → x.Pio → ¬ x.SdError → force = true)
    (herr : s.dmaErrorFlag = true ∨ x.DmaFailure → err = true) : Interrupted s x t := by
  subst ht
  exact ⟨rfl, rfl, rfl, rfl, rfl, rfl, rfl, rfl, hinfo, rfl, htr, hdma, hblock, hforce, hidle, herr⟩

theorem interrupted_pio {input : List UInt32} {info : StErrorInfo} {ready : UInt32}
    (hinfo : info.info2 = x.info2) (hsd : ¬ x.SdError) (hpio : x.Pio)
    (h : (pioTransfer ready).run (s.sampling x input info) = (some (), t)) :
    Interrupted s x t := by
  have hun : x.Unblocks := .inr (.inl hpio)
  have hfail : ¬ x.DmaFailure := fun hf => hf.2.1 hpio
  unfold pioTransfer at h
  obtain ⟨v, input1, fifo1, sent1, mem1, reg1, h⟩ := run_keeps (getr32_keeps _) h
  obtain ⟨-, input2, fifo2, sent2, mem2, reg2, h⟩ := run_keeps (setr32_keeps _ _) h
  rw [run_bind_get] at h
  obtain ⟨result, w, hw, h⟩ := run_bind_eq_some h
  obtain ⟨input3, fifo3, sent3, mem3, reg3, hw'⟩ := sameObj_of_run (emmcTransSector_keeps _) hw
  rw [run_bind_modify] at h
  dsimp only at h
  rw [run_ite] at h
  have hblock : false = true ↔ s.stateMachineBlocking = true ∧ ¬ x.Unblocks := by simp [hun]
  have hflag : s.dmaErrorFlag = true ∨ x.DmaFailure → s.dmaErrorFlag = true := by
    rintro (hd | hf)
    · exact hd
    · exact absurd hf hfail
  by_cases hres : result ≠ .EMMC_SUCCESS
  · rw [if_pos hres] at h
    obtain rfl := congrArg Prod.snd h
    subst hw'
    exact interrupted_of_flags rfl hinfo (fun hs => hs) (fun hs => hs) hblock
      (fun _ hn => absurd ⟨hpio, hsd⟩ hn) (fun _ _ _ => rfl) hflag
  · rw [if_neg hres] at h
    obtain rfl := congrArg Prod.snd h
    subst hw'
    refine interrupted_of_flags rfl hinfo (fun _ => rfl)
      (fun hs => hs) hblock (fun hs _ => hs) (fun hs _ _ => ?_) hflag
    obtain ⟨code, hcode, hrun⟩ := emmcTransSector_idle (s := { s.sampling x input info with
      input := input2, fifo := fifo2, sent := sent2, mem := mem2, reg := reg2 })
      (s.sampling x input info).buffAddressVirtual hs
    obtain ⟨rfl, -⟩ := run_unique hw hrun
    exact absurd hcode hres

theorem interrupted_dma {input : List UInt32} {info : StErrorInfo} {ready errorBit : UInt32}
    (hinfo : info.info2 = x.info2) (hpio : ¬ x.Pio) (hun : x.Unblocks)
    (hfail : x.DmaFailure → errorBit &&& x.dmEvent2 ≠ 0)
    (h : (dmaTransferEnd ready errorBit).run (s.sampling x input info) = (some (), t)) :
    Interrupted s x t := by
  unfold dmaTransferEnd at h
  obtain ⟨-, input1, fifo1, sent1, mem1, reg1, h⟩ := run_keeps (setr32_keeps _ _) h
  obtain ⟨-, input2, fifo2, sent2, mem2, reg2, h⟩ := run_keeps (setr32_keeps _ _) h
  obtain ⟨v, input3, fifo3, sent3, mem3, reg3, h⟩ := run_keeps (getr32_keeps _) h
  obtain ⟨-, input4, fifo4, sent4, mem4, reg4, h⟩ := run_keeps (setr32_keeps _ _) h
  rw [run_bind_get] at h
  dsimp only at h
  rw [run_ite, show (s.sampling x input info).dmEvent2 = x.dmEvent2 from rfl] at h
  have hblock : false = true ↔ s.stateMachineBlocking = true ∧ ¬ x.Unblocks := by simp [hun]
  by_cases he : errorBit &&& x.dmEvent2 ≠ 0
  · rw [if_pos he] at h
    obtain rfl := congrArg Prod.snd h
    exact interrupted_of_flags rfl hinfo (fun hs => hs)
      (fun hs => hs) hblock (fun hs _ => hs) (fun _ hp => absurd hp hpio) (fun _ => rfl)
  · rw [if_neg he] at h
    obtain rfl := congrArg Prod.snd h
    refine interrupted_of_flags rfl hinfo (fun _ => rfl)
      (fun _ => rfl) hblock (fun hs _ => hs) (fun _ hp => absurd hp hpio) ?_
    rintro (hd | hf)
    · exact hd
    · exact absurd (hfail hf) he

/-- A run that leaves the flags alone but for the blocking. -/
theorem interrupted_plain {input : List UInt32} {info : StErrorInfo} {fifo sent : List UInt64}
    {mem : Mem} {reg : Reg → UInt32} {block : Bool} (hinfo : info.info2 = x.info2)
    (ht : t = { s.sampling x input info with
      fifo := fifo, sent := sent, mem := mem, reg := reg, stateMachineBlocking := block })
    (hpio : x.Pio → x.SdError) (hblock : block = true ↔ s.stateMachineBlocking = true ∧ ¬ x.Unblocks)
    (hfail : ¬ x.DmaFailure) : Interrupted s x t := by
  refine interrupted_of_flags ht hinfo (fun hs => hs)
    (fun hs => hs) hblock (fun hs _ => hs) (fun _ hp hsd => absurd (hpio hp) hsd) ?_
  rintro (hd | hf)
  · exact hd
  · exact absurd hf hfail

theorem emmcInterrupt_interrupted (h : emmcInterrupt.run s = (some (), t)) :
    ∃ x, sampled s = some x ∧ Interrupted s x t := by
  unfold emmcInterrupt at h
  rcases run_takeSample s with ⟨u, hu⟩ | ⟨x, input, info, hx, hinfo, hu⟩
  · rw [run_bind_of_none hu] at h
    cases h
  refine ⟨x, hx, ?_⟩
  rw [run_bind_of_some hu, run_ite] at h
  have hblock : x.Unblocks → (false = true ↔ s.stateMachineBlocking = true ∧ ¬ x.Unblocks) := by
    intro hun
    simp [hun]
  by_cases hsd : SD_INFO2_ALL_ERR &&& x.intEvent2 ≠ 0
  · rw [if_pos hsd] at h
    obtain rfl := congrArg Prod.snd h
    exact interrupted_plain hinfo rfl (fun _ => hsd) (hblock (.inl hsd)) fun hf => hf.1 hsd
  rw [if_neg hsd, run_ite] at h
  by_cases hpio : (SD_INFO2_BWE ||| SD_INFO2_BRE) &&& x.intEvent2 ≠ 0
  · rw [if_pos hpio] at h
    exact interrupted_pio hinfo hsd hpio h
  rw [if_neg hpio, run_ite] at h
  by_cases h0 : BIT16 &&& x.dmEvent1 ≠ 0
  · rw [if_pos h0] at h
    refine interrupted_dma hinfo hpio (.inr (.inr (.inl h0))) ?_ h
    rintro ⟨-, -, hf | hf⟩
    · exact hf.2
    · exact absurd h0 hf.1
  rw [if_neg h0, run_ite] at h
  by_cases h1 : x.endBit &&& x.dmEvent1 ≠ 0
  · rw [if_pos h1] at h
    refine interrupted_dma hinfo hpio (.inr (.inr (.inr (.inl h1)))) ?_ h
    rintro ⟨-, -, hf | hf⟩
    · exact absurd hf.1 h0
    · exact hf.2.2
  have hfail : ¬ x.DmaFailure := by
    rintro ⟨-, -, hf | hf⟩
    · exact h0 hf.1
    · exact h1 hf.2.1
  have hpio' : x.Pio → x.SdError := fun hp => absurd hp hpio
  rw [if_neg h1, run_ite] at h
  by_cases hr : SD_INFO1_INFO0 &&& x.intEvent1 ≠ 0
  · rw [if_pos hr] at h
    obtain ⟨v, input1, fifo1, sent1, mem1, reg1, h⟩ := run_keeps (getr32_keeps _) h
    obtain rfl := congrArg Prod.snd h
    exact interrupted_plain hinfo rfl hpio' (hblock (.inr (.inr (.inr (.inr (.inl hr)))))) hfail
  rw [if_neg hr, run_ite] at h
  by_cases ha : SD_INFO1_INFO2 &&& x.intEvent1 ≠ 0
  · rw [if_pos ha] at h
    obtain ⟨v, input1, fifo1, sent1, mem1, reg1, h⟩ := run_keeps (getr32_keeps _) h
    obtain rfl := congrArg Prod.snd h
    exact interrupted_plain hinfo rfl hpio' (hblock (.inr (.inr (.inr (.inr (.inr ha)))))) hfail
  · rw [if_neg ha] at h
    obtain rfl := congrArg Prod.snd h
    refine interrupted_plain hinfo rfl hpio' ?_ hfail
    have hnone : ¬ x.Unblocks := by
      rintro (hn | hn | hn | hn | hn | hn)
      · exact hsd hn
      · exact hpio hn
      · exact h0 hn
      · exact h1 hn
      · exact hr hn
      · exact ha hn
    exact ⟨fun hb => ⟨hb, hnone⟩, fun hb => hb.1⟩

/-! ## The states of the machine -/

variable {info : StCommandInfo} {mode : HalMemcardDataTransferMode}

def Clean (errorMask : UInt32) (events : List Event) : Prop :=
  ∀ e ∈ events, ¬ e.IsError errorMask

def ResponseSeen (events : List Event) : Prop :=
  ∃ state x, Event.sample state x ∈ events ∧
    (state = .ESTATE_NON_RESP_CMD ∨ state = .ESTATE_RCV_RESP) ∧ x.ResponseEnd

def CompleteSeen (info : StCommandInfo) (mode : HalMemcardDataTransferMode)
    (events : List Event) : Prop :=
  ∃ x, Event.sample .ESTATE_DATA_TRANSFER_COMPLETE x ∈ events ∧ x.Complete mode info.dir

theorem Clean.cons {e : Event} {events : List Event} (h : Clean errorMask events)
    (he : ¬ e.IsError errorMask) : Clean errorMask (e :: events) := by
  intro e' he'
  rcases List.mem_cons.mp he' with rfl | he'
  · exact he
  · exact h e' he'

theorem ResponseSeen.cons {e : Event} {events : List Event} (h : ResponseSeen events) :
    ResponseSeen (e :: events) := by
  obtain ⟨state, x, hx, h⟩ := h
  exact ⟨state, x, List.mem_cons_of_mem e hx, h⟩

theorem CompleteSeen.cons {e : Event} {events : List Event} (h : CompleteSeen info mode events) :
    CompleteSeen info mode (e :: events) := by
  obtain ⟨x, hx, h⟩ := h
  exact ⟨x, List.mem_cons_of_mem e hx, h⟩

/-- What holds in a state as long as every sample has been heeded. -/
def At (info : StCommandInfo) (mode : HalMemcardDataTransferMode) (errorMask : UInt32) (s : Mmc) :
    EmmcIntState → Prop
  | .ESTATE_BEGIN => s.errNotCareFlag = false ∧ Clean errorMask s.events ∧ InProgressClear s
  | .ESTATE_ISSUE_CMD => False
  | .ESTATE_NON_RESP_CMD => s.errNotCareFlag = false ∧ Clean errorMask s.events ∧
    s.duringDmaTransfer = false ∧ info.cmd.responseType = .NONE
  | .ESTATE_RCV_RESP => s.errNotCareFlag = false ∧ Clean errorMask s.events ∧
    s.duringDmaTransfer = false ∧ s.duringTransfer = false
  | .ESTATE_RCV_RESPONSE_BUSY | .ESTATE_CHECK_RESPONSE_COMPLETE => s.errNotCareFlag = false ∧
    Clean errorMask s.events ∧ s.duringDmaTransfer = false ∧ s.stateMachineBlocking = false ∧
      ResponseSeen s.events
  | .ESTATE_DATA_TRANSFER => s.errNotCareFlag = false ∧ Clean errorMask s.events ∧
    s.stateMachineBlocking = false ∧ ResponseSeen s.events
  | .ESTATE_DATA_TRANSFER_COMPLETE => s.errNotCareFlag = false ∧ s.stateMachineBlocking = true ∧
    (s.dmaErrorFlag = false → Clean errorMask s.events) ∧ ResponseSeen s.events
  | .ESTATE_ACCESS_END => s.errNotCareFlag = false ∧ s.stateMachineBlocking = true ∧
    Clean errorMask s.events ∧ s.duringDmaTransfer = false ∧ ResponseSeen s.events ∧
      CompleteSeen info mode s.events
  | .ESTATE_TRANSFER_ERROR | .ESTATE_ERROR => s.rtnCode ≠ .EMMC_SUCCESS ∧
    (s.errNotCareFlag = true → s.duringDmaTransfer = false ∧ s.duringTransfer = false ∧
      s.stateMachineBlocking = false ∧ s.reg .SD_INFO2_MASK = SD_INFO2_CLEAR)
  | .ESTATE_END => s.duringDmaTransfer = false ∧ s.stateMachineBlocking = false ∧
    Succeeded info mode errorMask s.events

/-- The invariant of the loop. -/
structure Inv (info : StCommandInfo) (mode : HalMemcardDataTransferMode) (errorMask : UInt32)
    (s : Mmc) : Prop where
  cmdInfo : s.cmdInfo = info
  transferMode : s.transferMode = mode
  at_state : At info mode errorMask s s.state

/-- What a round leaves: an error return with nothing in progress, or a state to go on from. -/
def Left (info : StCommandInfo) (mode : HalMemcardDataTransferMode) (errorMask : UInt32)
    (r : Option EmmcErrorCode) (t : Mmc) : Prop :=
  match r with
  | some code => code ≠ .EMMC_SUCCESS ∧ InProgressClear t
  | none => t.forceTerminate = true ∨ Inv info mode errorMask t

section rounds

variable {r : Option EmmcErrorCode}

theorem not_isError {state : EmmcIntState} (hsd : ¬ x.SdError) (hdma : ¬ x.DmaError) :
    ¬ (Event.sample state x).IsError errorMask := by
  rintro (h | h)
  · exact hsd h
  · exact hdma h

/-! The samples that an interrupt adds to are those before, and its own. -/

theorem Interrupted.clean (h : Interrupted s x u) (hc : Clean errorMask s.events) (hsd : ¬ x.SdError)
    (hdma : ¬ x.DmaError) : Clean errorMask u.events := by
  rw [h.events]
  exact hc.cons (not_isError hsd hdma)

theorem Interrupted.responseSeen (h : Interrupted s x u) (hs : ResponseSeen s.events) : ResponseSeen u.events := by
  rw [h.events]
  exact hs.cons

theorem Interrupted.completeSeen (h : Interrupted s x u) (hs : CompleteSeen info mode s.events) :
    CompleteSeen info mode u.events := by
  rw [h.events]
  exact hs.cons

theorem Interrupted.mem {state : EmmcIntState} (h : Interrupted s x u) (hst : s.state = state) :
    Event.sample state x ∈ u.events := by
  rw [h.events, hst]
  exact List.mem_cons_self

theorem sdError_iff (h : Interrupted s x u) : u.intEvent2 &&& SD_INFO2_ALL_ERR ≠ 0 ↔ x.SdError := by
  rw [h.intEvent2, UInt32.and_comm]
  rfl

theorem responseEnd_iff (h : Interrupted s x u) :
    u.intEvent1 &&& SD_INFO1_INFO0 = 0 ↔ ¬ x.ResponseEnd := by
  rw [h.intEvent1, UInt32.and_comm]
  exact not_not.symm

theorem issueCmd_left (h : estateIssueCmd.run u = (some r, t)) (hinfo : u.cmdInfo = info)
    (hmode : u.transferMode = mode) (herr : u.errNotCareFlag = false)
    (hclean : Clean errorMask u.events) (hdma : u.duringDmaTransfer = false)
    (htr : u.duringTransfer = false) : Left info mode errorMask r t := by
  subst hinfo hmode
  cases h
  refine .inr ⟨rfl, rfl, ?_⟩
  change At _ _ _ _ (if u.cmdInfo.cmd.responseType = .NONE then .ESTATE_NON_RESP_CMD
    else .ESTATE_RCV_RESP)
  split_ifs with hn
  · exact ⟨herr, hclean, hdma, hn⟩
  · exact ⟨herr, hclean, hdma, htr⟩

theorem begin_left (hi : Interrupted s x u) (hs : Inv info mode errorMask s)
    (hst : s.state = .ESTATE_BEGIN) (hh : Heeded s x) (h : estateBegin.run u = (some r, t)) :
    Left info mode errorMask r t := by
  have hat := hs.at_state
  rw [hst] at hat
  obtain ⟨herr, hclean, hclear⟩ := hat
  unfold Heeded at hh
  rw [hst] at hh
  have htr := hi.duringTransfer hclear.duringTransfer
  have hdma := hi.duringDmaTransfer hclear.duringDmaTransfer
  unfold estateBegin at h
  rw [run_bind_get, hi.info2, run_ite] at h
  by_cases hbusy : x.info2 &&& SD_INFO2_CBSY ≠ 0
  · rw [if_pos hbusy] at h
    cases h
    have hforce : u.forceTerminate = false :=
      hi.forced hclear.forceTerminate fun hp => hp.2 (hh.1 hbusy hp.1)
    have hblock : u.stateMachineBlocking = false := by
      rw [← Bool.not_eq_true, hi.blocked, hclear.stateMachineBlocking]
      simp
    exact ⟨by decide, hi.duringCmdProcessing.trans hclear.duringCmdProcessing, htr, hdma, hblock,
      hforce⟩
  · rw [if_neg hbusy] at h
    obtain ⟨hsd, hde⟩ := hh.2 hbusy
    by_cases hpio : x.Pio
    · -- a transfer before the command has been sent ends it
      have hforce := hi.idlePio hclear.duringTransfer hpio hsd
      cases h
      exact .inl hforce
    · have hde' : ¬ x.DmaError := fun hd => hpio (hde hd)
      refine issueCmd_left h (hi.cmdInfo.trans hs.cmdInfo) (hi.transferMode.trans hs.transferMode)
        (hi.errNotCareFlag.trans herr) ?_ hdma htr
      exact hi.clean hclean hsd hde'

theorem error_left {c : EmmcErrorCode} (hcode : c ≠ .EMMC_SUCCESS)
    (hstate : t.state = .ESTATE_TRANSFER_ERROR ∨ t.state = .ESTATE_ERROR) (hrtn : t.rtnCode = c)
    (hinfo : t.cmdInfo = info) (hmode : t.transferMode = mode) (herr : t.errNotCareFlag = false) :
    Left info mode errorMask none t := by
  subst hrtn
  have herr' : t.errNotCareFlag = true → False := by simp [herr]
  refine .inr ⟨hinfo, hmode, ?_⟩
  rcases hstate with hst | hst <;> rw [hst] <;> exact ⟨hcode, fun he => (herr' he).elim⟩

theorem nonRespCmd_left (hi : Interrupted s x u) (hs : Inv info mode errorMask s)
    (hst : s.state = .ESTATE_NON_RESP_CMD) (hh : Heeded s x) (hblock : u.stateMachineBlocking = false)
    (h : estateNonRespCmd.run u = (some r, t)) : Left info mode errorMask r t := by
  obtain ⟨hinfo, hmode, hat⟩ := hs
  rw [hst] at hat
  obtain ⟨herr, hclean, hdma, hnone⟩ := hat
  unfold Heeded at hh
  rw [hst] at hh
  unfold estateNonRespCmd setr32 at h
  rw [run_bind_modify, run_bind_modify, run_bind_get] at h
  dsimp only at h
  have hsd := sdError_iff hi
  have hre := responseEnd_iff hi
  have hinfo' := hi.cmdInfo.trans hinfo
  have hmode' := hi.transferMode.trans hmode
  by_cases he : u.intEvent2 &&& SD_INFO2_ALL_ERR ≠ 0
  · rw [if_pos he] at h
    cases h
    exact error_left (c := .EMMC_ERR_INFO2) (by decide) (.inr rfl) rfl hinfo' hmode'
      (hi.errNotCareFlag.trans herr)
  rw [if_neg he] at h
  by_cases hr : u.intEvent1 &&& SD_INFO1_INFO0 = 0
  · rw [if_pos hr] at h
    cases h
    exact error_left (c := .EMMC_ERR_RESPONSE) (by decide) (.inr rfl) rfl hinfo' hmode'
      (hi.errNotCareFlag.trans herr)
  rw [if_neg hr] at h
  cases h
  have hsd' : ¬ x.SdError := fun h => he (hsd.mpr h)
  have hre' : x.ResponseEnd := not_not.mp fun h => hr (hre.mpr h)
  have hde : ¬ x.DmaError := by
    intro hd
    rcases hh hd with hd | hd
    · exact hsd' hd
    · exact hd.2 hre'
  have hdata : info.cmd.commandType.isData = true → False := by
    intro hd
    have h1 := info.cmd.data_r1 hd
    rw [hnone] at h1
    cases h1
  refine .inr ⟨hinfo', hmode', hi.duringDmaTransfer hdma, hblock, ?_, ⟨.ESTATE_NON_RESP_CMD, x, ?_, .inl rfl, hre'⟩, fun hd => (hdata hd).elim,
    fun hd => (hdata hd).elim⟩
  · exact hi.clean hclean hsd' hde
  · exact hi.mem hst

theorem readResponse_keeps (response : ℕ) : Keeps SameObj (emmcReadResponse response) := by
  have hbig : ∀ p v, Keeps SameObj (emmcLittleToBig p v) := fun p v => storeBytes_keeps _ _
  refine Keeps.bind Keeps.get fun s => Keeps.ite ?_ ?_
  · exact Keeps.bind (getr32_keeps _) fun v => storeBytes_keeps _ _
  · refine Keeps.bind (getr32_keeps _) fun _ => Keeps.bind (getr32_keeps _) fun _ => ?_
    refine Keeps.bind (hbig _ _) fun _ => ?_
    refine Keeps.bind (getr32_keeps _) fun _ => Keeps.bind (getr32_keeps _) fun _ => ?_
    refine Keeps.bind (hbig _ _) fun _ => ?_
    refine Keeps.bind (getr32_keeps _) fun _ => Keeps.bind (getr32_keeps _) fun _ => ?_
    refine Keeps.bind (hbig _ _) fun _ => ?_
    exact Keeps.bind (getr32_keeps _) fun _ => hbig _ _

/-- The check marks the response, and a response that passes has no error bit. -/
theorem responseCheck_marks {code : EmmcErrorCode}
    (h : (emmcResponseCheck response errorMask).run s = (some code, t)) :
    ∃ new cs, t = { s with events := new ++ s.events, currentState := cs } ∧
      (code = .EMMC_SUCCESS → ∀ e ∈ new, ¬ e.IsError errorMask) := by
  unfold emmcResponseCheck at h
  rw [run_bind_get, run_bind_get] at h
  have hr1 : ∀ {v : Mmc}, v = { s with
      events := .response (s.mem.le32 response) :: s.events
      currentState := (s.mem.le32 response &&& EMMC_R1_STATE_MASK) >>> EMMC_R1_STATE_SHIFT } →
      (if s.mem.le32 response &&& errorMask ≠ 0 then (pure .EMMC_ERR_CARD_STATUS_BIT :
        Prog Mmc EmmcErrorCode) else pure .EMMC_SUCCESS).run v = (some code, t) →
      ∃ new cs, t = { s with events := new ++ s.events, currentState := cs } ∧
        (code = .EMMC_SUCCESS → ∀ e ∈ new, ¬ e.IsError errorMask) := by
    rintro v rfl hrun
    refine ⟨[.response (s.mem.le32 response)],
      (s.mem.le32 response &&& EMMC_R1_STATE_MASK) >>> EMMC_R1_STATE_SHIFT, ?_⟩
    rw [run_ite] at hrun
    split_ifs at hrun with hmask
    · cases hrun
      exact ⟨rfl, by simp⟩
    · cases hrun
      refine ⟨rfl, fun _ e he => ?_⟩
      rw [List.mem_singleton.mp he]
      exact fun hbad => hmask hbad
  have hrest : ∀ {c : EmmcErrorCode} {v : Mmc}, (some c, v) = (some code, t) → v = s →
      ∃ new cs, t = { s with events := new ++ s.events, currentState := cs } ∧
        (code = .EMMC_SUCCESS → ∀ e ∈ new, ¬ e.IsError errorMask) := by
    rintro c v hrun rfl
    cases hrun
    exact ⟨[], t.currentState, rfl, by simp⟩
  cases hc : s.cmdInfo.cmd.responseType with
  | R1 =>
    rw [hc] at h
    exact hr1 rfl h
  | R1b =>
    rw [hc] at h
    exact hr1 rfl h
  | R4 =>
    rw [hc] at h
    simp only [run_ite, run_pure] at h
    split_ifs at h
    · exact hrest h rfl
    · exact hrest h rfl
  | _ =>
    rw [hc] at h
    exact hrest h rfl

theorem rcvResp_left (hi : Interrupted s x u) (hs : Inv info mode errorMask s)
    (hst : s.state = .ESTATE_RCV_RESP) (hh : Heeded s x) (hblock : u.stateMachineBlocking = false)
    (h : (estateRcvResp errorMask response).run u = (some r, t)) :
    Left info mode errorMask r t := by
  obtain ⟨hinfo, hmode, hat⟩ := hs
  rw [hst] at hat
  obtain ⟨herr, hclean, hdma, htr⟩ := hat
  unfold Heeded at hh
  rw [hst] at hh
  unfold estateRcvResp setr32 at h
  rw [run_bind_modify, run_bind_modify, run_bind_get] at h
  dsimp only at h
  have hsd := sdError_iff hi
  have hre := responseEnd_iff hi
  have hinfo' := hi.cmdInfo.trans hinfo
  have hmode' := hi.transferMode.trans hmode
  have herr' := hi.errNotCareFlag.trans herr
  have hdma' := hi.duringDmaTransfer hdma
  rw [run_ite] at h
  by_cases he : u.intEvent2 &&& SD_INFO2_ALL_ERR ≠ 0
  · rw [if_pos he, run_ite] at h
    split_ifs at h
    · cases h
      have hcode : EmmcErrorCode.EMMC_ERR_CMD_TIMEOUT ≠ .EMMC_SUCCESS := by decide
      exact .inr ⟨hinfo', hmode', hcode, fun _ => ⟨hdma', hi.duringTransfer htr, hblock, rfl⟩⟩
    · cases h
      exact error_left (c := .EMMC_ERR_INFO2) (by decide) (.inr rfl) rfl hinfo' hmode' herr'
  rw [if_neg he, run_ite] at h
  by_cases hr : u.intEvent1 &&& SD_INFO1_INFO0 = 0
  · rw [if_pos hr] at h
    cases h
    exact error_left (c := .EMMC_ERR_RESPONSE) (by decide) (.inr rfl) rfl hinfo' hmode' herr'
  rw [if_neg hr] at h
  have hsd' : ¬ x.SdError := fun h => he (hsd.mpr h)
  have hre' : x.ResponseEnd := not_not.mp fun h => hr (hre.mpr h)
  have hde : ¬ x.DmaError := by
    intro hd
    rcases hh hd with hd | hd
    · exact hsd' hd
    · exact hd.2 hre'
  obtain ⟨-, input, fifo, sent, mem, reg, h⟩ := run_keeps (readResponse_keeps response) h
  obtain ⟨code, v, hv, h⟩ := run_bind_eq_some h
  obtain ⟨new, cs, rfl, hnew⟩ := responseCheck_marks hv
  rw [run_bind_modify, run_ite] at h
  by_cases hcode : code ≠ .EMMC_SUCCESS
  · rw [if_pos hcode] at h
    cases h
    exact error_left hcode (.inr rfl) rfl hinfo' hmode' herr'
  rw [if_neg hcode] at h
  have hclean' : Clean errorMask (new ++ u.events) := by
    intro e hmem
    rcases List.mem_append.mp hmem with hmem | hmem
    · exact hnew (not_not.mp hcode) e hmem
    · exact hi.clean hclean hsd' hde e hmem
  have hseen : ResponseSeen (new ++ u.events) := by
    exact ⟨.ESTATE_RCV_RESP, x, List.mem_append_right new (hi.mem hst), .inr rfl, hre'⟩
  rw [run_ite] at h
  split_ifs at h <;> cases h <;>
    exact .inr ⟨hinfo', hmode', herr', hclean', hdma', hblock, hseen⟩

theorem blocking_left (hi : Interrupted s x u) (hb : s.stateMachineBlocking = false) :
    u.stateMachineBlocking = false := by
  rw [← Bool.not_eq_true, hi.blocked, hb]
  simp

theorem rcvResponseBusy_left (hi : Interrupted s x u) (hs : Inv info mode errorMask s)
    (hst : s.state = .ESTATE_RCV_RESPONSE_BUSY) (hh : Heeded s x)
    (h : estateRcvResponseBusy.run u = (some r, t)) : Left info mode errorMask r t := by
  obtain ⟨hinfo, hmode, hat⟩ := hs
  rw [hst] at hat
  obtain ⟨herr, hclean, hdma, hb, hseen⟩ := hat
  unfold Heeded at hh
  rw [hst] at hh
  unfold estateRcvResponseBusy at h
  rw [run_bind_get] at h
  have hsd := sdError_iff hi
  have hinfo' := hi.cmdInfo.trans hinfo
  have hmode' := hi.transferMode.trans hmode
  have herr' := hi.errNotCareFlag.trans herr
  rw [run_ite] at h
  by_cases he : u.intEvent2 &&& SD_INFO2_ALL_ERR ≠ 0
  · rw [if_pos he] at h
    cases h
    exact error_left (c := .EMMC_ERR_INFO2) (by decide) (.inr rfl) rfl hinfo' hmode' herr'
  rw [if_neg he, run_ite] at h
  have hsd' : ¬ x.SdError := fun h => he (hsd.mpr h)
  have hclean' := hi.clean hclean hsd' fun hd => hsd' (hh hd)
  have hseen' := hi.responseSeen hseen
  have hb' := blocking_left hi hb
  split_ifs at h <;> cases h
  · exact .inr ⟨hinfo', hmode', herr', hclean', hi.duringDmaTransfer hdma, hb', hseen'⟩
  · refine .inr ⟨hinfo', hmode', ?_⟩
    rw [hi.state, hst]
    exact ⟨herr', hclean', hi.duringDmaTransfer hdma, hb', hseen'⟩

theorem checkResponseComplete_left (hi : Interrupted s x u) (hs : Inv info mode errorMask s)
    (hst : s.state = .ESTATE_CHECK_RESPONSE_COMPLETE) (hh : Heeded s x)
    (h : estateCheckResponseComplete.run u = (some r, t)) : Left info mode errorMask r t := by
  obtain ⟨hinfo, hmode, hat⟩ := hs
  rw [hst] at hat
  obtain ⟨herr, hclean, hdma, hb, hseen⟩ := hat
  unfold Heeded at hh
  rw [hst] at hh
  have hinfo' := hi.cmdInfo.trans hinfo
  have hclean' := hi.clean hclean hh.1 hh.2
  have hseen' := hi.responseSeen hseen
  have hb' := blocking_left hi hb
  unfold estateCheckResponseComplete at h
  rw [run_bind_get, run_ite, hinfo'] at h
  split_ifs at h with hdata <;> cases h
  · exact .inr ⟨hinfo', hi.transferMode.trans hmode, hi.errNotCareFlag.trans herr, hclean', hb',
      hseen'⟩
  · exact .inr ⟨hinfo', hi.transferMode.trans hmode, hi.duringDmaTransfer hdma, hb', hclean', hseen',
      fun hd => absurd hd hdata, fun hd => absurd hd hdata⟩

theorem dataTransfer_left (hi : Interrupted s x u) (hs : Inv info mode errorMask s)
    (hst : s.state = .ESTATE_DATA_TRANSFER) (hh : Heeded s x)
    (h : estateDataTransfer.run u = (some r, t)) : Left info mode errorMask r t := by
  obtain ⟨hinfo, hmode, hat⟩ := hs
  rw [hst] at hat
  obtain ⟨herr, hclean, hb, hseen⟩ := hat
  unfold Heeded at hh
  rw [hst] at hh
  have hinfo' := hi.cmdInfo.trans hinfo
  have hmode' := hi.transferMode.trans hmode
  have herr' := hi.errNotCareFlag.trans herr
  have hclean' := hi.clean hclean hh.1 hh.2
  have hseen' := hi.responseSeen hseen
  unfold estateDataTransfer at h
  rw [run_bind_modify, run_bind_get, run_ite] at h
  split_ifs at h <;> cases h <;> exact .inr ⟨hinfo', hmode', herr', rfl, fun _ => hclean', hseen'⟩

theorem unblocks_of_woken (hi : Interrupted s x u) (hwait : s.stateMachineBlocking = true)
    (hblock : u.stateMachineBlocking = false) : x.Unblocks := by
  by_contra hn
  rw [hi.blocked.mpr ⟨hwait, hn⟩] at hblock
  cases hblock

theorem transferComplete_left (hi : Interrupted s x u) (hs : Inv info mode errorMask s)
    (hst : s.state = .ESTATE_DATA_TRANSFER_COMPLETE) (hh : Heeded s x)
    (hblock : u.stateMachineBlocking = false)
    (h : estateDataTransferComplete.run u = (some r, t)) : Left info mode errorMask r t := by
  obtain ⟨hinfo, hmode, hat⟩ := hs
  rw [hst] at hat
  obtain ⟨herr, hwait, hclean, hseen⟩ := hat
  unfold Heeded at hh
  rw [hst] at hh
  have hsd := sdError_iff hi
  have hinfo' := hi.cmdInfo.trans hinfo
  have hmode' := hi.transferMode.trans hmode
  have herr' := hi.errNotCareFlag.trans herr
  have hun := unblocks_of_woken hi hwait hblock
  unfold estateDataTransferComplete at h
  rw [run_bind_get, run_ite] at h
  by_cases he : u.intEvent2 &&& SD_INFO2_ALL_ERR ≠ 0
  · rw [if_pos he] at h
    cases h
    exact error_left (c := .EMMC_ERR_INFO2) (by decide) (.inl rfl) rfl hinfo' hmode' herr'
  rw [if_neg he, run_ite] at h
  by_cases hflag : u.dmaErrorFlag = true
  · rw [if_pos hflag] at h
    cases h
    exact error_left (c := .EMMC_ERR_FROM_DMAC_TRANSFER) (by decide) (.inl rfl) rfl hinfo' hmode' herr'
  rw [if_neg hflag, run_ite] at h
  by_cases hdma : u.duringDmaTransfer = true
  · rw [if_pos hdma] at h
    cases h
    exact error_left (c := .EMMC_ERR) (by decide) (.inl rfl) rfl hinfo' hmode' herr'
  rw [if_neg hdma] at h
  cases h
  have hsd' : ¬ x.SdError := fun h => he (hsd.mpr h)
  have hflag' : ¬ (s.dmaErrorFlag = true ∨ x.DmaFailure) := fun hf => hflag (hi.dmaErrorFlag hf)
  obtain ⟨hde, hcomp⟩ : ¬ x.DmaError ∧ (x.Unblocks → x.Complete s.transferMode s.cmdInfo.dir) := by
    rcases hh with hh | hh | hh | hh
    · exact absurd (.inl hh) hflag'
    · exact absurd hh hsd'
    · exact absurd (.inr hh) hflag'
    · exact hh
  have hclean' := hi.clean (hclean (Bool.eq_false_iff.mpr fun hf => hflag' (.inl hf))) hsd' hde
  have hseen' := hi.responseSeen hseen
  have hcomp' : CompleteSeen info mode u.events := ⟨x, hi.mem hst, hmode ▸ hinfo ▸ hcomp hun⟩
  exact .inr ⟨hinfo', hmode', herr', rfl, hclean', Bool.eq_false_iff.mpr hdma, hseen', hcomp'⟩

/-- The end of the DMA touches only registers and its own flag. -/
theorem run_endDma (s : Mmc) : ∃ reg dma, (s.duringDmaTransfer = false → dma = false) ∧
    reg .SD_INFO2_MASK = s.reg .SD_INFO2_MASK ∧
    endDma.run s = (some (), { s with reg := reg, duringDmaTransfer := dma }) := by
  unfold endDma
  rw [run_bind_get, run_ite]
  split_ifs
  · exact ⟨Function.update (Function.update s.reg .CC_EXT_MODE CC_EXT_MODE_CLEAR) .SD_STOP 0, false,
      fun _ => rfl, rfl, rfl⟩
  · exact ⟨s.reg, s.duringDmaTransfer, fun h => h, rfl, rfl⟩

theorem accessEnd_left (hi : Interrupted s x u) (hs : Inv info mode errorMask s)
    (hst : s.state = .ESTATE_ACCESS_END) (hh : Heeded s x) (hblock : u.stateMachineBlocking = false)
    (h : estateAccessEnd.run u = (some r, t)) : Left info mode errorMask r t := by
  obtain ⟨hinfo, hmode, hat⟩ := hs
  rw [hst] at hat
  obtain ⟨herr, hwait, hclean, hdma, hseen, hcomp⟩ := hat
  unfold Heeded at hh
  rw [hst] at hh
  obtain ⟨hsd, hde, hacc⟩ := hh
  have hinfo' := hi.cmdInfo.trans hinfo
  have hmode' := hi.transferMode.trans hmode
  have hun := unblocks_of_woken hi hwait hblock
  unfold estateAccessEnd setr32 at h
  obtain ⟨reg, dma, hdma', -, hend⟩ := run_endDma u
  have hae : u.intEvent1 &&& SD_INFO1_INFO2 ≠ 0 := by
    rw [hi.intEvent1, UInt32.and_comm]
    exact hacc hun
  rw [run_bind_of_some hend, run_bind_modify, run_bind_modify, run_bind_modify, run_bind_modify,
    run_bind_get, run_ite, if_pos hae] at h
  cases h
  have hmem := hi.mem hst
  have hclean' := hi.clean hclean hsd hde
  have hseen' := hi.responseSeen hseen
  have hcomp' := hi.completeSeen hcomp
  exact .inr ⟨hinfo', hmode', hdma' (hi.duringDmaTransfer hdma), hblock, hclean', hseen',
    fun _ => hcomp', fun _ => ⟨x, hmem, hacc hun⟩⟩

theorem awaitCmdseq_keeps (n : ℕ) : Keeps SameObj (awaitCmdseq n) := by
  induction n with
  | zero => exact Keeps.pure ()
  | succ n ih => exact Keeps.bind (getr32_keeps _) fun _ => Keeps.ite (Keeps.pure ()) ih

theorem softreset_clear (h : emmcSoftreset.run s = (some (), t)) : InProgressClear t := by
  have hset : Keeps SameObj (do
      setr32 .SOFT_RST ((← getr32 .SOFT_RST) &&& ~~~SOFT_RST_SDRST)
      setr32 .SOFT_RST ((← getr32 .SOFT_RST) ||| SOFT_RST_SDRST)
      setr32 .SD_INFO1 0
      setr32 .SD_INFO2 SD_INFO2_CLEAR
      setr32 .SD_INFO1_MASK 0
      setr32 .SD_INFO2_MASK SD_INFO2_CLEAR) :=
    Keeps.bind (getr32_keeps _) fun _ => Keeps.bind (setr32_keeps _ _) fun _ =>
      Keeps.bind (getr32_keeps _) fun _ => Keeps.bind (setr32_keeps _ _) fun _ =>
        Keeps.bind (setr32_keeps _ _) fun _ => Keeps.bind (setr32_keeps _ _) fun _ =>
          Keeps.bind (setr32_keeps _ _) fun _ => setr32_keeps _ _
  unfold emmcSoftreset at h
  rw [run_bind_modify] at h
  have hk := sameObj_of_run (Keeps.bind (getr32_keeps .SD_INFO2) fun v =>
    Keeps.ite (Keeps.bind (awaitCmdseq_keeps _) fun _ => hset) hset) h
  obtain ⟨input, fifo, sent, mem, reg, rfl⟩ := hk
  exact ⟨rfl, rfl, rfl, rfl, rfl⟩

theorem estateError_left (hrtn : u.rtnCode ≠ .EMMC_SUCCESS)
    (hcare : u.errNotCareFlag = true → u.duringDmaTransfer = false ∧ u.duringTransfer = false ∧
      u.stateMachineBlocking = false ∧ u.forceTerminate = false)
    (h : estateError.run u = (some r, t)) : Left info mode errorMask r t := by
  unfold estateError at h
  rw [run_bind_get, run_ite] at h
  by_cases hc : u.errNotCareFlag = true
  · rw [if_pos hc] at h
    cases h
    obtain ⟨hdma, htr, hb, hf⟩ := hcare hc
    exact ⟨hrtn, rfl, htr, hdma, hb, hf⟩
  · rw [if_neg hc] at h
    obtain ⟨_, v, hv, h⟩ := run_bind_eq_some h
    cases h
    obtain ⟨h1, h2, h3, h4, h5⟩ := softreset_clear hv
    exact ⟨hrtn, h1, h2, h3, h4, h5⟩

/-- With only the bit of SD_INFO2 unmasked that is always set, no transfer is started. -/
theorem not_pio (hx : sampled s = some x) (hmask : s.reg .SD_INFO2_MASK = SD_INFO2_CLEAR) :
    ¬ x.Pio := by
  have hzero : ∀ v : UInt32, (SD_INFO2_BWE ||| SD_INFO2_BRE) &&& (v &&& SD_INFO2_CLEAR) = 0 := by
    intro v
    rw [UInt32.and_comm v, ← UInt32.and_assoc]
    exact UInt32.zero_and
  unfold sampled at hx
  split at hx
  · cases hx
    intro hp
    refine hp ?_
    simp only [hmask]
    exact hzero _
  · cases hx

/-- A round in which the machine stays blocked. -/
theorem blocked_left (hi : Interrupted s x u) (hs : Inv info mode errorMask s) (hh : Heeded s x)
    (hend : s.state ≠ .ESTATE_END) (hblock : s.stateMachineBlocking = true) (hun : ¬ x.Unblocks) :
    Inv info mode errorMask u := by
  obtain ⟨hinfo, hmode, hat⟩ := hs
  refine ⟨hi.cmdInfo.trans hinfo, hi.transferMode.trans hmode, ?_⟩
  have hsd : ¬ x.SdError := fun h => hun (.inl h)
  have hnot : s.stateMachineBlocking = false → False := by simp [hblock]
  have hclean' : Clean errorMask s.events → ¬ x.DmaError → Clean errorMask u.events := fun hc => hi.clean hc hsd
  unfold Heeded at hh
  rw [hi.state]
  cases hst : s.state <;> rw [hst] at hat hh <;> simp only at hh
  case ESTATE_BEGIN => exact (hnot hat.2.2.stateMachineBlocking).elim
  case ESTATE_ISSUE_CMD => exact hat
  case ESTATE_NON_RESP_CMD =>
    obtain ⟨herr, hc, hdma, hn⟩ := hat
    refine ⟨hi.errNotCareFlag.trans herr, hclean' hc fun hd => ?_, hi.duringDmaTransfer hdma, hn⟩
    rcases hh hd with h | h
    · exact hsd h
    · exact hun h.1
  case ESTATE_RCV_RESP =>
    obtain ⟨herr, hc, hdma, htr⟩ := hat
    refine ⟨hi.errNotCareFlag.trans herr, hclean' hc fun hd => ?_, hi.duringDmaTransfer hdma,
      hi.duringTransfer htr⟩
    rcases hh hd with h | h
    · exact hsd h
    · exact hun h.1
  case ESTATE_RCV_RESPONSE_BUSY => exact (hnot hat.2.2.2.1).elim
  case ESTATE_CHECK_RESPONSE_COMPLETE => exact (hnot hat.2.2.2.1).elim
  case ESTATE_DATA_TRANSFER => exact (hnot hat.2.2.1).elim
  case ESTATE_DATA_TRANSFER_COMPLETE =>
    obtain ⟨herr, hwait, hc, hr⟩ := hat
    refine ⟨hi.errNotCareFlag.trans herr, hi.blocked.mpr ⟨hwait, hun⟩, fun hflag => ?_, hi.responseSeen hr⟩
    have hflag' : ¬ (s.dmaErrorFlag = true ∨ x.DmaFailure) := by
      intro hf
      rw [hi.dmaErrorFlag hf] at hflag
      cases hflag
    refine hclean' (hc (Bool.eq_false_iff.mpr fun hf => hflag' (.inl hf))) ?_
    rcases hh with h | h | h | h
    · exact absurd (.inl h) hflag'
    · exact absurd h hsd
    · exact absurd (.inr h) hflag'
    · exact h.1
  case ESTATE_ACCESS_END =>
    obtain ⟨herr, hwait, hc, hdma, hr, hcomp⟩ := hat
    refine ⟨hi.errNotCareFlag.trans herr, hi.blocked.mpr ⟨hwait, hun⟩, hclean' hc hh.2.1, hi.duringDmaTransfer hdma,
      hi.responseSeen hr, hi.completeSeen hcomp⟩
  case ESTATE_END => exact absurd hst hend
  all_goals
    refine ⟨hi.rtnCode.symm ▸ hat.1, fun he => ?_⟩
    exact (hnot (hat.2 (hi.errNotCareFlag.symm.trans he)).2.2.1).elim

theorem round_left (hs : Inv info mode errorMask s) (hrun : s.running = true)
    (hh : ∀ x, sampled s = some x → Heeded s x)
    (h : (round errorMask response).run s = (some r, t)) : Left info mode errorMask r t := by
  have hrun' : s.forceTerminate = false ∧ s.state ≠ .ESTATE_END := by
    simpa [Mmc.running] using hrun
  obtain ⟨hforce, hend⟩ := hrun'
  unfold round at h
  obtain ⟨_, u, hu, h⟩ := run_bind_eq_some h
  obtain ⟨x, hx, hi⟩ := emmcInterrupt_interrupted hu
  replace hh := hh x hx
  rw [run_bind_get, run_ite] at h
  by_cases hb : u.stateMachineBlocking = true
  · rw [if_pos hb] at h
    cases h
    obtain ⟨hb', hun⟩ := hi.blocked.mp hb
    exact .inr (blocked_left hi hs hh hend hb' hun)
  rw [if_neg hb] at h
  have hb' := Bool.eq_false_iff.mpr hb
  -- a state that waits goes on only when it is woken
  unfold stateMachine at h
  rw [run_bind_get, hi.state] at h
  cases hst : s.state <;> rw [hst] at h
  case ESTATE_BEGIN => exact begin_left hi hs hst hh h
  case ESTATE_ISSUE_CMD =>
    have hat := hs.at_state
    rw [hst] at hat
    exact hat.elim
  case ESTATE_NON_RESP_CMD => exact nonRespCmd_left hi hs hst hh hb' h
  case ESTATE_RCV_RESP => exact rcvResp_left hi hs hst hh hb' h
  case ESTATE_RCV_RESPONSE_BUSY => exact rcvResponseBusy_left hi hs hst hh h
  case ESTATE_CHECK_RESPONSE_COMPLETE => exact checkResponseComplete_left hi hs hst hh h
  case ESTATE_DATA_TRANSFER => exact dataTransfer_left hi hs hst hh h
  case ESTATE_DATA_TRANSFER_COMPLETE => exact transferComplete_left hi hs hst hh hb' h
  case ESTATE_ACCESS_END => exact accessEnd_left hi hs hst hh hb' h
  case ESTATE_END => exact absurd hst hend
  all_goals
    have hat := hs.at_state
    rw [hst] at hat
    have hrtn : u.rtnCode ≠ .EMMC_SUCCESS := hi.rtnCode.symm ▸ hat.1
    have hcare : u.errNotCareFlag = true → u.duringDmaTransfer = false ∧
        u.duringTransfer = false ∧ u.stateMachineBlocking = false ∧ u.forceTerminate = false := by
      intro he
      obtain ⟨hdma, htr, -, hmask⟩ := hat.2 (hi.errNotCareFlag.symm.trans he)
      exact ⟨hi.duringDmaTransfer hdma, hi.duringTransfer htr, hb',
        hi.forced hforce fun hp => not_pio hx hmask hp.1⟩
  case ESTATE_TRANSFER_ERROR =>
    unfold estateTransferError at h
    obtain ⟨reg, dma, hdma, -, hrun⟩ := run_endDma u
    rw [run_bind_of_some hrun] at h
    exact estateError_left (u := { u with reg := reg, duringDmaTransfer := dma }) hrtn
      (fun he => ⟨hdma (hcare he).1, (hcare he).2⟩) h
  case ESTATE_ERROR => exact estateError_left hrtn hcare h

end rounds

/-! ## The whole command -/

theorem reports_of_clear {r : Option EmmcErrorCode × Mmc} (hcode : r.1 ≠ some .EMMC_SUCCESS)
    (hclear : ∀ code, r.1 = some code → InProgressClear r.2) : Reports info mode errorMask r :=
  ⟨hclear, fun h => absurd h hcode⟩

theorem finish_reports (hs : s.forceTerminate = true ∨ Inv info mode errorMask s)
    (hrun : s.running = false) : Reports info mode errorMask (finish.run s) := by
  unfold finish
  rw [run_bind_get, run_ite]
  by_cases hforce : s.forceTerminate = true
  · rw [if_pos hforce, run_bind_modify]
    rcases hr : (do emmcSoftreset; return EmmcErrorCode.EMMC_ERR_FORCE_TERMINATE : Prog Mmc _).run
      { s with duringDmaTransfer := false } with ⟨_ | code, t⟩
    · exact reports_of_clear (by simp) (by simp)
    · obtain ⟨_, v, hv, hr⟩ := run_bind_eq_some hr
      cases hr
      exact reports_of_clear (by simp) fun _ _ => softreset_clear hv
  · rw [if_neg hforce, run_bind_modify]
    have hend : s.state = .ESTATE_END := by simpa [Mmc.running, hforce] using hrun
    have hat := (hs.resolve_left hforce).at_state
    rw [hend] at hat
    obtain ⟨hdma, hblock, hsucc⟩ := hat
    exact ⟨fun _ _ => ⟨rfl, rfl, hdma, hblock, Bool.eq_false_iff.mpr hforce⟩, fun _ => hsucc⟩

theorem execLoop_reports (hs : s.forceTerminate = true ∨ Inv info mode errorMask s)
    (h : HeededRun errorMask response n s) :
    Reports info mode errorMask ((execLoop errorMask response n).run s) := by
  induction n generalizing s with
  | zero => exact reports_of_clear (by simp [execLoop]) (by simp [execLoop])
  | succ n ih =>
    unfold execLoop
    rw [run_bind_get, run_ite]
    by_cases hrun : s.running = true
    · rw [if_pos hrun]
      obtain ⟨hsample, hrest⟩ := h hrun
      have hinv : Inv info mode errorMask s := by
        refine hs.resolve_left fun hf => ?_
        simp [Mmc.running, hf] at hrun
      rcases hr : (round errorMask response).run s with ⟨_ | _ | code, t⟩
      · rw [run_bind_of_none hr]
        exact reports_of_clear (by simp) (by simp)
      · rw [run_bind_of_some hr]
        exact ih (round_left hinv hrun hsample hr) (hrest t hr)
      · rw [run_bind_of_some hr]
        obtain ⟨hcode, hclear⟩ := round_left hinv hrun hsample hr
        exact reports_of_clear (fun hc => hcode (Option.some.inj hc)) fun _ _ => hclear
    · rw [if_neg hrun]
      exact finish_reports hs (Bool.eq_false_iff.mpr hrun)

/-- A command whose rounds all heed their samples reports every failure, and leaves nothing in
progress. -/
theorem emmcExecCmd_reports (hs : InProgressClear s)
    (h : HeededRun errorMask response n (begin.run s).2) :
    Reports s.cmdInfo s.transferMode errorMask ((emmcExecCmd errorMask response n).run s) := by
  have hclear : ∀ info, InProgressClear { s with errorInfo := info } := fun _ =>
    ⟨hs.duringCmdProcessing, hs.duringTransfer, hs.duringDmaTransfer, hs.stateMachineBlocking,
      hs.forceTerminate⟩
  unfold emmcExecCmd
  rw [run_ite]
  split_ifs with hresp
  · exact reports_of_clear (by simp [emmcWriteErrorInfo]) fun _ _ => hclear _
  rw [run_bind_get, run_ite]
  split_ifs with hclock
  · exact reports_of_clear (by simp [emmcWriteErrorInfo]) fun _ _ => hclear _
  rw [run_bind_get, run_ite]
  split_ifs with hblock
  · exact reports_of_clear (by simp [emmcWriteErrorInfo]) fun _ _ => hclear _
  refine execLoop_reports (.inr ⟨rfl, rfl, rfl, ?_, ?_⟩) h
  · exact fun e he => absurd he List.not_mem_nil
  · exact ⟨hs.duringCmdProcessing, hs.duringTransfer, hs.duringDmaTransfer,
      hs.stateMachineBlocking, hs.forceTerminate⟩

/-- A driver about to read one block with DMA (CMD17), with the values of its registers. -/
def readStart (input : List UInt32) : Mmc where
  input := input
  fifo := []
  sent := []
  mem := fun _ => 0
  reg := fun _ => 0
  errorInfo := ⟨0, .EMMC_SUCCESS, 0, 0, 0, 0, 0, 0⟩
  cmdInfo := ⟨⟨.R1, .ADTC_READ, fun _ => rfl⟩, 0, .HAL_MEMCARD_READ, 0x11⟩
  buffAddressVirtual := 0x1000
  remainSize := 512
  responseLength := 4
  clockEnable := true
  transferMode := .HAL_MEMCARD_DMA
  currentState := 4
  duringCmdProcessing := false
  duringTransfer := false
  duringDmaTransfer := false
  dmaErrorFlag := false
  forceTerminate := false
  stateMachineBlocking := false
  getPartitionAccessFlag := false
  intEvent1 := 0
  intEvent2 := 0
  dmEvent1 := 0
  dmEvent2 := 0
  state := .ESTATE_BEGIN
  rtnCode := .EMMC_SUCCESS
  errNotCareFlag := false
  events := []

/-- The registers of a read up to its block: the response, and the end of DMA channel 1. -/
def readInput : List UInt32 :=
  [0, 0, 0, 0, 0, 0, 1, 0, 0, 0, 0, 0, 1, 0x900] ++ List.replicate 12 0 ++
    [0, 0, 0, 0, 0x100000, 0, 0x100]

/-- The block, and the access end. -/
def readDone : Mmc := readStart (readInput ++ [4, 0, 0, 0, 0, 0, 4])

/-- The block, and an error. -/
def readFailed : Mmc := readStart (readInput ++ [0, 2, 0, 0, 0, 0, 0, 0, 0, 0, 0, 0, 0])

theorem readStart_clear (input : List UInt32) : InProgressClear (readStart input) :=
  ⟨rfl, rfl, rfl, rfl, rfl⟩

/-- A read that ends with its access end succeeds. -/
theorem read_reports : ((emmcExecCmd 0xFDFFA080 0x100 8).run readDone).1 = some .EMMC_SUCCESS ∧
    Reports readDone.cmdInfo readDone.transferMode 0xFDFFA080
      ((emmcExecCmd 0xFDFFA080 0x100 8).run readDone) :=
  ⟨by decide +kernel, emmcExecCmd_reports (s := readDone) (readStart_clear _) (by decide +kernel)⟩

/-- An error in place of the access end goes to the error state with the return code of a command
that succeeds. -/
theorem access_error_not_reported : InProgressClear readFailed ∧
    ¬ Reports readFailed.cmdInfo readFailed.transferMode 0xFDFFA080
      ((emmcExecCmd 0xFDFFA080 0x100 8).run readFailed) := by
  refine ⟨readStart_clear _, fun h => ?_⟩
  have hsucc := h.2 (by decide +kernel)
  have hmem : Event.sample .ESTATE_ACCESS_END ⟨2, BIT20, 0, 2, 0, 0⟩ ∈
      ((emmcExecCmd 0xFDFFA080 0x100 8).run readFailed).2.events := by decide +kernel
  have herr : (⟨2, BIT20, 0, 2, 0, 0⟩ : Sample).SdError := by decide
  exact hsucc.noError _ hmem (.inl herr)

end RCar.Emmc
