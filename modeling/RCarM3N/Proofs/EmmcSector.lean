import RCarM3N.Model.EmmcSector
import RCarM3N.Proofs.EmmcCmd

/-! The sector functions of the eMMC driver: the data phase moves the words it is asked for, a
chunk moves its sectors, and the loop over the chunks moves the whole range. -/

namespace RCar.EmmcSector

open Prog RCar.Emmc

/-! ## Words -/

theorem wordsOf_succ (src : Mem) (off k : ℕ) :
    wordsOf src off (k + 1) = UInt64.ofNat (src.le64 off) :: wordsOf src (off + 8) k := by
  unfold wordsOf
  rw [List.range_succ_eq_map, List.map_cons, List.map_map]
  refine congrArg _ (List.map_congr_left fun i _ => ?_)
  simp only [Function.comp_apply]
  congr 2
  omega

@[simp] theorem length_wordsOf (src : Mem) (off k : ℕ) : (wordsOf src off k).length = k := by
  simp [wordsOf]

theorem bytesOf_wordsOf (src : Mem) (off k i : ℕ) (hi : i < 8 * k) :
    bytesOf (wordsOf src off k) i = src (off + i) := by
  have hk : i / 8 < k := by omega
  unfold bytesOf wordsOf
  rw [List.getD_eq_getElem?_getD, List.getElem?_map, List.getElem?_range hk, Option.map_some,
    Option.getD_some, byte_le64 _ _ (Nat.mod_lt i (by decide)), Nat.add_assoc, Nat.div_add_mod]

theorem bytes_of_word (src : Mem) (off : ℕ) :
    ((List.range 8).map fun j => (UInt64.ofNat (src.le64 off) >>> UInt64.ofNat (8 * j)).toUInt8) =
      src.read off 8 :=
  List.map_congr_left fun _ hj => byte_le64 src off (List.mem_range.mp hj)

/-! ## The data phase -/

variable {m m' : Mmc} {code : EmmcErrorCode}

/-- A word from the FIFO is stored as the bytes that it was made of. -/
theorem run_word {p off : ℕ} {src : Mem} {rest : List UInt64} (x : Prog Mmc EmmcErrorCode)
    (hfifo : m.fifo = UInt64.ofNat (src.le64 off) :: rest) :
    (do let v ← getr64
        storeBytes p ((List.range 8).map fun j => (v >>> UInt64.ofNat (8 * j)).toUInt8)
        x).run m = x.run { m with fifo := rest, mem := m.mem.copy p src off 8 } := by
  have hget : getr64.run m = (some (UInt64.ofNat (src.le64 off)), { m with fifo := rest }) := by
    rw [run_getr64, hfifo]
  have hcopy : ∀ dst : Mem, dst.copy p (Mem.ofList (src.read off 8)) 0 8 = dst.copy p src off 8 := by
    intro dst
    refine Mem.copy_congr _ _ fun i hi => ?_
    rw [Nat.zero_add]
    exact Mem.getD_read src off 8 i hi
  rw [run_bind_of_some hget, bytes_of_word]
  unfold storeBytes
  rw [run_bind_modify, Mem.length_read, hcopy]

/-- The reads of the words store the bytes that the words were made of. -/
theorem transWords_read {k i p off : ℕ} {src : Mem} {r : List UInt64}
    (h : (transWords k i p).run m = (some .EMMC_SUCCESS, m'))
    (hdir : m.cmdInfo.dir = .HAL_MEMCARD_READ) (hfifo : m.fifo = wordsOf src off k ++ r) :
    m'.mem = m.mem.copy p src off (8 * k) := by
  induction k generalizing m i p off with
  | zero =>
    cases h
    simp
  | succ k ih =>
    have hstep : ∀ {u : Mmc}, u.cmdInfo = m.cmdInfo → u.fifo = m.fifo → u.mem = m.mem →
        (do let v ← getr64
            storeBytes p ((List.range 8).map fun j => (v >>> UInt64.ofNat (8 * j)).toUInt8)
            transWords k (i + 1) (p + 8)).run u = (some .EMMC_SUCCESS, m') →
        m'.mem = m.mem.copy p src off (8 * (k + 1)) := by
      intro u hui huf hum hrun
      rw [wordsOf_succ, List.cons_append, ← huf] at hfifo
      rw [run_word _ hfifo] at hrun
      have hrest := ih hrun (hui ▸ hdir) (rfl : wordsOf src (off + 8) k ++ r = _)
      rw [hrest, show 8 * (k + 1) = 8 + 8 * k by ring]
      dsimp only
      rw [hum]
      exact Mem.copy_append _ _ _ _ _ _
    unfold transWords at h
    rw [run_bind_get, run_ite, if_neg (by rw [hdir]; decide), run_ite] at h
    by_cases hblock : i % (EMMC_BLOCK_LENGTH >>> EMMC_BUF_SIZE_SHIFT) = 0 ∧ i ≠ 0
    · -- the first word of a further block waits for it
      rw [if_pos hblock] at h
      obtain ⟨came, u, hu, h⟩ := run_bind_eq_some h
      rw [run_awaitBre] at hu
      rcases hb : breCheck m.input with _ | ⟨came', l⟩ <;> rw [hb] at hu <;> cases hu
      cases came
      · cases h
      rw [if_pos rfl] at h
      obtain ⟨v, u, hu, h⟩ := run_bind_eq_some h
      rw [run_getr32, if_pos (show Reg.SD_INFO2.isStatus = true from rfl)] at hu
      dsimp only at hu
      rcases l with _ | ⟨w, l⟩ <;> cases hu
      unfold setr32 at h
      rw [run_bind_modify] at h
      refine hstep ?_ ?_ ?_ h <;> rfl
    · rw [if_neg hblock] at h
      exact hstep rfl rfl rfl h

/-- The words of the buffer are written in order. -/
theorem transWords_write (k i p : ℕ) (hdir : m.cmdInfo.dir = .HAL_MEMCARD_WRITE) :
    (transWords k i p).run m =
      (some .EMMC_SUCCESS, { m with sent := (wordsOf m.mem p k).reverse ++ m.sent }) := by
  induction k generalizing m i p with
  | zero => rfl
  | succ k ih =>
    unfold transWords
    rw [run_bind_get, run_ite, if_pos hdir, run_bind_get]
    unfold setr64
    rw [run_bind_modify, ih (m := { m with sent := UInt64.ofNat (m.mem.le64 p) :: m.sent }) _ _ hdir,
      wordsOf_succ, List.reverse_cons, List.append_assoc]
    rfl

/-- The polls bring `k` more blocks. -/
def Polls : ℕ → List UInt32 → Prop
  | 0, _ => True
  | k + 1, l => ∃ v l', breCheck l = some (true, v :: l') ∧ Polls k l'

/-- With as many blocks as the words begin, the reads come to their end. -/
theorem transWords_polls {k i p blocks : ℕ} (hdir : m.cmdInfo.dir = .HAL_MEMCARD_READ)
    (hfifo : k ≤ m.fifo.length) (hpolls : Polls blocks m.input)
    (hblocks : (i + k + 63) / 64 - (i + 63) / 64 ≤ blocks) :
    ∃ m', (transWords k i p).run m = (some .EMMC_SUCCESS, m') := by
  induction k generalizing m i p blocks with
  | zero => exact ⟨m, rfl⟩
  | succ k ih =>
    obtain ⟨w, rest, hw⟩ : ∃ w rest, m.fifo = w :: rest :=
      List.exists_cons_of_length_pos (by omega)
    have hstep : ∀ {u : Mmc} {blocks : ℕ}, u.cmdInfo = m.cmdInfo → u.fifo = m.fifo →
        Polls blocks u.input → (i + 1 + k + 63) / 64 - (i + 1 + 63) / 64 ≤ blocks → ∃ m', (do
          let v ← getr64
          storeBytes p ((List.range 8).map fun j => (v >>> UInt64.ofNat (8 * j)).toUInt8)
          transWords k (i + 1) (p + 8)).run u = (some .EMMC_SUCCESS, m') := by
      intro u blocks hui huf hup hub
      have hget : getr64.run u = (some w, { u with fifo := rest }) := by
        rw [run_getr64, huf, hw]
      rw [run_bind_of_some hget]
      unfold storeBytes
      rw [run_bind_modify]
      refine ih (hui ▸ hdir) ?_ hup hub
      rw [hw, List.length_cons] at hfifo
      exact Nat.le_of_succ_le_succ hfifo
    unfold transWords
    rw [run_bind_get, run_ite, if_neg (by rw [hdir]; decide), run_ite]
    by_cases hblock : i % (EMMC_BLOCK_LENGTH >>> EMMC_BUF_SIZE_SHIFT) = 0 ∧ i ≠ 0
    · have h64 : i % 64 = 0 := hblock.1
      rw [if_pos hblock]
      obtain _ | blocks := blocks
      · omega
      obtain ⟨v, l, hb, hl⟩ := hpolls
      have hwait : awaitBre.run m = (some true, { m with input := v :: l }) := by
        rw [run_awaitBre, hb]
      rw [run_bind_of_some hwait, if_pos rfl]
      exact hstep (u := { m with
        input := l, reg := Function.update m.reg .SD_INFO2 (v &&& ~~~SD_INFO2_BRE) })
        rfl rfl hl (by omega)
    · rw [if_neg hblock]
      exact hstep rfl rfl hpolls (by omega)

theorem emmcTransSector_success {p : ℕ}
    (h : (emmcTransSector p).run m = (some .EMMC_SUCCESS, m')) :
    (transWords (m.remainSize >>> 3).toNat 0 p).run m = (some .EMMC_SUCCESS, m') := by
  unfold emmcTransSector at h
  rw [run_ite] at h
  split_ifs at h
  · cases h
  · rw [run_bind_get, run_ite] at h
    split_ifs at h
    · cases h
    · exact h

theorem run_emmcTransSector {p : ℕ} (hp : p ≠ 0) (htr : m.duringTransfer = true)
    (hsize : m.remainSize ≠ 0) :
    (emmcTransSector p).run m = (transWords (m.remainSize >>> 3).toNat 0 p).run m := by
  unfold emmcTransSector
  rw [run_ite, if_neg hp, run_bind_get, run_ite, if_neg]
  rintro (hf | hz)
  · rw [htr] at hf
    cases hf
  · exact hsize hz

/-- A transfer that is not given up has moved its words. -/
theorem pioTransfer_success {ready : UInt32} (h : (pioTransfer ready).run m = (some (), m'))
    (hforce : m'.forceTerminate = false) : ∃ u v : Mmc, u.cmdInfo = m.cmdInfo ∧ u.fifo = m.fifo ∧
      u.sent = m.sent ∧ u.mem = m.mem ∧
      (transWords (m.remainSize >>> 3).toNat 0 m.buffAddressVirtual).run u = (some .EMMC_SUCCESS, v) ∧
      m'.mem = v.mem ∧ m'.sent = v.sent := by
  unfold pioTransfer at h
  obtain ⟨x, u, hu, h⟩ := run_bind_eq_some h
  rw [run_getr32, if_pos (show Reg.SD_INFO2.isStatus = true from rfl)] at hu
  rcases hi : m.input with _ | ⟨w, l⟩ <;> rw [hi] at hu <;> cases hu
  unfold setr32 at h
  rw [run_bind_modify, run_bind_get] at h
  obtain ⟨code, v, hv, h⟩ := run_bind_eq_some h
  rw [run_bind_modify] at h
  dsimp only at h
  rw [run_ite] at h
  by_cases hcode : code ≠ .EMMC_SUCCESS
  · rw [if_pos hcode] at h
    obtain rfl := congrArg Prod.snd h
    cases hforce
  · rw [if_neg hcode] at h
    obtain rfl := congrArg Prod.snd h
    rw [not_not.mp hcode] at hv
    exact ⟨{ m with input := l, reg := Function.update m.reg .SD_INFO2 (x &&& ~~~ready) }, v,
      rfl, rfl, rfl, rfl, emmcTransSector_success hv, rfl, rfl⟩

theorem run_pioTransfer (ready : UInt32) {u : Mmc} {v : UInt32} {l : List UInt32}
    (hinput : m.input = v :: l) (hbuff : m.buffAddressVirtual ≠ 0) (htr : m.duringTransfer = true)
    (hsize : m.remainSize ≠ 0)
    (h : (transWords (m.remainSize >>> 3).toNat 0 m.buffAddressVirtual).run { m with
      input := l, reg := Function.update m.reg .SD_INFO2 (v &&& ~~~ready) } = (some .EMMC_SUCCESS, u))
    (hu : u.forceTerminate = m.forceTerminate) :
    ∃ m', (pioTransfer ready).run m = (some (), m') ∧ m'.forceTerminate = m.forceTerminate := by
  have hget : (getr32 .SD_INFO2).run m = (some v, { m with input := l }) := by
    rw [run_getr32, if_pos (show Reg.SD_INFO2.isStatus = true from rfl), hinput]
  have hrun := (run_emmcTransSector (m := { m with
    input := l, reg := Function.update m.reg .SD_INFO2 (v &&& ~~~ready) }) hbuff htr hsize).trans h
  unfold pioTransfer
  rw [run_bind_of_some hget]
  unfold setr32
  rw [run_bind_modify, run_bind_get, run_bind_of_some hrun, run_bind_modify]
  exact ⟨_, rfl, hu⟩

variable {s t : Drv}

theorem onMmc_of_some {α : Type} {x : Prog Mmc α} {a : α} (h : x.run s.mmc = (some a, m)) :
    (onMmc x).run s = (some a, { s with mmc := m }) := by
  change ((x.run s.mmc).1, { s with mmc := (x.run s.mmc).2 }) = _
  rw [h]

theorem onMmc_eq_some {α : Type} {x : Prog Mmc α} {a : α} (h : (onMmc x).run s = (some a, t)) :
    ∃ m, x.run s.mmc = (some a, m) ∧ t = { s with mmc := m } := by
  refine ⟨(x.run s.mmc).2, ?_, (congrArg Prod.snd h).symm⟩
  exact Prod.ext (show (x.run s.mmc).1 = some a from congrArg Prod.fst h) rfl

theorem pioPhase_success {ready : UInt32} {info2 : List UInt32} {fifo : List UInt64}
    (h : (pioPhase ready info2 fifo).run s = (some true, t)) : ∃ m' u v : Mmc,
      t = { s with mmc := m' } ∧ u.cmdInfo = s.mmc.cmdInfo ∧ u.fifo = fifo ∧ u.sent = [] ∧
      u.mem = s.mmc.mem ∧ (transWords (s.mmc.remainSize >>> 3).toNat 0
        s.mmc.buffAddressVirtual).run u = (some .EMMC_SUCCESS, v) ∧
      m'.mem = v.mem ∧ m'.sent = v.sent := by
  unfold pioPhase at h
  rw [run_bind_of_some (onMmc_of_some (run_modify _ _))] at h
  obtain ⟨_, w, hw, h⟩ := run_bind_eq_some h
  obtain ⟨m', hm', rfl⟩ := onMmc_eq_some hw
  rw [run_bind_get, run_bind_of_some (onMmc_of_some (run_modify _ _))] at h
  have hforce : m'.forceTerminate = false := by
    simpa using congrArg Prod.fst h
  obtain ⟨u, v, hcmd, hfifo, hsent, hmem, hrun, hm, hs⟩ := pioTransfer_success hm' hforce
  obtain rfl := congrArg Prod.snd h
  exact ⟨_, u, v, rfl, hcmd, hfifo, hsent, hmem, hrun, hm, hs⟩

/-- A read phase that succeeds has filled the buffer. -/
theorem readPhase_success {info2 : List UInt32} {src : Mem} {off n : ℕ}
    (h : (readPhase info2 src off n).run s = (some .EMMC_SUCCESS, t))
    (hdir : s.mmc.cmdInfo.dir = .HAL_MEMCARD_READ) (hn : 8 ∣ n)
    (hsize : (s.mmc.remainSize >>> 3).toNat = n / 8) :
    ∃ m', t = { s with mmc := m' } ∧ m'.mem = s.mmc.mem.copy (target s.mmc) src off n := by
  unfold readPhase at h
  rw [run_bind_get, run_ite] at h
  by_cases hdma : s.mmc.transferMode = .HAL_MEMCARD_DMA
  · rw [if_pos hdma, run_bind_of_some (onMmc_of_some (run_modify _ _))] at h
    obtain rfl := congrArg Prod.snd h
    exact ⟨_, rfl, rfl⟩
  · rw [if_neg hdma] at h
    obtain ⟨came, w, hw, h⟩ := run_bind_eq_some h
    cases came
    · cases h
    obtain rfl := congrArg Prod.snd h
    obtain ⟨m', u, v, hw', hcmd, hfifo, -, hmem, hrun, hm, -⟩ := pioPhase_success hw
    rw [hsize] at hrun
    have hv := transWords_read (r := []) hrun (hcmd ▸ hdir) (hfifo.trans (List.append_nil _).symm)
    refine ⟨m', hw', ?_⟩
    rw [hm, hv, hmem, Nat.mul_div_cancel' hn, target, if_neg hdma]

/-- A write phase that succeeds has stored the buffer. -/
theorem writePhase_success {info2 : List UInt32} {off n : ℕ}
    (h : (writePhase info2 off n).run s = (some .EMMC_SUCCESS, t))
    (hdir : s.mmc.cmdInfo.dir = .HAL_MEMCARD_WRITE) (hn : 8 ∣ n)
    (hsize : (s.mmc.remainSize >>> 3).toNat = n / 8) :
    ∃ m', m'.mem = s.mmc.mem ∧ t = { s with mmc := m', card := { s.card with
      part := Function.update s.card.part s.card.access
        ((s.card.part s.card.access).copy off s.mmc.mem (target s.mmc) n) } } := by
  have hcopy : ∀ (src : Mem), (∀ i < n, src i = s.mmc.mem (target s.mmc + i)) →
      (s.card.part s.card.access).copy off src 0 n =
        (s.card.part s.card.access).copy off s.mmc.mem (target s.mmc) n := by
    intro src hsrc
    refine Mem.copy_congr _ _ fun i hi => ?_
    rw [Nat.zero_add]
    exact hsrc i hi
  unfold writePhase storeSectors at h
  rw [run_bind_get, run_ite] at h
  by_cases hdma : s.mmc.transferMode = .HAL_MEMCARD_DMA
  · rw [if_pos hdma, run_bind_modify, hcopy _ fun _ _ => rfl] at h
    obtain rfl := congrArg Prod.snd h
    exact ⟨s.mmc, rfl, rfl⟩
  · rw [if_neg hdma] at h
    obtain ⟨came, w, hw, h⟩ := run_bind_eq_some h
    cases came
    · cases h
    obtain ⟨m', u, v, rfl, hcmd, -, hsent, hmem, hrun, hm, hs⟩ := pioPhase_success hw
    rw [hsize, transWords_write _ _ _ (hcmd ▸ hdir)] at hrun
    obtain rfl := congrArg Prod.snd hrun
    rw [if_pos rfl, run_bind_get, run_bind_modify] at h
    obtain rfl := congrArg Prod.snd h
    have hwords : m'.sent.reverse = wordsOf s.mmc.mem s.mmc.buffAddressVirtual (n / 8) := by
      rw [hs]
      simp [hsent, hmem]
    have hbytes : ∀ i < n, bytesOf (wordsOf s.mmc.mem s.mmc.buffAddressVirtual (n / 8)) i =
        s.mmc.mem (target s.mmc + i) := by
      intro i hi
      rw [bytesOf_wordsOf _ _ _ _ (by omega), target, if_neg hdma]
    refine ⟨m', hm.trans hmem, ?_⟩
    dsimp only
    rw [hwords, length_wordsOf, Nat.mul_div_cancel' hn, hcopy _ hbytes]
    rfl

/-! ## Commands -/

theorem execCmd_success (h : execCmd.run s = (some .EMMC_SUCCESS, t)) : ∃ status info2,
    s.outcomes s.pos = .done status info2 ∧
    (perform status info2).run { s with pos := s.pos + 1 } = (some .EMMC_SUCCESS, t) := by
  unfold execCmd at h
  rw [run_bind_get, run_bind_modify] at h
  rcases ho : s.outcomes s.pos with ⟨status, info2⟩ | ⟨code, obeyed, left⟩ <;> rw [ho] at h
  · exact ⟨status, info2, rfl, h⟩
  · obtain ⟨_, u, -, h⟩ := run_bind_eq_some h
    exact absurd (Option.some.inj (congrArg Prod.fst h)) code.property

theorem run_execCmd {status : UInt32} {info2 : List UInt32}
    (h : s.outcomes s.pos = .done status info2) :
    execCmd.run s = (perform status info2).run { s with pos := s.pos + 1 } := by
  unfold execCmd
  rw [run_bind_get, run_bind_modify, h]

/-- The object after the response of a command. -/
def Drv.answered (s : Drv) (status : UInt32) : Drv := { s with
  r1CardStatus := status
  mmc := { s.mmc with currentState := (status &&& EMMC_R1_STATE_MASK) >>> EMMC_R1_STATE_SHIFT } }

theorem perform_eq {status : UInt32} {info2 : List UInt32} (cmd : Command) (h : s.command = cmd) :
    (perform status info2).run s = (match cmd with
      | .CMD6_SWITCH => (do
        Prog.modify fun s' => { s' with card := s'.card.switch s.mmc.cmdInfo.arg }
        return .EMMC_SUCCESS : Prog Drv EmmcErrorCode)
      | .CMD8_SEND_EXT_CSD => readPhase info2 s.card.extCsd 0 EMMC_MAX_EXT_CSD_LENGTH.toNat
      | .CMD13_SEND_STATUS => return .EMMC_SUCCESS
      | .CMD18_READ_MULTIPLE_BLOCK => dataCommand (readPhase info2 (s.card.part s.card.access))
      | .CMD23_SET_BLOCK_COUNT => (do
        Prog.modify fun s' => { s' with
          card := { s'.card with blockCount := s.mmc.cmdInfo.arg &&& 0xFFFF } }
        return .EMMC_SUCCESS : Prog Drv EmmcErrorCode)
      | .CMD25_WRITE_MULTIPLE_BLOCK => dataCommand (writePhase info2)).run (s.answered status) := by
  subst h
  rfl

theorem dataCommand_success {phase : ℕ → ℕ → Prog Drv EmmcErrorCode}
    (h : (dataCommand phase).run s = (some .EMMC_SUCCESS, t)) :
    s.mmc.cmdInfo.arg.toNat + s.secCnt.toNat ≤ (s.card.sectors s.card.access).toNat ∧
    (phase (EMMC_BLOCK_LENGTH * s.mmc.cmdInfo.arg.toNat) (EMMC_BLOCK_LENGTH * s.secCnt.toNat)).run
      { s with moved := s.moved ++ pieces s.mmc.cmdInfo.arg.toNat s.secCnt.toNat (target s.mmc) } =
      (some .EMMC_SUCCESS, t) := by
  unfold dataCommand at h
  rw [run_bind_get, run_ite] at h
  by_cases hcount : s.card.blockCount ≠ s.secCnt
  · rw [if_pos hcount] at h
    cases h
  · rw [if_neg hcount, run_ite] at h
    by_cases hout : (s.card.sectors s.card.access).toNat < s.mmc.cmdInfo.arg.toNat + s.secCnt.toNat
    · rw [if_pos hout] at h
      cases h
    · rw [if_neg hout] at h
      exact ⟨Nat.not_lt.mp hout, h⟩

theorem run_dataCommand {phase : ℕ → ℕ → Prog Drv EmmcErrorCode}
    (hcount : s.card.blockCount = s.secCnt)
    (hin : s.mmc.cmdInfo.arg.toNat + s.secCnt.toNat ≤ (s.card.sectors s.card.access).toNat) :
    (dataCommand phase).run s = (phase (EMMC_BLOCK_LENGTH * s.mmc.cmdInfo.arg.toNat)
      (EMMC_BLOCK_LENGTH * s.secCnt.toNat)).run { s with
        moved := s.moved ++ pieces s.mmc.cmdInfo.arg.toNat s.secCnt.toNat (target s.mmc) } := by
  unfold dataCommand
  rw [run_bind_get, run_ite, if_neg (not_not.mpr hcount), run_ite, if_neg (Nat.not_lt.mpr hin)]
  rfl

/-! ## A chunk -/

/-- The memory after `n` sectors, from sector `x` on, have been moved from or to `addr`. -/
def memAfter (dir : HalMemcardOperation) (s : Drv) (addr x n : ℕ) : Mem :=
  match dir with
  | .HAL_MEMCARD_READ => s.mmc.mem.copy addr (s.card.part s.card.access)
      (EMMC_BLOCK_LENGTH * x) (EMMC_BLOCK_LENGTH * n)
  | .HAL_MEMCARD_WRITE => s.mmc.mem

/-- The partitions after that. -/
def partAfter (dir : HalMemcardOperation) (s : Drv) (addr x n : ℕ) : ℕ → Mem :=
  match dir with
  | .HAL_MEMCARD_READ => s.card.part
  | .HAL_MEMCARD_WRITE => Function.update s.card.part s.card.access
      ((s.card.part s.card.access).copy (EMMC_BLOCK_LENGTH * x) s.mmc.mem addr
        (EMMC_BLOCK_LENGTH * n))

/-- Sectors have been moved, `n` of them from sector `x` on, between the selected partition and
the memory from `addr` on. -/
structure Transferred (dir : HalMemcardOperation) (s t : Drv) (addr x n : ℕ) : Prop where
  mount : t.mount = s.mount
  outcomes : t.outcomes = s.outcomes
  sectors : t.card.sectors = s.card.sectors
  extCsd : t.card.extCsd = s.card.extCsd
  moved : t.moved = s.moved ++ pieces x n addr
  mem : t.mmc.mem = memAfter dir s addr x n
  part : t.card.part = partAfter dir s addr x n

section block

variable {funcNo : ℕ} {countArg : UInt32 → UInt32} {cmd : Command} {dir : HalMemcardOperation}
  {mode : HalMemcardDataTransferMode} {b : ℕ} {x n : UInt32}

/-- The driver is about to send the data command of a chunk. -/
structure Prepared (s : Drv) (cmd : Command) (dir : HalMemcardOperation)
    (mode : HalMemcardDataTransferMode) (b : ℕ) (x n : UInt32) (u : Drv) : Prop where
  mount : u.mount = s.mount
  outcomes : u.outcomes = s.outcomes
  moved : u.moved = s.moved
  card : u.card = { s.card with blockCount := n }
  command : u.command = cmd
  secCnt : u.secCnt = n
  mem : u.mmc.mem = s.mmc.mem
  arg : u.mmc.cmdInfo.arg = x
  dir : u.mmc.cmdInfo.dir = dir
  buff : u.mmc.buffAddressVirtual = b
  size : u.mmc.remainSize = n <<< EMMC_SECTOR_SIZE_SHIFT
  mode : u.mmc.transferMode = mode

/-- What the commands before and after the data leave alone. -/
structure Quiet (s t : Drv) : Prop where
  mount : t.mount = s.mount
  outcomes : t.outcomes = s.outcomes
  moved : t.moved = s.moved
  card : t.card = s.card
  mem : t.mmc.mem = s.mmc.mem

/-- A step whose failure ends the function. -/
theorem run_checked {y f : Prog Drv EmmcErrorCode} (h : (do
      let result ← y
      if result ≠ .EMMC_SUCCESS then
        return result
      else
        f : Prog Drv EmmcErrorCode).run s = (some .EMMC_SUCCESS, t)) :
    ∃ u, y.run s = (some .EMMC_SUCCESS, u) ∧ f.run u = (some .EMMC_SUCCESS, t) := by
  obtain ⟨code, u, hu, h⟩ := run_bind_eq_some h
  rw [run_ite] at h
  by_cases hcode : code ≠ .EMMC_SUCCESS
  · rw [if_pos hcode] at h
    cases h
    exact absurd rfl hcode
  · rw [if_neg hcode] at h
    exact ⟨u, not_not.mp hcode ▸ hu, h⟩

theorem checkCard_success (h : (checkCard funcNo).run s = (some .EMMC_SUCCESS, t)) : t = s := by
  unfold checkCard at h
  rw [run_bind_get, run_ite] at h
  by_cases hready : s.r1CardStatus &&& EMMC_R1_READY = 0
  · rw [if_pos hready] at h
    cases congrArg Prod.fst h
  · rw [if_neg hready, run_ite] at h
    by_cases hstate : s.mmc.currentState ≠ EMMC_R1_STATE_TRAN
    · rw [if_pos hstate] at h
      cases congrArg Prod.fst h
    · rw [if_neg hstate] at h
      exact (congrArg Prod.snd h).symm

theorem multipleBlock_success
    (h : (multipleBlock funcNo countArg cmd dir mode b x n).run s = (some .EMMC_SUCCESS, t))
    (harg : n ≤ EMMC_RW_SECTOR_COUNT_MAX → countArg n &&& 0xFFFF = n) :
    n ≤ EMMC_RW_SECTOR_COUNT_MAX ∧ ∃ u v status info2, Prepared s cmd dir mode b x n u ∧
      (perform status info2).run u = (some .EMMC_SUCCESS, v) ∧ Quiet v t := by
  unfold multipleBlock at h
  rw [run_ite] at h
  by_cases hn : n > EMMC_RW_SECTOR_COUNT_MAX ∨ n = 0
  · rw [if_pos hn] at h
    cases congrArg Prod.fst h
  rw [if_neg hn] at h
  have hle : n ≤ EMMC_RW_SECTOR_COUNT_MAX := UInt32.not_lt.mp fun hlt => hn (.inl hlt)
  refine ⟨hle, ?_⟩
  -- CMD23
  unfold emmcMakeNontransCmd at h
  rw [run_bind_modify] at h
  obtain ⟨u, hu, h⟩ := run_checked h
  obtain ⟨status1, info21, -, hp⟩ := execCmd_success hu
  rw [perform_eq .CMD23_SET_BLOCK_COUNT rfl] at hp
  dsimp only at hp
  rw [run_bind_modify] at hp
  obtain rfl := congrArg Prod.snd hp
  -- the data command
  unfold emmcMakeTransCmd emmcMakeNontransCmd setr32 at h
  rw [run_bind_modify, run_bind_of_some (onMmc_of_some (run_modify _ _)),
    run_bind_of_some (onMmc_of_some (run_modify _ _)), bind_assoc, run_bind_modify,
    run_bind_modify] at h
  obtain ⟨v, hv, h⟩ := run_checked h
  obtain ⟨status, info2, -, hp⟩ := execCmd_success hv
  refine ⟨_, v, status, info2, ?_, hp, ?_⟩
  · have hcard : ∀ c : Card, { c with blockCount := countArg n &&& 0xFFFF } =
        { c with blockCount := n } := fun c => by rw [harg hle]
    exact ⟨rfl, rfl, rfl, hcard s.card, rfl, rfl, rfl, rfl, rfl, rfl, rfl, rfl⟩
  -- CMD13
  rw [run_bind_modify] at h
  obtain ⟨w, hw, h⟩ := run_checked h
  obtain ⟨status2, info22, -, hp⟩ := execCmd_success hw
  rw [perform_eq .CMD13_SEND_STATUS rfl] at hp
  obtain rfl := congrArg Prod.snd hp
  obtain rfl := checkCard_success h
  exact ⟨rfl, rfl, rfl, rfl, rfl⟩

theorem toNat_size (hn : n ≤ EMMC_RW_SECTOR_COUNT_MAX) :
    ((n <<< EMMC_SECTOR_SIZE_SHIFT) >>> 3).toNat = EMMC_BLOCK_LENGTH * n.toNat / 8 := by
  have hle : n.toNat ≤ 0xFFFF := UInt32.le_iff_toNat_le.mp hn
  have h9 : EMMC_SECTOR_SIZE_SHIFT.toNat % 32 = 9 := by decide
  have h3 : (3 : UInt32).toNat % 32 = 3 := by decide
  rw [UInt32.toNat_shiftRight, UInt32.toNat_shiftLeft, h9, h3, Nat.shiftLeft_eq,
    Nat.shiftRight_eq_div_pow]
  unfold EMMC_BLOCK_LENGTH
  omega

/-- Where a mode of transfer finds the buffer. -/
def addrOf (mode : HalMemcardDataTransferMode) (b : ℕ) : ℕ :=
  if mode = .HAL_MEMCARD_DMA then dmaAddr b else b

def Command.ofDir : HalMemcardOperation → Command
  | .HAL_MEMCARD_READ => CMD18_READ_MULTIPLE_BLOCK
  | .HAL_MEMCARD_WRITE => CMD25_WRITE_MULTIPLE_BLOCK

theorem perform_transfers {u v : Drv} {status : UInt32} {info2 : List UInt32}
    (hu : Prepared s (.ofDir dir) dir mode b x n u) (hn : n ≤ EMMC_RW_SECTOR_COUNT_MAX)
    (h : (perform status info2).run u = (some .EMMC_SUCCESS, v)) :
    Transferred dir s v (addrOf mode b) x.toNat n.toNat ∧
      x.toNat + n.toNat ≤ (s.card.sectors s.card.access).toNat := by
  have htarget : target u.mmc = addrOf mode b := by
    rw [target, hu.mode, hu.buff, addrOf]
  have h8 : 8 ∣ EMMC_BLOCK_LENGTH * n.toNat := Dvd.dvd.mul_right (by decide) _
  have hsize : (u.mmc.remainSize >>> 3).toNat = EMMC_BLOCK_LENGTH * n.toNat / 8 := by
    rw [hu.size, toNat_size hn]
  have harg : (u.answered status).mmc.cmdInfo.arg = x := hu.arg
  have hcnt : (u.answered status).secCnt = n := hu.secCnt
  have htarget' : target (u.answered status).mmc = addrOf mode b := htarget
  have hpart : u.card.part = s.card.part := by rw [hu.card]
  have hext : u.card.extCsd = s.card.extCsd := by rw [hu.card]
  have hsec : u.card.sectors = s.card.sectors := by rw [hu.card]
  have haccess : u.card.access = s.card.access := by
    rw [hu.card]
    rfl
  have hmoved : u.moved ++ pieces x.toNat n.toNat (addrOf mode b) =
      s.moved ++ pieces x.toNat n.toNat (addrOf mode b) := by rw [hu.moved]
  cases dir with
  | HAL_MEMCARD_READ =>
    rw [perform_eq _ hu.command] at h
    obtain ⟨hin, h⟩ := dataCommand_success h
    rw [harg, hcnt, htarget'] at h
    rw [harg, hcnt] at hin
    obtain ⟨m', rfl, hmem⟩ := readPhase_success h hu.dir h8 hsize
    refine ⟨⟨hu.mount, hu.outcomes, hsec, hext, hmoved, ?_, hpart⟩, haccess ▸ hsec ▸ hin⟩
    have hmem' : m'.mem = u.mmc.mem.copy (target u.mmc) (u.card.part u.card.access)
        (EMMC_BLOCK_LENGTH * x.toNat) (EMMC_BLOCK_LENGTH * n.toNat) := hmem
    change m'.mem = _
    rw [hmem', htarget, hpart, haccess, hu.mem]
    rfl
  | HAL_MEMCARD_WRITE =>
    rw [perform_eq _ hu.command] at h
    obtain ⟨hin, h⟩ := dataCommand_success h
    rw [harg, hcnt, htarget'] at h
    rw [harg, hcnt] at hin
    obtain ⟨m', hmem, rfl⟩ := writePhase_success h hu.dir h8 hsize
    refine ⟨⟨hu.mount, hu.outcomes, hsec, hext, hmoved, hmem.trans hu.mem, ?_⟩,
      haccess ▸ hsec ▸ hin⟩
    change Function.update u.card.part u.card.access ((u.card.part u.card.access).copy _
      u.mmc.mem (target u.mmc) _) = _
    rw [hpart, haccess, hu.mem, htarget]
    rfl

theorem multipleBlock_transfers
    (h : (multipleBlock funcNo countArg (.ofDir dir) dir mode b x n).run s = (some .EMMC_SUCCESS, t))
    (harg : n ≤ EMMC_RW_SECTOR_COUNT_MAX → countArg n &&& 0xFFFF = n) :
    Transferred dir s t (addrOf mode b) x.toNat n.toNat ∧
      x.toNat + n.toNat ≤ (s.card.sectors s.card.access).toNat := by
  obtain ⟨hn, u, v, status, info2, hu, hp, hq⟩ := multipleBlock_success h harg
  obtain ⟨htr, hin⟩ := perform_transfers hu hn hp
  refine ⟨⟨hq.mount.trans htr.mount, hq.outcomes.trans htr.outcomes, ?_, ?_,
    hq.moved.trans htr.moved, hq.mem.trans htr.mem, ?_⟩, hin⟩
  · rw [hq.card, htr.sectors]
  · rw [hq.card, htr.extCsd]
  · rw [hq.card, htr.part]

end block

/-! ## The loop -/

theorem pieces_append (x n k b : ℕ) :
    pieces x n b ++ pieces (x + n) k (b + EMMC_BLOCK_LENGTH * n) = pieces x (n + k) b := by
  unfold pieces
  rw [List.range_add, List.map_append, List.map_map]
  refine congrArg _ (List.map_congr_left fun i _ => ?_)
  simp only [Function.comp_apply, Nat.mul_add, Nat.add_assoc]

theorem Transferred.zero (dir : HalMemcardOperation) (s : Drv) (addr x : ℕ) :
    Transferred dir s s addr x 0 := by
  cases dir <;> exact ⟨rfl, rfl, rfl, rfl, by simp [pieces], by simp [memAfter], by simp [partAfter]⟩

theorem Transferred.append {dir : HalMemcardOperation} {s u t : Drv} {addr x n k : ℕ}
    (h : Transferred dir s u addr x n)
    (h' : Transferred dir u t (addr + EMMC_BLOCK_LENGTH * n) (x + n) k) :
    Transferred dir s t addr x (n + k) := by
  have haccess : u.card.access = s.card.access := by
    unfold Card.access
    rw [h.extCsd]
  refine ⟨h'.mount.trans h.mount, h'.outcomes.trans h.outcomes, h'.sectors.trans h.sectors,
    h'.extCsd.trans h.extCsd, ?_, ?_, ?_⟩
  · rw [h'.moved, h.moved, List.append_assoc, pieces_append]
  · cases dir with
    | HAL_MEMCARD_READ =>
      rw [h'.mem]
      unfold memAfter
      rw [h.mem, h.part, haccess, Nat.mul_add, Nat.mul_add]
      exact Mem.copy_append _ _ _ _ _ _
    | HAL_MEMCARD_WRITE => exact h'.mem.trans h.mem
  · cases dir with
    | HAL_MEMCARD_READ => exact h'.part.trans h.part
    | HAL_MEMCARD_WRITE =>
      rw [h'.part]
      unfold partAfter
      rw [h.part, h.mem, haccess]
      unfold partAfter memAfter
      dsimp only
      rw [Function.update_idem, Function.update_self, Nat.mul_add, Nat.mul_add, Mem.copy_append]

/-- The DMA reaches the buffer. -/
def Addressable (mode : HalMemcardDataTransferMode) (b n : ℕ) : Prop :=
  mode = .HAL_MEMCARD_DMA → 8 ∣ b ∧ b + EMMC_BLOCK_LENGTH * n ≤ 2 ^ 32

theorem dmaAddr_eq {b : ℕ} (h8 : 8 ∣ b) (hb : b < 2 ^ 32) : dmaAddr b = b := by
  obtain ⟨c, rfl⟩ := h8
  have hmask : DM_DTRAN_ADDR_WRITE_MASK.toNat = (2 ^ 29 - 1) <<< 3 := by decide
  have hc : 8 * c = c <<< 3 := by rw [Nat.shiftLeft_eq, Nat.mul_comm]
  unfold dmaAddr
  rw [UInt32.toNat_and, UInt32.toNat_ofNat_of_lt' (by simpa [UInt32.size] using hb), hmask, hc,
    ← Nat.shiftLeft_and_distrib, Nat.and_two_pow_sub_one_eq_mod, Nat.mod_eq_of_lt (by omega)]

theorem Addressable.addrOf_eq {mode : HalMemcardDataTransferMode} {b n : ℕ}
    (h : Addressable mode b n) (hn : n ≠ 0) : addrOf mode b = b := by
  unfold addrOf
  split_ifs with hdma
  · obtain ⟨h8, hb⟩ := h hdma
    unfold EMMC_BLOCK_LENGTH at hb
    exact dmaAddr_eq h8 (by omega)
  · rfl

theorem Addressable.split {mode : HalMemcardDataTransferMode} {b n k : ℕ}
    (h : Addressable mode b (n + k)) :
    Addressable mode b n ∧ Addressable mode (b + EMMC_BLOCK_LENGTH * n) k := by
  unfold Addressable EMMC_BLOCK_LENGTH at *
  constructor <;> intro hdma <;> have := h hdma <;> omega

/-- The loop moves what its chunks move. -/
theorem chunks_transfers {block : ℕ → UInt32 → UInt32 → Prog Drv EmmcErrorCode}
    {dir : HalMemcardOperation} {mode : HalMemcardDataTransferMode} {b : ℕ} {x r : UInt32}
    (hblock : ∀ {b x n s t}, (block b x n).run s = (some .EMMC_SUCCESS, t) →
      Transferred dir s t (addrOf mode b) x.toNat n.toNat ∧
        x.toNat + n.toNat ≤ (s.card.sectors s.card.access).toNat)
    (h : (chunks block b x r).run s = (some .EMMC_SUCCESS, t)) (hb : Addressable mode b r.toNat) :
    Transferred dir s t b x.toNat r.toNat := by
  induction b, x, r using chunks.induct generalizing s with
  | case1 b x =>
    rw [chunks, if_pos rfl] at h
    obtain rfl := congrArg Prod.snd h
    exact Transferred.zero dir s b x.toNat
  | case2 b x r hr n =>
    rename_i ih
    have hpos : r.toNat ≠ 0 := fun h0 => hr (UInt32.toNat_inj.mp h0)
    have hn : n.toNat = min r.toNat 0xFFFF := toNat_minEmmc r EMMC_RW_SECTOR_COUNT_MAX
    have hsub : (r - n).toNat = r.toNat - 0xFFFF := toNat_sub_minEmmc r EMMC_RW_SECTOR_COUNT_MAX
    rw [chunks, if_neg hr] at h
    change (block b x n >>= _).run s = _ at h
    have hsum : r.toNat = n.toNat + (r - n).toNat := by omega
    obtain ⟨u, hu, h⟩ := run_checked h
    obtain ⟨htr, hin⟩ := hblock hu
    rw [hsum] at hb
    obtain ⟨hb1, hb2⟩ := hb.split
    -- a chunk that has been moved does not reach the end of the sector numbers
    have hx : (x + n).toNat = x.toNat + n.toNat := by
      have := (s.card.sectors s.card.access).toNat_lt
      rw [UInt32.toNat_add, Nat.mod_eq_of_lt (by omega)]
    have hnext : b + 4 * (EMMC_BLOCK_LENGTH_DW * n.toNat) = b + EMMC_BLOCK_LENGTH * n.toNat := by
      unfold EMMC_BLOCK_LENGTH_DW EMMC_BLOCK_LENGTH
      omega
    rw [hnext] at h ih
    rw [hb1.addrOf_eq (by omega)] at htr
    have hrest := ih h hb2
    rw [hx] at hrest
    rw [hsum]
    exact htr.append hrest

/-! ## A command layer that succeeds -/

/-- The command is performed, the card is ready and in its transfer state, and every block of a
chunk comes. -/
def Outcome.Performs (o : Outcome) : Prop :=
  ∃ status v l, o = .done status (v :: l) ∧ status &&& EMMC_R1_READY ≠ 0 ∧
    (status &&& EMMC_R1_STATE_MASK) >>> EMMC_R1_STATE_SHIFT = EMMC_R1_STATE_TRAN ∧ Polls 0xFFFF l

theorem pioPhase_done (ready : UInt32) {v : UInt32} {l : List UInt32} (fifo : List UInt64)
    (hbuff : s.mmc.buffAddressVirtual ≠ 0) (hsize : s.mmc.remainSize ≠ 0)
    (htrans : ∀ m : Mmc, m.cmdInfo = s.mmc.cmdInfo → m.fifo = fifo → m.input = l →
      ∃ u, (transWords (s.mmc.remainSize >>> 3).toNat 0 s.mmc.buffAddressVirtual).run m =
        (some .EMMC_SUCCESS, u)) :
    ∃ t, (pioPhase ready (v :: l) fifo).run s = (some true, t) := by
  obtain ⟨start, hstart⟩ : ∃ start : Mmc, start = { s.mmc with
    input := v :: l, fifo := fifo, sent := [], duringTransfer := true, forceTerminate := false } :=
    ⟨_, rfl⟩
  obtain ⟨u, hu⟩ := htrans { start with
    input := l, reg := Function.update start.reg .SD_INFO2 (v &&& ~~~ready) }
    (by rw [hstart]) (by rw [hstart]) rfl
  have hforce : u.forceTerminate = start.forceTerminate := by
    obtain ⟨_, _, _, _, _, rfl⟩ := sameObj_of_run (transWords_keeps _ _ _) hu
    rfl
  obtain ⟨m', hm', hf⟩ := run_pioTransfer ready (m := start) (v := v) (l := l)
    (by rw [hstart]) (by rw [hstart]; exact hbuff) (by rw [hstart]) (by rw [hstart]; exact hsize)
    (by rw [hstart] at hu ⊢; exact hu) hforce
  rw [hstart] at hm' hf
  unfold pioPhase
  rw [run_bind_of_some (onMmc_of_some (run_modify _ _)), run_bind_of_some (onMmc_of_some hm'),
    run_bind_get, run_bind_of_some (onMmc_of_some (run_modify _ _))]
  dsimp only
  rw [hf]
  exact ⟨_, rfl⟩

theorem readPhase_done {v : UInt32} {l : List UInt32} {src : Mem} {off n : ℕ}
    (hdir : s.mmc.cmdInfo.dir = .HAL_MEMCARD_READ) (hbuff : s.mmc.buffAddressVirtual ≠ 0)
    (hn : n ≤ 0xFFFF) (hsize : s.mmc.remainSize ≠ 0)
    (hwords : (s.mmc.remainSize >>> 3).toNat = EMMC_BLOCK_LENGTH * n / 8) (hpolls : Polls 0xFFFF l) :
    ∃ t, (readPhase (v :: l) src off (EMMC_BLOCK_LENGTH * n)).run s = (some .EMMC_SUCCESS, t) := by
  unfold readPhase
  rw [run_bind_get, run_ite]
  split_ifs
  · exact ⟨_, rfl⟩
  · obtain ⟨t, ht⟩ := pioPhase_done SD_INFO2_BRE (v := v) (l := l)
      (wordsOf src off (EMMC_BLOCK_LENGTH * n / 8)) hbuff hsize fun m hcmd hfifo hinput => by
        rw [hwords]
        refine transWords_polls (hcmd ▸ hdir) (by rw [hfifo, length_wordsOf]) (hinput ▸ hpolls) ?_
        unfold EMMC_BLOCK_LENGTH
        omega
    rw [run_bind_of_some ht]
    exact ⟨t, rfl⟩

theorem writePhase_done {v : UInt32} {l : List UInt32} {off n : ℕ}
    (hdir : s.mmc.cmdInfo.dir = .HAL_MEMCARD_WRITE) (hbuff : s.mmc.buffAddressVirtual ≠ 0)
    (hsize : s.mmc.remainSize ≠ 0) :
    ∃ t, (writePhase (v :: l) off n).run s = (some .EMMC_SUCCESS, t) := by
  unfold writePhase
  rw [run_bind_get, run_ite]
  split_ifs
  · exact ⟨_, rfl⟩
  · obtain ⟨t, ht⟩ := pioPhase_done SD_INFO2_BWE (v := v) (l := l) [] hbuff
      hsize fun m hcmd _ _ => ⟨_, transWords_write _ _ _ (hcmd ▸ hdir)⟩
    rw [run_bind_of_some ht]
    exact ⟨_, rfl⟩

theorem run_checked_done {y f : Prog Drv EmmcErrorCode} {u : Drv}
    (h : y.run s = (some .EMMC_SUCCESS, u)) : (do
      let result ← y
      if result ≠ .EMMC_SUCCESS then
        return result
      else
        f : Prog Drv EmmcErrorCode).run s = f.run u := by
  rw [run_bind_of_some h]
  rfl

section done

variable {funcNo : ℕ} {countArg : UInt32 → UInt32} {dir : HalMemcardOperation}
  {mode : HalMemcardDataTransferMode} {b : ℕ} {x n : UInt32}

theorem perform_done {u : Drv} (status : UInt32) {v : UInt32} {l : List UInt32}
    (hu : Prepared s (.ofDir dir) dir mode b x n u) (hpos : n ≠ 0)
    (hn : n ≤ EMMC_RW_SECTOR_COUNT_MAX) (hb : b ≠ 0)
    (hin : x.toNat + n.toNat ≤ (s.card.sectors s.card.access).toNat) (hpolls : Polls 0xFFFF l) :
    ∃ t, (perform status (v :: l)).run u = (some .EMMC_SUCCESS, t) := by
  have hle : n.toNat ≤ 0xFFFF := UInt32.le_iff_toNat_le.mp hn
  have hpos' : n.toNat ≠ 0 := fun h0 => hpos (UInt32.toNat_inj.mp h0)
  have hbuff : (u.answered status).mmc.buffAddressVirtual ≠ 0 := by
    change u.mmc.buffAddressVirtual ≠ 0
    rwa [hu.buff]
  have hwords : (u.mmc.remainSize >>> 3).toNat = EMMC_BLOCK_LENGTH * n.toNat / 8 := by
    rw [hu.size, toNat_size hn]
  have hsize : u.mmc.remainSize ≠ 0 := by
    intro h0
    rw [h0, UInt32.zero_shiftRight, UInt32.toNat_zero] at hwords
    unfold EMMC_BLOCK_LENGTH at hwords
    omega
  have hcount : (u.answered status).card.blockCount = (u.answered status).secCnt := by
    change u.card.blockCount = u.secCnt
    rw [hu.card, hu.secCnt]
  have hin' : (u.answered status).mmc.cmdInfo.arg.toNat + (u.answered status).secCnt.toNat ≤
      ((u.answered status).card.sectors (u.answered status).card.access).toNat := by
    change u.mmc.cmdInfo.arg.toNat + u.secCnt.toNat ≤ (u.card.sectors u.card.access).toNat
    rw [hu.arg, hu.secCnt, hu.card]
    exact hin
  have hcnt : (u.answered status).secCnt = n := hu.secCnt
  cases dir with
  | HAL_MEMCARD_READ =>
    rw [perform_eq .CMD18_READ_MULTIPLE_BLOCK hu.command]
    dsimp only
    rw [run_dataCommand hcount hin', hcnt]
    exact readPhase_done hu.dir hbuff hle hsize hwords hpolls
  | HAL_MEMCARD_WRITE =>
    rw [perform_eq .CMD25_WRITE_MULTIPLE_BLOCK hu.command]
    dsimp only
    rw [run_dataCommand hcount hin', hcnt]
    exact writePhase_done hu.dir hbuff hsize

theorem checkCard_done (hready : s.r1CardStatus &&& EMMC_R1_READY ≠ 0)
    (hstate : s.mmc.currentState = EMMC_R1_STATE_TRAN) :
    (checkCard funcNo).run s = (some .EMMC_SUCCESS, s) := by
  unfold checkCard
  rw [run_bind_get, run_ite, if_neg hready, run_ite, if_neg (not_not.mpr hstate)]
  rfl

/-- The data command and what follows it. -/
theorem blockData_done {u : Drv} (hs : ∀ k, (s.outcomes k).Performs)
    (hu : Prepared s (.ofDir dir) dir mode b x n u) (hpos : n ≠ 0)
    (hn : n ≤ EMMC_RW_SECTOR_COUNT_MAX) (hb : b ≠ 0)
    (hin : x.toNat + n.toNat ≤ (s.card.sectors s.card.access).toNat) :
    ∃ t, (do
      let result ← execCmd
      if result ≠ .EMMC_SUCCESS then
        return result
      else
        emmcMakeNontransCmd .CMD13_SEND_STATUS (EMMC_RCA <<< 16)
        let result ← execCmd
        if result ≠ .EMMC_SUCCESS then
          return result
        else
          checkCard funcNo : Prog Drv EmmcErrorCode).run u = (some .EMMC_SUCCESS, t) := by
  have hu' : Prepared s (.ofDir dir) dir mode b x n { u with pos := u.pos + 1 } :=
    ⟨hu.mount, hu.outcomes, hu.moved, hu.card, hu.command, hu.secCnt, hu.mem, hu.arg, hu.dir,
      hu.buff, hu.size, hu.mode⟩
  obtain ⟨status, v, l, ho, -, -, hpolls⟩ := hs u.pos
  obtain ⟨w, hw⟩ := perform_done status (v := v) hu' hpos hn hb hin hpolls
  obtain ⟨htr, -⟩ := perform_transfers hu' hn hw
  rw [← hu.outcomes] at ho
  rw [run_checked_done ((run_execCmd ho).trans hw)]
  unfold emmcMakeNontransCmd
  rw [run_bind_modify]
  obtain ⟨status, v, l, ho, hready, hstate, -⟩ := hs w.pos
  rw [← htr.outcomes] at ho
  have h13 := run_execCmd (s := w.withCmd .CMD13_SEND_STATUS (EMMC_RCA <<< 16)) ho
  rw [perform_eq .CMD13_SEND_STATUS rfl] at h13
  rw [run_checked_done h13]
  exact ⟨_, checkCard_done hready hstate⟩

theorem multipleBlock_done (hs : ∀ k, (s.outcomes k).Performs)
    (harg : countArg n &&& 0xFFFF = n) (hpos : n ≠ 0) (hn : n ≤ EMMC_RW_SECTOR_COUNT_MAX)
    (hb : b ≠ 0) (hin : x.toNat + n.toNat ≤ (s.card.sectors s.card.access).toNat) :
    ∃ t, (multipleBlock funcNo countArg (.ofDir dir) dir mode b x n).run s =
      (some .EMMC_SUCCESS, t) := by
  have hcard : ∀ c : Card, { c with blockCount := countArg n &&& 0xFFFF } =
      { c with blockCount := n } := fun c => by rw [harg]
  unfold multipleBlock
  rw [run_ite, if_neg (not_or.mpr ⟨UInt32.not_lt.mpr hn, hpos⟩)]
  obtain ⟨status1, v1, l1, ho, -, -, -⟩ := hs s.pos
  have h1 := run_execCmd (s := s.withCmd .CMD23_SET_BLOCK_COUNT (countArg n)) ho
  rw [perform_eq .CMD23_SET_BLOCK_COUNT rfl] at h1
  dsimp only at h1
  rw [run_bind_modify] at h1
  unfold emmcMakeNontransCmd emmcMakeTransCmd emmcMakeNontransCmd setr32
  rw [run_bind_modify, run_checked_done h1, run_bind_modify,
    run_bind_of_some (onMmc_of_some (run_modify _ _)),
    run_bind_of_some (onMmc_of_some (run_modify _ _)), bind_assoc, run_bind_modify, run_bind_modify]
  exact blockData_done hs ⟨rfl, rfl, rfl, hcard s.card, rfl, rfl, rfl, rfl, rfl, rfl, rfl, rfl⟩ hpos
    hn hb hin

end done

/-- The loop comes to its end when its chunks do. -/
theorem chunks_done {block : ℕ → UInt32 → UInt32 → Prog Drv EmmcErrorCode}
    (dir : HalMemcardOperation) (mode : HalMemcardDataTransferMode) {b : ℕ} {x r : UInt32}
    (hblock : ∀ {b x n s t}, (block b x n).run s = (some .EMMC_SUCCESS, t) →
      Transferred dir s t (addrOf mode b) x.toNat n.toNat ∧
        x.toNat + n.toNat ≤ (s.card.sectors s.card.access).toNat)
    (hdone : ∀ {b x n} {s : Drv}, (∀ k, (s.outcomes k).Performs) → n ≠ 0 →
      n ≤ EMMC_RW_SECTOR_COUNT_MAX → b ≠ 0 →
      x.toNat + n.toNat ≤ (s.card.sectors s.card.access).toNat →
      ∃ t, (block b x n).run s = (some .EMMC_SUCCESS, t))
    (hs : ∀ k, (s.outcomes k).Performs) (hb : b ≠ 0)
    (hin : x.toNat + r.toNat ≤ (s.card.sectors s.card.access).toNat) :
    ∃ t, (chunks block b x r).run s = (some .EMMC_SUCCESS, t) := by
  induction b, x, r using chunks.induct generalizing s with
  | case1 b x =>
    rw [chunks, if_pos rfl]
    exact ⟨s, rfl⟩
  | case2 b x r hr n =>
    rename_i ih
    have hpos : r.toNat ≠ 0 := fun h0 => hr (UInt32.toNat_inj.mp h0)
    have hn : n.toNat = min r.toNat 0xFFFF := toNat_minEmmc r EMMC_RW_SECTOR_COUNT_MAX
    have hsub : (r - n).toNat = r.toNat - 0xFFFF := toNat_sub_minEmmc r EMMC_RW_SECTOR_COUNT_MAX
    have hn0 : n ≠ 0 := by
      intro h0
      rw [h0, UInt32.toNat_zero] at hn
      omega
    have hle : n ≤ EMMC_RW_SECTOR_COUNT_MAX := by
      rw [UInt32.le_iff_toNat_le]
      exact hn ▸ Nat.min_le_right _ _
    have hfit : x.toNat + n.toNat ≤ (s.card.sectors s.card.access).toNat := by omega
    obtain ⟨u, hu⟩ := hdone hs hn0 hle hb hfit
    obtain ⟨htr, -⟩ := hblock hu
    have hx : (x + n).toNat = x.toNat + n.toNat := by
      have := (s.card.sectors s.card.access).toNat_lt
      rw [UInt32.toNat_add, Nat.mod_eq_of_lt (by omega)]
    have haccess : u.card.access = s.card.access := by
      unfold Card.access
      rw [htr.extCsd]
    rw [chunks, if_neg hr]
    change ∃ t, (block b x n >>= _).run s = (_, t)
    rw [run_checked_done hu]
    refine ih (htr.outcomes ▸ hs) (by omega) ?_
    rw [hx, hsub, htr.sectors, haccess]
    omega

/-! ## The sector functions -/

section sectors

variable {funcNo b : ℕ} {x count flags : UInt32}

def modeOf (featureFlags : UInt32) : HalMemcardDataTransferMode :=
  if featureFlags &&& LOADIMAGE_FLAGS_DMA_ENABLE ≠ 0 then .HAL_MEMCARD_DMA else .HAL_MEMCARD_NOT_DMA

theorem rwSector_success
    {block : HalMemcardDataTransferMode → ℕ → UInt32 → UInt32 → Prog Drv EmmcErrorCode}
    (h : (rwSector funcNo block b x count flags).run s = (some .EMMC_SUCCESS, t)) :
    (chunks (block (modeOf flags)) b x count).run s = (some .EMMC_SUCCESS, t) := by
  unfold rwSector at h
  rw [run_ite] at h
  by_cases hcount : count = 0
  · rw [if_pos hcount] at h
    cases congrArg Prod.fst h
  · rw [if_neg hcount, run_bind_get, run_ite] at h
    by_cases hmount : s.mount = false
    · rw [if_pos hmount] at h
      cases congrArg Prod.fst h
    · rw [if_neg hmount] at h
      exact h

theorem run_rwSector
    {block : HalMemcardDataTransferMode → ℕ → UInt32 → UInt32 → Prog Drv EmmcErrorCode}
    (hcount : count ≠ 0) (hmount : s.mount = true) :
    (rwSector funcNo block b x count flags).run s =
      (chunks (block (modeOf flags)) b x count).run s := by
  have hmount' : ¬ s.mount = false := by simp [hmount]
  unfold rwSector
  rw [run_ite, if_neg hcount, run_bind_get, run_ite, if_neg hmount']
  rfl

theorem readCount {n : UInt32} (hn : n ≤ EMMC_RW_SECTOR_COUNT_MAX) : n &&& 0xFFFF = n := by
  have hle : n.toNat ≤ 0xFFFF := UInt32.le_iff_toNat_le.mp hn
  apply UInt32.toNat_inj.mp
  rw [UInt32.toNat_and, show (0xFFFF : UInt32).toNat = 2 ^ 16 - 1 from rfl,
    Nat.and_two_pow_sub_one_eq_mod, Nat.mod_eq_of_lt (by omega)]

theorem writeCount {n : UInt32} (hn : n ≤ EMMC_RW_SECTOR_COUNT_MAX) :
    (0x80000000 ||| n) &&& 0xFFFF = n := by
  have hbit : (0x80000000 : UInt32).toNat &&& (0xFFFF : UInt32).toNat = 0 := by decide
  apply UInt32.toNat_inj.mp
  rw [UInt32.toNat_and, UInt32.toNat_or, Nat.and_or_distrib_right, hbit, Nat.zero_or,
    ← UInt32.toNat_and, readCount hn]

theorem emmcReadSector_transfers
    (h : (emmcReadSector b x count flags).run s = (some .EMMC_SUCCESS, t))
    (hb : Addressable (modeOf flags) b count.toNat) :
    Transferred .HAL_MEMCARD_READ s t b x.toNat count.toNat :=
  chunks_transfers (fun hrun => multipleBlock_transfers hrun readCount) (rwSector_success h) hb

theorem emmcWriteSector_transfers
    (h : (emmcWriteSector b x count flags).run s = (some .EMMC_SUCCESS, t))
    (hb : Addressable (modeOf flags) b count.toNat) :
    Transferred .HAL_MEMCARD_WRITE s t b x.toNat count.toNat :=
  chunks_transfers (fun hrun => multipleBlock_transfers hrun writeCount) (rwSector_success h) hb

theorem rwSector_done {countArg : UInt32 → UInt32} (dir : HalMemcardOperation)
    (harg : ∀ {n}, n ≤ EMMC_RW_SECTOR_COUNT_MAX → countArg n &&& 0xFFFF = n)
    (hs : ∀ k, (s.outcomes k).Performs) (hmount : s.mount = true) (hcount : count ≠ 0) (hb : b ≠ 0)
    (hin : x.toNat + count.toNat ≤ (s.card.sectors s.card.access).toNat) :
    ∃ t, (rwSector funcNo (multipleBlock funcNo countArg (.ofDir dir) dir) b x count flags).run s =
      (some .EMMC_SUCCESS, t) := by
  rw [run_rwSector hcount hmount]
  exact chunks_done dir (modeOf flags)
    (fun hrun => multipleBlock_transfers hrun harg)
    (fun hs hpos hn => multipleBlock_done hs (harg hn) hpos hn) hs hb hin

/-- What was written is read back. -/
theorem read_after_write {b' : ℕ} {u : Drv} {x n : ℕ}
    (hw : Transferred .HAL_MEMCARD_WRITE s t b x n)
    (hr : Transferred .HAL_MEMCARD_READ t u b' x n) :
    u.mmc.mem.read b' (EMMC_BLOCK_LENGTH * n) = s.mmc.mem.read b (EMMC_BLOCK_LENGTH * n) := by
  have haccess : t.card.access = s.card.access := by
    unfold Card.access
    rw [hw.extCsd]
  refine Mem.read_congr fun i hi => ?_
  rw [hr.mem]
  unfold memAfter
  dsimp only
  rw [Mem.copy_add _ _ _ _ _ _ hi, hw.part, haccess]
  unfold partAfter
  dsimp only
  rw [Function.update_self, Mem.copy_add _ _ _ _ _ _ hi]

end sectors

theorem polls_replicate (k : ℕ) : Polls k (List.replicate (2 * k) SD_INFO2_BRE) := by
  induction k with
  | zero => trivial
  | succ k ih => exact ⟨SD_INFO2_BRE, List.replicate (2 * k) SD_INFO2_BRE, rfl, ih⟩

/-- A mounted card of ones, with a memory of zeros, whose commands all succeed. -/
def onesCard : Drv where
  mmc := readStart []
  mount := true
  r1CardStatus := 0
  extCsdData := 0x10000
  secCnt := 0
  command := .CMD13_SEND_STATUS
  card := { part := fun _ _ => 1, sectors := fun _ => 100, extCsd := fun _ => 0, blockCount := 0 }
  outcomes := fun _ => .done 0x900 (SD_INFO2_BRE :: List.replicate (2 * 0xFFFF) SD_INFO2_BRE)
  pos := 0
  moved := []

theorem onesCard_performs (k : ℕ) : (onesCard.outcomes k).Performs :=
  ⟨0x900, SD_INFO2_BRE, List.replicate (2 * 0xFFFF) SD_INFO2_BRE, rfl, by decide, by decide,
    polls_replicate 0xFFFF⟩

/-- A range of one chunk. -/
theorem chunks_one {block : ℕ → UInt32 → UInt32 → Prog Drv EmmcErrorCode} {b : ℕ} {x n : UInt32}
    (hpos : n ≠ 0) (hn : n ≤ EMMC_RW_SECTOR_COUNT_MAX)
    (h : (block b x n).run s = (some .EMMC_SUCCESS, t)) :
    (chunks block b x n).run s = (some .EMMC_SUCCESS, t) := by
  have hmin : minEmmc n EMMC_RW_SECTOR_COUNT_MAX = n := by
    apply UInt32.toNat_inj.mp
    rw [toNat_minEmmc]
    exact Nat.min_eq_left (UInt32.le_iff_toNat_le.mp hn)
  rw [chunks, if_neg hpos, hmin]
  change (block b x n >>= _).run s = _
  rw [run_checked_done h, chunks, if_pos (UInt32.sub_self n)]
  rfl

end RCar.EmmcSector
