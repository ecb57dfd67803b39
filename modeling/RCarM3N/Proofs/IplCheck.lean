import RCarM3N.Model.IplCheck
import RCarM3N.Proofs.Sha256Update

/-! When the check of the IPLs decides what it is meant to decide: the digests of the image
on the card, whatever an earlier image left in the load buffer. -/

namespace RCar.Bl2

variable {s : State} {img : Mem} {off p : ℕ}

/-- The parameters of the IPL at byte `off` of an image. -/
def iplParams (img : Mem) (off : ℕ) : IplParams := .ofMem img off

/-- The IPL at `off` has the SHA-256 that is stored before it. -/
def DigestMatches (img : Mem) (off : ℕ) : Prop :=
  (iplParams img off).digestType = SHA_256 ∧
    Sha256.hash (img.read (off + IPL_PARAMS_SIZE) (iplParams img off).fsize) =
      (iplParams img off).digest

instance : Decidable (DigestMatches img off) := inferInstanceAs (Decidable (_ ∧ _))

/-- The size is in the first block, and the blocks that are read hold the whole IPL. -/
def Covered (img : Mem) (off : ℕ) : Prop :=
  off % 512 + 8 ≤ 512 ∧ off % 512 + IPL_PARAMS_SIZE + (iplParams img off).fsize ≤
    512 * (((iplParams img off).fsize + 511) / 512 + 1)

/-- The transform is asked for no block at all. -/
def Hangs (img : Mem) (off : ℕ) : Prop :=
  (iplParams img off).digestType = SHA_256 ∧ 64 ≤ (iplParams img off).fsize ∧
    (iplParams img off).fsize < 128

instance : Decidable (Hangs img off) := inferInstanceAs (Decidable (_ ∧ _ ∧ _))

theorem IplParams.ofMem_congr {m m' : Mem} {a a' : ℕ}
    (h : ∀ i < IPL_PARAMS_SIZE, m (a + i) = m' (a' + i)) : ofMem m a = ofMem m' a' := by
  have hword : ∀ k, k + 4 ≤ IPL_PARAMS_SIZE → m.le32 (a + k) = m'.le32 (a' + k) := by
    intro k hk
    refine Mem.le32_congr fun i hi => ?_
    rw [Nat.add_assoc, Nat.add_assoc]
    exact h _ (by omega)
  unfold IplParams.ofMem
  rw [hword 4 (by decide), hword 40 (by decide)]
  congr 1
  refine Mem.read_congr fun i hi => ?_
  rw [Nat.add_assoc, Nat.add_assoc]
  refine h _ ?_
  unfold AVB_SHA256_DIGEST_SIZE at hi
  unfold IPL_PARAMS_SIZE
  omega

/-! ## One read -/

theorem run_readIplSector (blk : ℕ) {count : ℕ} (hsucc : s.outcomes s.pos = .success) (hc : count ≠ 0)
    (hfit : 512 * count ≤ IPL_BUFF_SIZE) :
    (readIplSector blk count).run s = (some true,
      { s with pos := s.pos + 1
               dram := s.dram.copy 0 (s.part s.sel) (512 * blk) (512 * count) }) := by
  have hread : (emmcReadSector s.dram blk count).run s =
      (some (true, s.dram.copy 0 (s.part s.sel) (512 * blk) (512 * count)),
        { s with pos := s.pos + 1 }) := by
    unfold emmcReadSector
    rw [if_neg hc, Prog.run_bind_get, Prog.run_bind_of_some (run_command s), hsucc]
    rfl
  unfold readIplSector
  rw [if_neg (by omega), Prog.run_bind_get, Prog.run_bind_of_some hread]
  rfl

theorem run_isHashOk {buf len : ℕ} {digest : List UInt8} {digestType : UInt32}
    (hfit : buf + len ≤ IPL_BUFF_SIZE) (hlen : len < 2 ^ 29) :
    (isHashOk buf len digest digestType).run s =
      if digestType = SHA_256 then
        (if 64 ≤ len ∧ len < 128 then none
          else some (decide (Sha256.hash (s.dram.read buf len) = digest)), s)
      else (some false, s) := by
  unfold isHashOk
  rw [Prog.run_ite]
  split
  · rw [Prog.run_bind_get, sha256_eq _ _ hfit (by decide) hlen]
    by_cases hmid : 64 ≤ len ∧ len < 128
    · rw [if_pos hmid, if_pos hmid]
      rfl
    · rw [if_neg hmid, if_neg hmid]
      rfl
  · rfl

/-! ## One IPL -/

theorem blocks_fit {f : ℕ} (hf : f < 2 ^ 29) : 512 * ((f + 511) / 512 + 1) ≤ IPL_BUFF_SIZE := by
  unfold IPL_BUFF_SIZE
  omega

/-- The check of an IPL reads it from the card alone. -/
theorem run_checkIpl (h0 : s.outcomes s.pos = .success) (h1 : s.outcomes (s.pos + 1) = .success)
    (himg : s.part s.sel = img) (hcov : Covered img off)
    (hlen : (iplParams img off).fsize < 2 ^ 29) :
    ∃ dram, (checkIpl off).run s =
      (if Hangs img off then none else some (decide (DigestMatches img off)),
        { s with pos := s.pos + 2, dram := dram }) := by
  obtain ⟨f, hf⟩ : ∃ f, (iplParams img off).fsize = f := ⟨_, rfl⟩
  obtain ⟨o, ho⟩ : ∃ o, off % 512 = o := ⟨_, rfl⟩
  obtain ⟨n, hn⟩ : ∃ n, (f + 511) / 512 + 1 = n := ⟨_, rfl⟩
  have hoff : 512 * (off / 512) + o = off := ho ▸ Nat.div_add_mod off 512
  obtain ⟨hhead, hbody⟩ := hcov
  rw [hf] at hlen
  rw [hf, ho, hn, IPL_PARAMS_SIZE] at hbody
  rw [ho] at hhead
  have hfit : 512 * n ≤ IPL_BUFF_SIZE := hn ▸ blocks_fit hlen
  -- the first read: the size
  obtain ⟨d1, hd1⟩ : ∃ d1, d1 = s.dram.copy 0 img (512 * addrToBlk off) (512 * 1) := ⟨_, rfl⟩
  have hread1 : (readIplSector (addrToBlk off) 1).run s =
      (some true, { s with pos := s.pos + 1, dram := d1 }) := by
    rw [run_readIplSector _ h0 one_ne_zero (by decide), himg, ← hd1]
  have hsize : (IplParams.ofMem d1 o).fsize = f := by
    rw [← hf]
    refine congrArg UInt32.toNat (Mem.le32_congr fun i hi => ?_)
    rw [hd1, Mem.copy_in _ _ _ _ _ _ (by omega) (by omega), addrToBlk]
    congr 1
    omega
  -- the second read: the parameters and the IPL
  obtain ⟨d2, hd2⟩ : ∃ d2, d2 = d1.copy 0 img (512 * addrToBlk off) (512 * n) := ⟨_, rfl⟩
  have hcount : addrToBlk ((f + EMMC_SECTOR_SIZE - 1) % 2 ^ 32) + 1 = n := by
    rw [EMMC_SECTOR_SIZE, addrToBlk, Nat.mod_eq_of_lt (by omega), ← hn]
    rfl
  have hread2 : (readIplSector (addrToBlk off) n).run { s with pos := s.pos + 1, dram := d1 } =
      (some true, { s with pos := s.pos + 2, dram := d2 }) := by
    rw [run_readIplSector _ h1 (by omega) hfit]
    simp only [himg, ← hd2]
  have hat : ∀ i, o + i < 512 * n → d2 (o + i) = img (off + i) := by
    intro i hi
    rw [hd2, Mem.copy_in _ _ _ _ _ _ (by omega) (by omega), addrToBlk]
    congr 1
    omega
  have hparams : IplParams.ofMem d2 o = iplParams img off :=
    IplParams.ofMem_congr fun i hi => hat i (by unfold IPL_PARAMS_SIZE at hi; omega)
  have hbytes : d2.read (o + IPL_PARAMS_SIZE) f = img.read (off + IPL_PARAMS_SIZE) f := by
    refine Mem.read_congr fun i hi => ?_
    rw [Nat.add_assoc, hat _ (by unfold IPL_PARAMS_SIZE; omega), Nat.add_assoc]
  have hend : o + IPL_PARAMS_SIZE + f ≤ IPL_BUFF_SIZE := hbody.trans hfit
  refine ⟨d2, ?_⟩
  unfold checkIpl
  rw [Prog.run_bind_of_some hread1, Prog.run_bind_get, show off % EMMC_SECTOR_SIZE = o from ho]
  simp only [hsize]
  rw [hcount, Prog.run_bind_of_some hread2, Prog.run_bind_get]
  simp only [hparams, hf]
  rw [run_isHashOk hend hlen, hbytes]
  by_cases ht : (iplParams img off).digestType = SHA_256
  · rw [if_pos ht]
    by_cases hmid : 64 ≤ f ∧ f < 128
    · rw [if_pos hmid, if_pos (show Hangs img off from ⟨ht, hf ▸ hmid⟩)]
    · rw [if_neg hmid, if_neg fun h : Hangs img off => hmid (hf ▸ h.2)]
      congr 2
      exact decide_eq_decide.mpr ⟨fun h => ⟨ht, hf ▸ h⟩, fun h => hf ▸ h.2⟩
  · rw [if_neg ht, if_neg fun h : Hangs img off => ht h.1,
      decide_eq_false fun h : DigestMatches img off => ht h.1]

/-! ## The loop -/

/-- The IPLs that are there. -/
def present (offs : List ℕ) : ℕ := offs.countP (0 < ·)

/-- What the loop needs of the storage and of the image. -/
structure LoopReady (img : Mem) (s : State) (offs : List ℕ) : Prop where
  image : s.part s.sel = img
  succeed : ∀ n < 2 * present offs, s.outcomes (s.pos + n) = .success
  covered : ∀ off ∈ offs, 0 < off → Covered img off ∧ (iplParams img off).fsize < 2 ^ 29

theorem LoopReady.absent {offs : List ℕ} (h : LoopReady img s (0 :: offs)) : LoopReady img s offs :=
  ⟨h.image, h.succeed, fun off ho => h.covered off (.tail _ ho)⟩

/-- The check of the first IPL, and the state in which the loop goes on. -/
theorem LoopReady.first {offs : List ℕ} (h : LoopReady img s (off :: offs)) (ho : 0 < off) :
    ∃ t, (checkIpl off).run s =
        (if Hangs img off then none else some (decide (DigestMatches img off)), t) ∧
      LoopReady img t offs := by
  have hcount : present (off :: offs) = present offs + 1 :=
    List.countP_cons_of_pos (decide_eq_true ho)
  have hsucc := h.succeed
  rw [hcount] at hsucc
  obtain ⟨hcov, hlen⟩ := h.covered off (.head _) ho
  obtain ⟨dram, hrun⟩ := run_checkIpl (hsucc 0 (by omega)) (hsucc 1 (by omega)) h.image hcov hlen
  refine ⟨_, hrun, h.image, fun n hn => ?_, fun off' ho' => h.covered off' (.tail _ ho')⟩
  have := hsucc (2 + n) (by omega)
  rwa [← Nat.add_assoc] at this

/-- The loop counts the IPLs that are there, and those of them that match. -/
theorem run_checkIpls {offs : List ℕ} (h : LoopReady img s offs)
    (hno : ∀ off ∈ offs, 0 < off → ¬ Hangs img off) (acc : ℕ × ℕ) :
    ∃ good bad t, (offs.foldlM checkIpls acc).run s =
        (some (acc.1 + good + bad, acc.2 + good), t) ∧
      (bad = 0 ↔ ∀ off ∈ offs, 0 < off → DigestMatches img off) := by
  induction offs generalizing s acc with
  | nil => exact ⟨0, 0, s, rfl, by simp⟩
  | cons off offs ih =>
    have hno' : ∀ o ∈ offs, 0 < o → ¬ Hangs img o := fun o ho => hno o (.tail _ ho)
    rw [List.foldlM_cons]
    rcases Nat.eq_zero_or_pos off with rfl | hpos
    · obtain ⟨good, bad, t, hrun, hbad⟩ := ih h.absent hno' acc
      exact ⟨good, bad, t, hrun, by simp [hbad]⟩
    · obtain ⟨u, hipl, hu⟩ := h.first hpos
      rw [if_neg (hno off (.head _) hpos)] at hipl
      by_cases hm : DigestMatches img off
      · obtain ⟨good, bad, t, hrun, hbad⟩ := ih hu hno' (acc.1 + 1, acc.2 + 1)
        have hstep : (checkIpls acc off).run s = (some (acc.1 + 1, acc.2 + 1), u) := by
          unfold checkIpls
          rw [if_pos hpos, Prog.run_bind_of_some hipl, decide_eq_true hm]
          rfl
        refine ⟨good + 1, bad, t, ?_, ?_⟩
        · rw [Prog.run_bind_of_some hstep, hrun]
          congr 3 <;> omega
        · simp [hbad, hm]
      · obtain ⟨good, bad, t, hrun, hbad⟩ := ih hu hno' (acc.1 + 1, acc.2)
        have hstep : (checkIpls acc off).run s = (some (acc.1 + 1, acc.2), u) := by
          unfold checkIpls
          rw [if_pos hpos, Prog.run_bind_of_some hipl, decide_eq_false hm]
          rfl
        refine ⟨good, bad + 1, t, ?_, ?_⟩
        · rw [Prog.run_bind_of_some hstep, hrun]
          congr 3
          omega
        · simp [hm, hpos]

/-- One IPL of an unlucky length, and the loop does not return. -/
theorem checkIpls_hangs {offs : List ℕ} (h : LoopReady img s offs)
    (hex : ∃ off ∈ offs, 0 < off ∧ Hangs img off) (acc : ℕ × ℕ) :
    ((offs.foldlM checkIpls acc).run s).1 = none := by
  induction offs generalizing s acc with
  | nil => simp at hex
  | cons off offs ih =>
    rw [List.foldlM_cons]
    rcases Nat.eq_zero_or_pos off with rfl | hpos
    · refine ih h.absent ?_ acc
      simpa using hex
    · obtain ⟨u, hipl, hu⟩ := h.first hpos
      by_cases hh : Hangs img off
      · rw [if_pos hh] at hipl
        have hstep : (checkIpls acc off).run s = (none, u) := by
          unfold checkIpls
          rw [if_pos hpos, Prog.run_bind_of_none hipl]
        rw [Prog.run_bind_of_none hstep]
      · rw [if_neg hh] at hipl
        have hex' : ∃ off ∈ offs, 0 < off ∧ Hangs img off := by
          obtain ⟨o, ho, h0, hho⟩ := hex
          rcases List.mem_cons.mp ho with rfl | ho
          · exact absurd hho hh
          · exact ⟨o, ho, h0, hho⟩
        obtain ⟨acc', hstep⟩ : ∃ acc', (checkIpls acc off).run s = (some acc', u) := by
          unfold checkIpls
          rw [if_pos hpos, Prog.run_bind_of_some hipl]
          split <;> exact ⟨_, rfl⟩
        rw [Prog.run_bind_of_some hstep]
        exact ih hu hex' acc'

/-! ## The check -/

/-- The offsets in the header of an image. -/
def iplOffsets (img : Mem) : List ℕ := (List.range MAX_IPLS).map (iplOffset img)

def HasMagic (img : Mem) : Prop :=
  strncmpEq IPL_EMMC_BOOT_MAGIC_SIZE img (cstring IPL_EMMC_BOOT_MAGIC) = true

instance : Decidable (HasMagic img) := inferInstanceAs (Decidable (_ = true))

/-- The accesses a check makes: a selection if need be, the header and two for each IPL. -/
def accesses (s : State) (p : ℕ) : ℕ :=
  (if s.sel = p then 0 else 1) + 1 + 2 * present (iplOffsets (s.part p))

/-- Every access of a check succeeds. -/
def AccessesSucceed (s : State) (p : ℕ) : Prop :=
  ∀ n < accesses s p, s.outcomes (s.pos + n) = .success

/-- Every IPL that is there has the digest that is stored before it. -/
def Intact (img : Mem) : Prop := ∀ off ∈ iplOffsets img, 0 < off → DigestMatches img off

/-- The check returns, and reports success exactly when all its reads succeeded and the
image on the card is intact. -/
def Decides (s : State) (p : ℕ) : Prop :=
  ∃ r t, (checkEmmcHash p).run s = (some r, t) ∧
    (r = 0 ↔ AccessesSucceed s p ∧ Intact (s.part p))

theorem strncmpEq_congr {n : ℕ} {m m' c : Mem} (h : ∀ i < n, m i = m' i) :
    strncmpEq n m c = strncmpEq n m' c := by
  induction n generalizing m m' c with
  | zero => rfl
  | succ n ih =>
    rw [strncmpEq, strncmpEq, h 0 (by omega), ih fun i hi => h (i + 1) (by omega)]

theorem iplOffsets_congr {m m' : Mem} (h : ∀ i < 28, m i = m' i) : iplOffsets m = iplOffsets m' := by
  unfold iplOffsets
  refine List.map_congr_left fun i hi => congrArg UInt32.toNat (Mem.le32_congr fun j hj => ?_)
  have := List.mem_range.mp hi
  unfold MAX_IPLS at this
  exact h _ (by omega)

theorem run_selectPartition (h : s.sel = p ∨ s.outcomes s.pos = .success) :
    (emmcSelectPartition p).run s =
      (some true, { s with sel := p, pos := s.pos + if s.sel = p then 0 else 1 }) := by
  unfold emmcSelectPartition
  rw [Prog.run_bind_get, Prog.run_ite]
  split
  · subst p
    rfl
  · rename_i hne
    rw [Prog.run_bind_of_some (run_command s), h.resolve_left hne]
    rfl

theorem copy_header (dram img : Mem) {i : ℕ} (hi : i < 512) :
    dram.copy 0 img (512 * 0) (512 * 1) i = img i := by
  rw [Mem.copy_in _ _ _ _ _ _ (by omega) (by omega)]
  congr 1
  omega

/-- Without the magic nothing is checked. -/
theorem checkEmmcHash_of_not_magic (hsel : s.sel = p ∨ s.outcomes s.pos = .success)
    (hread : s.outcomes (s.pos + if s.sel = p then 0 else 1) = .success)
    (hm : ¬ HasMagic (s.part p)) : ((checkEmmcHash p).run s).1 = some (-1) := by
  have hheader := run_readIplSector
    (s := { s with sel := p, pos := s.pos + if s.sel = p then 0 else 1 }) 0 hread
    one_ne_zero (by decide)
  have hmagic : strncmpEq IPL_EMMC_BOOT_MAGIC_SIZE
      (s.dram.copy 0 (s.part p) (512 * 0) (512 * 1)) (cstring IPL_EMMC_BOOT_MAGIC) = false := by
    rw [strncmpEq_congr fun i hi => copy_header _ _ (Nat.lt_trans hi (by decide))]
    exact Bool.eq_false_of_not_eq_true hm
  unfold checkEmmcHash
  rw [Prog.run_bind_of_some (run_selectPartition hsel)]
  simp only [Bool.not_true, Bool.false_eq_true, if_false]
  rw [Prog.run_bind_of_some hheader, Prog.run_bind_get]
  simp only [hmagic, Bool.not_false, if_true]
  rfl

/-- After the header is read, a check is its loop over the image on the card. -/
theorem run_checkEmmcHash (hacc : AccessesSucceed s p) (hmagic : HasMagic (s.part p))
    (hcov : ∀ off ∈ iplOffsets (s.part p), 0 < off →
      Covered (s.part p) off ∧ (iplParams (s.part p) off).fsize < 2 ^ 29) :
    ∃ t, LoopReady (s.part p) t (iplOffsets (s.part p)) ∧
      (checkEmmcHash p).run s =
        (do
          let (totalIpls, unpackedIpls) ← (iplOffsets (s.part p)).foldlM checkIpls (0, 0)
          return -((totalIpls : ℤ) - unpackedIpls)).run t := by
  obtain ⟨k, hk⟩ : ∃ k, (if s.sel = p then 0 else 1) = k := ⟨_, rfl⟩
  have hcount : accesses s p = k + 1 + 2 * present (iplOffsets (s.part p)) := by
    rw [accesses, hk]
  unfold AccessesSucceed at hacc
  rw [hcount] at hacc
  have hsel := run_selectPartition (s := s) (p := p) (by
    by_cases h : s.sel = p
    · exact .inl h
    · exact .inr (hacc 0 (by omega)))
  rw [hk] at hsel
  have hread := run_readIplSector (s := { s with sel := p, pos := s.pos + k }) 0
    (hacc k (by omega)) one_ne_zero (by decide)
  refine ⟨{ s with
    sel := p
    pos := s.pos + k + 1
    dram := s.dram.copy 0 (s.part p) (512 * 0) (512 * 1) }, ⟨rfl, fun n hn => ?_, hcov⟩, ?_⟩
  · have := hacc (k + 1 + n) (by omega)
    rwa [← Nat.add_assoc, ← Nat.add_assoc] at this
  · unfold checkEmmcHash
    rw [Prog.run_bind_of_some hsel]
    simp only [Bool.not_true, Bool.false_eq_true, if_false]
    rw [Prog.run_bind_of_some hread, Prog.run_bind_get]
    have h1 : strncmpEq IPL_EMMC_BOOT_MAGIC_SIZE
        (s.dram.copy 0 (s.part p) (512 * 0) (512 * 1)) (cstring IPL_EMMC_BOOT_MAGIC) = true := by
      rw [strncmpEq_congr fun i hi => copy_header _ _ (Nat.lt_trans hi (by decide))]
      exact hmagic
    have h2 := iplOffsets_congr fun i hi =>
      copy_header s.dram (s.part p) (Nat.lt_trans hi (by decide : 28 < 512))
    unfold iplOffsets at h2 ⊢
    simp only [h1, h2, Bool.not_true, Bool.false_eq_true, if_false]

/-- A boot partition has at most 255 units of 128 KiB. -/
def BOOT_PARTITION_MAX : ℕ := 255 * (128 * 1024)

/-- An image whose header has the magic and whose IPLs fit the partition. -/
structure Image (img : Mem) : Prop where
  magic : HasMagic img
  fits : ∀ off ∈ iplOffsets img, 0 < off →
    off + IPL_PARAMS_SIZE + (iplParams img off).fsize ≤ BOOT_PARTITION_MAX

/-- The card does not switch to the partition, and nothing is read. -/
def SelectionFails (s : State) (p : ℕ) : Prop := s.sel ≠ p ∧ s.outcomes s.pos ≠ .success

theorem decides_of_selectionFails (h : SelectionFails s p) : Decides s p := by
  obtain ⟨hne, hfail⟩ := h
  obtain ⟨moved, hmoved⟩ : ∃ moved, s.outcomes s.pos = .failure moved := by
    cases ho : s.outcomes s.pos with
    | success => exact absurd ho hfail
    | failure moved => exact ⟨moved, rfl⟩
  have hsel : (emmcSelectPartition p).run s = (some false, { s with pos := s.pos + 1 }) := by
    unfold emmcSelectPartition
    rw [Prog.run_bind_get, if_neg hne, Prog.run_bind_of_some (run_command s), hmoved]
    rfl
  refine ⟨-1, { s with pos := s.pos + 1 }, ?_, fun h => by omega, fun h => ?_⟩
  · unfold checkEmmcHash
    rw [Prog.run_bind_of_some hsel]
    rfl
  · refine absurd (h.1 0 ?_) hfail
    unfold accesses
    omega

/-- When the accesses succeed and the blocks that are read hold every IPL, the check decides
the integrity of the image exactly if no IPL has one of the lengths from 64 to 127. -/
theorem decides_iff_of_accessesSucceed (himg : Image (s.part p)) (hacc : AccessesSucceed s p)
    (hcov : ∀ off ∈ iplOffsets (s.part p), 0 < off → Covered (s.part p) off) :
    Decides s p ↔ ∀ off ∈ iplOffsets (s.part p), 0 < off → ¬ Hangs (s.part p) off := by
  have hlen : ∀ off ∈ iplOffsets (s.part p), 0 < off → (iplParams (s.part p) off).fsize < 2 ^ 29 := by
    intro off ho h0
    have := himg.fits off ho h0
    unfold BOOT_PARTITION_MAX at this
    omega
  obtain ⟨t, ht, hrun⟩ := run_checkEmmcHash hacc himg.magic
    fun off ho h0 => ⟨hcov off ho h0, hlen off ho h0⟩
  constructor
  · intro ⟨r, u, hr, _⟩ off ho h0 hh
    obtain ⟨u', hnone⟩ : ∃ u', ((iplOffsets (s.part p)).foldlM checkIpls (0, 0)).run t =
        (none, u') := ⟨_, Prod.ext (checkIpls_hangs ht ⟨off, ho, h0, hh⟩ (0, 0)) rfl⟩
    rw [hrun, Prog.run_bind_of_none hnone] at hr
    cases hr
  · intro hno
    obtain ⟨good, bad, u, hloop, hbad⟩ := run_checkIpls ht hno (0, 0)
    refine ⟨-bad, u, ?_, ?_⟩
    · rw [hrun, Prog.run_bind_of_some hloop]
      simp only [Nat.zero_add, Prog.run_pure, Prod.mk.injEq, Option.some.injEq, and_true]
      omega
    · rw [neg_eq_zero, Int.natCast_eq_zero, hbad]
      exact ⟨fun h => ⟨hacc, h⟩, fun h => h.2⟩

/-- The check decides the integrity of an image when the card does not switch to its
partition, and when every access succeeds and the blocks that are read hold every IPL; in
that case exactly if no IPL has one of the lengths from 64 to 127. -/
theorem check_decides (himg : Image (s.part p)) (h : SelectionFails s p ∨ (AccessesSucceed s p ∧
    ∀ off ∈ iplOffsets (s.part p), 0 < off → Covered (s.part p) off)) :
    Decides s p ↔ SelectionFails s p ∨
      ∀ off ∈ iplOffsets (s.part p), 0 < off → ¬ Hangs (s.part p) off := by
  rcases h with hsel | ⟨hacc, hcov⟩
  · exact iff_of_true (decides_of_selectionFails hsel) (.inl hsel)
  · rw [decides_iff_of_accessesSucceed himg hacc hcov, or_iff_right]
    intro hsel
    refine hsel.2 (hacc 0 ?_)
    unfold accesses
    omega

/-! ## Images -/

/-- A header with one IPL at byte `256 * offset`, and the bytes of `l` from the second block on. -/
def imageOf (offset : UInt8) (l : List UInt8) : Mem := fun a =>
  if a < 8 then cstring IPL_EMMC_BOOT_MAGIC a
  else if a = 13 then offset
  else if 512 ≤ a then l.getD (a - 512) 0
  else 0

/-- An IPL of three bytes with their digest. -/
def abcImage : Mem := imageOf 2
  ([0, 0, 0, 0, 3, 0, 0, 0] ++ List.replicate 32 0 ++ [0xF2, 0, 0, 0] ++
    Sha256.hash [0x61, 0x62, 0x63] ++ List.replicate 288 0 ++ [0x61, 0x62, 0x63])

/-- An IPL of no bytes and without a digest. -/
def brokenImage : Mem := imageOf 2 []

/-- An image without IPLs. -/
def emptyImage : Mem := imageOf 0 []

/-- A controller with `img` in its first boot partition and `dram` in the load buffer. -/
def stateOf (img dram : Mem) (outcomes : ℕ → Outcome) : State where
  part := Function.update (fun _ _ => 0) PARTITION_ID_BOOT_1 img
  sel := PARTITION_ID_USER
  outcomes := outcomes
  pos := 0
  dram := dram
  stack _ := 0
  partitionAccess := 0
  bootPartitionEn := 0
  bootPartition := 0
  avbAbFlowSuccess := 0

theorem part_stateOf (img dram : Mem) (outcomes : ℕ → Outcome) :
    (stateOf img dram outcomes).part MMC_BOOT0 = img := by
  simp [stateOf, MMC_BOOT0, PARTITION_ID_BOOT_1]

theorem forall_iplOffsets_of_eq {x : ℕ} (h : iplOffsets img = [x, 0, 0, 0]) {P : ℕ → Prop}
    (hx : P x) : ∀ off ∈ iplOffsets img, 0 < off → P off := by
  intro off ho h0
  rw [h] at ho
  simp only [List.mem_cons, h0.ne', List.not_mem_nil, or_false] at ho
  exact ho ▸ hx

theorem iplOffsets_abcImage : iplOffsets abcImage = [512, 0, 0, 0] := by decide +kernel

theorem check_decides_abc :
    Decides (stateOf abcImage (fun _ => 0) fun _ => .success) MMC_BOOT0 := by
  have hsize : (iplParams abcImage 512).fsize = 3 := by decide +kernel
  have hpart := part_stateOf abcImage (fun _ => 0) fun _ => .success
  refine (check_decides ⟨?_, ?_⟩ (.inr ⟨fun _ _ => rfl, ?_⟩)).mpr (.inr ?_) <;> rw [hpart]
  · decide +kernel
  · refine forall_iplOffsets_of_eq iplOffsets_abcImage ?_
    rw [hsize]
    decide
  · refine forall_iplOffsets_of_eq iplOffsets_abcImage ?_
    unfold Covered
    rw [hsize]
    decide
  · refine forall_iplOffsets_of_eq iplOffsets_abcImage fun h => ?_
    have := h.2.1
    rw [hsize] at this
    omega

theorem iplOffsets_brokenImage : iplOffsets brokenImage = [512, 0, 0, 0] := by decide +kernel

/-- The card fails after the selection, and the header of an empty image is in the buffer. -/
def staleState : State :=
  stateOf brokenImage emptyImage fun n => if n = 0 then .success else .failure 0

theorem check_reads_stale_buffer :
    Image (staleState.part MMC_BOOT0) ∧ ¬ Intact (staleState.part MMC_BOOT0) ∧
      ((checkEmmcHash MMC_BOOT0).run staleState).1 = some 0 ∧ ¬ Decides staleState MMC_BOOT0 := by
  have hpart : staleState.part MMC_BOOT0 = brokenImage := part_stateOf _ _ _
  have hrun : ((checkEmmcHash MMC_BOOT0).run staleState).1 = some 0 := by decide +kernel
  have hbroken : ¬ Intact brokenImage := by
    intro h
    have := (h 512 (by rw [iplOffsets_brokenImage]; simp) (by omega)).1
    revert this
    decide +kernel
  refine ⟨?_, by rwa [hpart], hrun, fun ⟨r, t, hr, hiff⟩ => ?_⟩
  · rw [hpart]
    refine ⟨by decide +kernel, forall_iplOffsets_of_eq iplOffsets_brokenImage ?_⟩
    decide +kernel
  · rw [hr] at hrun
    have hintact := (hiff.mp (Option.some.inj hrun)).2
    rw [hpart] at hintact
    exact hbroken hintact

end RCar.Bl2
