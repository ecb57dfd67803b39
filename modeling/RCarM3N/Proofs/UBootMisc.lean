import RCarM3N.Proofs.Misc

/-! The `misc` partition under U-Boot when every access succeeds: what the accesses of the A/B
flow read, and what they replace. -/

namespace RCar

namespace UBoot

variable {s s' t : State} {d d' : AvbABData} {v v' : MiscVirtABMsg}

/-- Every access succeeds, and a read moves at least the bytes of a message. -/
def AllOk (s : State) : Prop := ∀ n, (s.io n).ret = .ok ∧ MiscVirtABMsg.SIZE ≤ (s.io n).moved

def abData (s : State) : AvbABData := dataAt 0 s.misc

def virtMsg (s : State) : MiscVirtABMsg := msgAt 0 s.misc

/-- `s'` is `s` but for the A/B block, which is `d`, and the message, which is `v`. -/
structure Disk (s s' : State) (d : AvbABData) (v : MiscVirtABMsg) : Prop where
  misc : s'.misc = putMisc 0 s.misc d v
  io : s'.io = s.io

theorem Disk.abData_eq (h : Disk s s' d v) : abData s' = d := by
  rw [abData, h.misc, dataAt_putMisc]

theorem Disk.virtMsg_eq (h : Disk s s' d v) : virtMsg s' = v := by
  rw [virtMsg, h.misc, msgAt_putMisc]

theorem Disk.of_eq (hm : s'.misc = s.misc) (hio : s'.io = s.io) :
    Disk s s' (abData s) (virtMsg s) := by
  refine ⟨?_, hio⟩
  rw [hm, abData, virtMsg, putMisc_self]

theorem Disk.refl (s : State) : Disk s s (abData s) (virtMsg s) := .of_eq rfl rfl

theorem Disk.trans (h : Disk s t d v) (h' : Disk t s' d' v') : Disk s s' d' v' := by
  refine ⟨?_, h'.io.trans h.io⟩
  rw [h'.misc, h.misc, putMisc_putMisc]

theorem Disk.trans_data (h : Disk s t d v) (h' : Disk t s' d' (virtMsg t)) : Disk s s' d' v := by
  have := h.trans h'
  rwa [h.virtMsg_eq] at this

theorem Disk.trans_msg (h : Disk s t d v) (h' : Disk t s' (abData t) v') : Disk s s' d v' := by
  have := h.trans h'
  rwa [h.abData_eq] at this

theorem Disk.trans_eq (h : Disk s t d v) (hm : s'.misc = t.misc) (hio : s'.io = t.io) :
    Disk s s' d v :=
  ⟨hm.trans h.misc, hio.trans h.io⟩

theorem AllOk.of_disk (h : AllOk s) (hd : Disk s s' d v) : AllOk s' := by
  intro n
  rw [hd.io]
  exact h n

theorem run_access (s : State) :
    access.run s = (some (s.io s.pos), { s with pos := s.pos + 1 }) := rfl

theorem run_record (e : Event) (s : State) :
    (record e).run s = (some (), { s with log := s.log ++ [e] }) := rfl

theorem run_readFromPartition (h : AllOk s) (off : ℕ) {n : ℕ} (hn : n ≤ MiscVirtABMsg.SIZE) :
    (readFromPartition off n).run s =
      (some (.ok, n, Mem.copy (fun _ => 0) 0 s.misc off n), { s with pos := s.pos + 1 }) := by
  unfold readFromPartition
  rw [Prog.run_bind_of_some (run_access s), Prog.run_bind_get, (h s.pos).1,
    Nat.min_eq_right (hn.trans (h s.pos).2)]
  rfl

theorem run_writeToPartition (h : AllOk s) (off n : ℕ) (buffer : Mem) :
    (writeToPartition off n buffer).run s =
      (some (.ok, n), { s with pos := s.pos + 1, misc := s.misc.copy off buffer 0 n }) := by
  unfold writeToPartition
  rw [Prog.run_bind_of_some (run_access s), (h s.pos).1]
  rfl

theorem run_avbOpsAlloc (h : AllOk s) :
    avbOpsAlloc.run s = (some true, { s with pos := s.pos + 1 }) := by
  unfold avbOpsAlloc
  rw [Prog.run_bind_of_some (run_access s), (h s.pos).1]
  rfl

/-! ## The A/B block -/

/-- How many of `n` bytes a write stores. -/
def stored (a : Access) (n : ℕ) : ℕ := if a.ret = .ok then n else min a.moved n

/-- The answer of a write. -/
def writeResult (ret : IoResult) : IoResult :=
  if ret = .errorOom then .errorOom else if ret ≠ .ok then .errorIo else .ok

theorem writeResult_eq_ok {ret : IoResult} : writeResult ret = .ok ↔ ret = .ok := by
  cases ret <;> decide

/-- A write of the block, whatever becomes of the access. -/
theorem run_avbAbDataWrite_eq (s : State) (d : AvbABData) :
    (avbAbDataWrite d).run s = (some (writeResult (s.io s.pos).ret), { s with
      pos := s.pos + 1
      misc := s.misc.copy AB_METADATA_MISC_PARTITION_OFFSET d.sealed.mem 0
        (stored (s.io s.pos) AVB_AB_DATA_SIZE)
      log := s.log ++
        if 0 < stored (s.io s.pos) AVB_AB_DATA_SIZE then [.write d.sealed] else [] }) := by
  have hwrite : (writeToPartition AB_METADATA_MISC_PARTITION_OFFSET AVB_AB_DATA_SIZE
      d.sealed.mem).run s = (some ((s.io s.pos).ret, stored (s.io s.pos) AVB_AB_DATA_SIZE), { s with
        pos := s.pos + 1
        misc := s.misc.copy AB_METADATA_MISC_PARTITION_OFFSET d.sealed.mem 0
          (stored (s.io s.pos) AVB_AB_DATA_SIZE) }) := rfl
  unfold avbAbDataWrite
  rw [avbAbDataUpdateCrcAndByteswap_eq, Prog.run_bind_of_some hwrite]
  generalize stored (s.io s.pos) AVB_AB_DATA_SIZE = k
  by_cases hk : 0 < k
  · simp only [hk, if_true]
    rw [Prog.run_bind_of_some (run_record _ _)]
    cases (s.io s.pos).ret <;> rfl
  · simp only [hk, if_false, List.append_nil]
    cases (s.io s.pos).ret <;> rfl

theorem run_avbAbDataWrite (h : AllOk s) (d : AvbABData) :
    ∃ s', (avbAbDataWrite d).run s = (some .ok, s') ∧ Disk s s' d.sealed (virtMsg s) := by
  have hstored : stored (s.io s.pos) AVB_AB_DATA_SIZE = AVB_AB_DATA_SIZE := if_pos (h s.pos).1
  have hrun := run_avbAbDataWrite_eq s d
  rw [writeResult_eq_ok.mpr (h s.pos).1, hstored] at hrun
  refine ⟨_, hrun, ?_, rfl⟩
  rw [virtMsg, putMisc_data]
  rfl

/-- A write that succeeds stores the whole block. -/
theorem abData_of_write (hw : (avbAbDataWrite d).run s = (some .ok, s')) : abData s' = d.sealed := by
  rw [run_avbAbDataWrite_eq] at hw
  obtain rfl := congrArg Prod.snd hw
  have hret := writeResult_eq_ok.mp (Option.some.inj (congrArg Prod.fst hw))
  rw [stored, if_pos hret]
  exact AvbABData.ofMem_copy _ _ _

/-- What the block is in memory after it is read. -/
def decoded (d : AvbABData) : AvbABData := if d.Valid then d.hostOrder else avbAbDataInit

theorem sealed_decoded (d : AvbABData) : (decoded d).sealed = loaded d := by
  unfold decoded loaded
  split
  · rename_i h
    rw [AvbABData.sealed_hostOrder, h.sealed_eq]
  · rfl

theorem decoded_of_valid (h : d.Valid) : decoded d = d.hostOrder := if_pos h

@[simp] theorem slots_decoded (d : AvbABData) : (decoded d).slots = (loaded d).slots := by
  rw [← sealed_decoded, AvbABData.slots_sealed]

theorem valid_decoded (d : AvbABData) :
    (decoded d).magic = AVB_AB_MAGIC ∧ (decoded d).versionMajor ≤ AVB_AB_MAJOR_VERSION := by
  have h := valid_loaded d
  rw [← sealed_decoded] at h
  exact ⟨h.magic, h.version⟩

theorem ofMem_read (m : Mem) :
    AvbABData.ofMem (Mem.copy (fun _ => 0) 0 m AB_METADATA_MISC_PARTITION_OFFSET AVB_AB_DATA_SIZE) 0 =
      dataAt 0 m :=
  AvbABData.ofMem_congr fun i hi => Mem.copy_add _ 0 m _ 32 i hi

/-- A read of the block moves all of it. -/
def FullRead (s : State) : Prop := (s.io s.pos).ret = .ok ∧ AVB_AB_DATA_SIZE ≤ (s.io s.pos).moved

/-- The answer of a read that does not. -/
def readError (ret : IoResult) : IoResult := if ret = .errorOom then .errorOom else .errorIo

theorem readError_ne_ok (ret : IoResult) : readError ret ≠ .ok := by
  cases ret <;> decide

/-- A read that fails or is short leaves the caller's structure alone. -/
theorem run_avbAbDataRead_of_not_full (h : ¬ FullRead s) (d : AvbABData) :
    (avbAbDataRead d).run s =
      (some (readError (s.io s.pos).ret, d), { s with pos := s.pos + 1 }) := by
  have hread : (readFromPartition AB_METADATA_MISC_PARTITION_OFFSET AVB_AB_DATA_SIZE).run s =
      (some ((s.io s.pos).ret, min (s.io s.pos).moved AVB_AB_DATA_SIZE,
        Mem.copy (fun _ => 0) 0 s.misc AB_METADATA_MISC_PARTITION_OFFSET
          (min (s.io s.pos).moved AVB_AB_DATA_SIZE)), { s with pos := s.pos + 1 }) := rfl
  unfold avbAbDataRead readError
  rw [Prog.run_bind_of_some hread]
  by_cases hoom : (s.io s.pos).ret = .errorOom
  · simp only [hoom, if_true]
    rfl
  · have hshort : (s.io s.pos).ret ≠ .ok ∨ min (s.io s.pos).moved AVB_AB_DATA_SIZE ≠
        AVB_AB_DATA_SIZE := by
      by_contra hno
      obtain ⟨hret, hmin⟩ := not_or.mp hno
      refine h ⟨not_not.mp hret, ?_⟩
      rw [← not_not.mp hmin]
      exact min_le_left _ _
    simp only [hoom, if_false, if_pos hshort]
    rfl

/-- The state after a full read. -/
def afterRead (s : State) : State :=
  { s with pos := s.pos + 1, log := s.log ++ [.read (abData s)] }

/-- A full read decodes a valid block, or stores the default. -/
theorem run_avbAbDataRead_of_full (h : FullRead s) (d : AvbABData) :
    (avbAbDataRead d).run s =
      if (abData s).Valid then (some (.ok, (abData s).hostOrder), afterRead s)
      else (do return (← avbAbDataWrite avbAbDataInit, avbAbDataInit) : Prog State _).run
        (afterRead s) := by
  have hread : (readFromPartition AB_METADATA_MISC_PARTITION_OFFSET AVB_AB_DATA_SIZE).run s =
      (some (.ok, AVB_AB_DATA_SIZE, Mem.copy (fun _ => 0) 0 s.misc
        AB_METADATA_MISC_PARTITION_OFFSET AVB_AB_DATA_SIZE), { s with pos := s.pos + 1 }) := by
    unfold readFromPartition
    rw [Prog.run_bind_of_some (run_access s), Prog.run_bind_get, h.1, Nat.min_eq_right h.2]
    rfl
  unfold avbAbDataRead
  rw [Prog.run_bind_of_some hread]
  simp only [reduceCtorEq, if_false, ne_eq, not_true_eq_false, or_self, ofMem_read]
  rw [Prog.run_bind_of_some (run_record _ _), avbAbDataVerifyAndByteswap_eq]
  by_cases hv : (dataAt 0 s.misc).Valid
  · rw [if_pos hv, if_pos (show (abData s).Valid from hv)]
    rfl
  · rw [if_neg hv, if_neg (show ¬ (abData s).Valid from hv)]
    rfl

theorem run_avbAbDataRead (h : AllOk s) (d : AvbABData) :
    ∃ s', (avbAbDataRead d).run s = (some (.ok, decoded (abData s)), s') ∧
      Disk s s' (loaded (abData s)) (virtMsg s) := by
  have hfull : FullRead s := ⟨(h s.pos).1, Nat.le_trans (by decide) (h s.pos).2⟩
  have hdisk : Disk s (afterRead s) (abData s) (virtMsg s) := .of_eq rfl rfl
  rw [run_avbAbDataRead_of_full hfull]
  unfold decoded loaded
  by_cases hv : (abData s).Valid
  · rw [if_pos hv, if_pos hv, if_pos hv]
    exact ⟨afterRead s, rfl, hdisk⟩
  · obtain ⟨s', hwrite, hd⟩ := run_avbAbDataWrite (h.of_disk hdisk) avbAbDataInit
    rw [if_neg hv, if_neg hv, if_neg hv]
    exact ⟨s', Prog.run_bind_of_some hwrite _, hdisk.trans_data hd⟩

theorem run_saveMetadataIfChanged (h : AllOk s) {orig : AvbABData} (ho : abData s = orig.sealed)
    (d : AvbABData) :
    ∃ s', (saveMetadataIfChanged d orig).run s = (some .ok, s') ∧
      Disk s s' d.sealed (virtMsg s) := by
  unfold saveMetadataIfChanged
  by_cases hd : d = orig
  · rw [if_neg (not_not.mpr hd), hd, ← ho]
    exact ⟨s, rfl, Disk.refl s⟩
  · rw [if_pos hd]
    exact run_avbAbDataWrite h d

/-! ## The message -/

theorem ofMem_readMsg (m : Mem) :
    MiscVirtABMsg.ofMem (Mem.copy (fun _ => 0) 0 m SYSTEM_SPACE_OFFSET_IN_MISC MiscVirtABMsg.SIZE) 0 =
      msgAt 0 m :=
  MiscVirtABMsg.ofMem_congr fun i hi => Mem.copy_add _ 0 m _ 64 i hi

theorem run_readFromPart (h : AllOk s) (off : ℕ) {n : ℕ} (hn : n ≤ MiscVirtABMsg.SIZE) :
    (readFromPart n off).run s =
      (some (true, n, Mem.copy (fun _ => 0) 0 s.misc off n), { s with pos := s.pos + 2 }) := by
  have hread := run_readFromPartition (s := { s with pos := s.pos + 1 }) h off hn
  unfold readFromPart
  rw [Prog.run_bind_of_some (run_avbOpsAlloc h)]
  simp only [Bool.not_true, Bool.false_eq_true, if_false]
  rw [Prog.run_bind_of_some hread]
  rfl

theorem run_saveVirtualAbMsg (h : AllOk s) (hv : v.isValid = true) :
    ∃ s', (saveVirtualAbMsg v).run s = (some true, s') ∧ Disk s s' (abData s) v := by
  have hwrite := run_writeToPartition (s := { s with pos := s.pos + 1 }) h
    SYSTEM_SPACE_OFFSET_IN_MISC MiscVirtABMsg.SIZE v.mem
  refine ⟨{ s with
    pos := s.pos + 2
    misc := s.misc.copy SYSTEM_SPACE_OFFSET_IN_MISC v.mem 0 MiscVirtABMsg.SIZE }, ?_, ?_, rfl⟩
  · unfold saveVirtualAbMsg writeToPart
    rw [hv]
    simp only [Bool.not_true, Bool.false_eq_true, if_false]
    rw [Prog.run_bind_of_some (run_avbOpsAlloc h)]
    simp only [Bool.not_true, Bool.false_eq_true, if_false]
    rw [Prog.run_bind_of_some hwrite]
    rfl
  · rw [abData, putMisc_msg]
    rfl

/-! ## Devices -/

/-- A device whose `misc` holds `d` and `v`, and whose accesses end as `io` says. -/
def device (d : AvbABData) (v : MiscVirtABMsg) (io : ℕ → Access) : State where
  misc := putMisc 0 (fun _ => 0) d v
  io := io
  pos := 0
  rollback _ := 0
  log := []

/-- A whole access that succeeds. -/
def whole : Access := ⟨.ok, MiscVirtABMsg.SIZE⟩

theorem abData_device (d : AvbABData) (v : MiscVirtABMsg) (io : ℕ → Access) :
    abData (device d v io) = d :=
  dataAt_putMisc _ _ _ _

theorem virtMsg_device (d : AvbABData) (v : MiscVirtABMsg) (io : ℕ → Access) :
    virtMsg (device d v io) = v :=
  msgAt_putMisc _ _ _ _

theorem allOk_device (d : AvbABData) (v : MiscVirtABMsg) : AllOk (device d v fun _ => whole) :=
  fun _ => ⟨rfl, le_rfl⟩

/-- A new device: slots with all their tries, and accesses that succeed. -/
def newDevice : State :=
  device (blockOf ⟨15, 7, 0, 0⟩ ⟨14, 7, 0, 0⟩) (messageOf VIRTUAL_AB_NONE 0) fun _ => whole

end UBoot

end RCar
