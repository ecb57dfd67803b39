import RCarM3N.Proofs.SlotVerify

/-! The whole verification of a slot: what stands behind the data that it hands over, and that it returns. -/

namespace RCar.SlotVerify

open UBoot (IoResult VerifyResult AVB_MAX_NUMBER_OF_ROLLBACK_INDEX_LOCATIONS)
open AvbRsa VbMeta

variable {sha : Hashes} {ops : AvbOps} {requestedPartitions : List (List UInt8)} {allow : Bool} {abSuffix : List UInt8}

/-! ## The chain of trust -/

/-- The main image and the images that it vouches for, as they stand behind the data of a slot. -/
structure Chain (sha : Hashes) (ops : AvbOps) (requestedPartitions : List (List UInt8)) (allow : Bool) (main : Image)
    (chained : List Image) (d : AvbSlotVerifyData) : Prop where
  images : d.vbmetaImages = (main :: chained).map Image.entry
  verified : main.Verified sha ops
  trusted : main.Trusted ops
  notRolledBack : main.NotRolledBack ops 0
  delegates : ∀ c ∈ chained, ∃ o desc, Delegates sha ops main c o desc
  rollback : ∀ l, d.rollbackIndexes l ≠ 0 → ∃ i ∈ main :: chained, l < AVB_MAX_NUMBER_OF_ROLLBACK_INDEX_LOCATIONS ∧
    i.header.rollbackIndex = d.rollbackIndexes l ∧ i.NotRolledBack ops (UInt32.ofNat l)
  partitions : main.header.flags &&& AVB_VBMETA_IMAGE_FLAGS_VERIFICATION_DISABLED = 0 → ∀ p ∈ d.loadedPartitions,
    ∃ i ∈ main :: chained, ∃ o desc, Covers sha requestedPartitions allow i p o desc

/-- The images and the rollback indexes are the same in both states. -/
structure SameImages (s s' : State) : Prop where
  images : s'.data.vbmetaImages = s.data.vbmetaImages
  rollback : s'.data.rollbackIndexes = s.data.rollbackIndexes

instance sameImages_preorder : IsPreorder State SameImages where
  refl _ := ⟨rfl, rfl⟩
  trans _ _ _ h h' := ⟨h'.images.trans h.images, h'.rollback.trans h.rollback⟩

theorem Same.sameImages {s s' : State} (h : Same s s') : SameImages s s' := ⟨h.images, h.rollback⟩

theorem loadRequestedPartitions_sameImages (names : List (List UInt8)) :
    Prog.Returns SameImages (loadRequestedPartitions ops abSuffix names) := by
  induction names with
  | nil => exact Prog.Returns.pure _
  | cons name names ih =>
    unfold loadRequestedPartitions
    rcases avbStrConcat name abSuffix with - | partName
    · exact Prog.Returns.pure _
    refine Prog.Returns.bind ((call_same _).mono fun _ _ => Same.sameImages) fun r => ?_
    rcases r with ⟨ioRet, size⟩
    rcases hio : ioFailure ioRet with - | ret
    swap
    · simp only [hio]
      exact Prog.Returns.pure _
    simp only [hio]
    refine Prog.Returns.bind ((loadFullPartition_same _ _).mono fun _ _ => Same.sameImages) fun r => ?_
    rcases r with ⟨ret, buf⟩
    split
    · refine Prog.Returns.bind Prog.Returns.get fun s => Prog.Returns.early ?_
      refine Prog.Returns.bind ((allocated_same _).mono fun _ _ => Same.sameImages) fun named => ?_
      exact Prog.Returns.bind (Prog.Returns.modify fun _ => ⟨rfl, rfl⟩) fun _ => Prog.Returns.early ih
    · exact Prog.Returns.pure _

/-- With verification disabled the partitions are loaded as they are, and nothing else changes. -/
theorem Chain.of_sameImages {main : Image} {chained : List Image} {s s' : State}
    (h : Chain sha ops requestedPartitions allow main chained s.data) (hsame : SameImages s s')
    (hdisabled : main.header.flags &&& AVB_VBMETA_IMAGE_FLAGS_VERIFICATION_DISABLED ≠ 0) :
    Chain sha ops requestedPartitions allow main chained s'.data where
  images := hsame.images.trans h.images
  verified := h.verified
  trusted := h.trusted
  notRolledBack := h.notRolledBack
  delegates := h.delegates
  rollback := hsame.rollback ▸ h.rollback
  partitions henabled := absurd henabled hdisabled

theorem Chain.of_same {main : Image} {chained : List Image} {s s' : State}
    (h : Chain sha ops requestedPartitions allow main chained s.data) (hsame : Same s s') :
    Chain sha ops requestedPartitions allow main chained s'.data where
  images := hsame.images.trans h.images
  verified := h.verified
  trusted := h.trusted
  notRolledBack := h.notRolledBack
  delegates := h.delegates
  rollback := hsame.rollback ▸ h.rollback
  partitions := hsame.partitions ▸ h.partitions

/-- The state while the descriptors of the main image are gone through. -/
def Growing (sha : Hashes) (ops : AvbOps) (requestedPartitions : List (List UInt8)) (allow : Bool) (main : Image)
    (s : State) : Prop :=
  ∃ chained, Good sha ops requestedPartitions allow (main :: chained) s.data ∧
    ∀ c ∈ chained, ∃ o desc, Delegates sha ops main c o desc

theorem Growing.chain {main : Image} {s : State} {name : List UInt8} (hchecked : Checked sha ops (mainArgs name) main)
    (h : Growing sha ops requestedPartitions allow main s) :
    ∃ chained, Chain sha ops requestedPartitions allow main chained s.data := by
  obtain ⟨chained, hgood, hd⟩ := h
  exact ⟨chained, hgood.images, hchecked.verified, hchecked.trusted rfl, hchecked.notRolledBack, hd, hgood.rollback,
    fun _ => hgood.partitions⟩

theorem growing_respects (main : Image) : Respects (Growing sha ops requestedPartitions allow main) := by
  intro s s' h hsame
  obtain ⟨chained, hgood, hd⟩ := h
  exact ⟨chained, good_respects s s' hgood hsame, hd⟩

/-- A hash descriptor of the main image. -/
theorem growing_hash (hpers : ops.persistent = none) {main : Image} {d : UInt64} (hd : d ∈ main.descriptors) :
    Prog.Triple (Growing sha ops requestedPartitions allow main)
      (loadAndVerifyHashPartition sha ops requestedPartitions abSuffix allow main.buf.mem d.toNat)
      (fun r s => r = .ok → Growing sha ops requestedPartitions allow main s) fun _ => True := by
  intro s h
  obtain ⟨chained, hgood, hdel⟩ := h
  exact Prog.Triple.conseq (loadAndVerifyHashPartition_spec hpers abSuffix List.mem_cons_self hd) (fun _ h => h)
    (fun _ _ hr hok => ⟨chained, hr hok, hdel⟩) (fun _ _ => trivial) s hgood

/-- A chain descriptor of the main image. -/
theorem growing_chain (hsha : sha.Sized) (hpers : ops.persistent = none) {main : Image} {d : UInt64}
    (hd : d ∈ main.descriptors) {desc : AvbChainPartitionDescriptor}
    (hdesc : avbChainPartitionDescriptorValidateAndByteswap main.buf.mem d.toNat = some desc)
    (hloc : desc.rollbackIndexLocation ≠ 0) (flags : UInt32) (depth : ℕ) :
    Prog.Triple (Growing sha ops requestedPartitions allow main)
      (loadAndVerifyVbmeta sha ops requestedPartitions abSuffix allow depth ⟨flags, desc.rollbackIndexLocation,
        ⟨main.buf.mem, d.toNat + sizeofAvbChainPartitionDescriptor⟩, desc.partitionNameLen.toNat,
        some (main.buf.mem.read (d.toNat + sizeofAvbChainPartitionDescriptor + desc.partitionNameLen.toNat)
          desc.publicKeyLen.toNat), false⟩)
      (fun r s => r = .ok → Growing sha ops requestedPartitions allow main s) fun _ => True := by
  cases depth with
  | zero => exact fun s _ => trivial
  | succ depth =>
    intro s h
    obtain ⟨chained, hgood, hdel⟩ := h
    refine Prog.Triple.conseq (loadChained_spec hsha hpers (decide_eq_false hloc)) (fun _ h => h)
      (fun r s hr hok => ?_) (fun _ _ => trivial) s hgood
    obtain ⟨i, hgood', hchecked, hlt⟩ := hr hok
    refine ⟨chained ++ [i], hgood', fun c hc => ?_⟩
    rcases List.mem_append.mp hc with hold | hnew
    · exact hdel c hold
    · rw [List.mem_singleton] at hnew
      subst hnew
      exact ⟨d, desc, hd, hdesc, hchecked.key _ rfl, hchecked.verified, hchecked.flags (decide_eq_false hloc), hlt,
        hchecked.notRolledBack⟩

/-- The main image, in whichever partition it is found. -/
theorem loadMain_spec (hsha : sha.Sized) (hpers : ops.persistent = none) (depth : ℕ) (name : List UInt8) :
    Prog.Triple (fun s => Good sha ops requestedPartitions allow [] s.data)
      (loadAndVerifyVbmeta sha ops requestedPartitions abSuffix allow depth (mainArgs name))
      (fun r s => r = .ok → ∃ main chained, Chain sha ops requestedPartitions allow main chained s.data)
      fun _ => True := by
  induction depth generalizing name with
  | zero => exact fun s _ => trivial
  | succ depth ih =>
    refine Prog.Triple.ite (fun _ _ _ h => by cases h) fun _ => ?_
    rcases avbStrConcat (mainArgs name).name abSuffix with - | fullName
    · exact fun _ _ h => by cases h
    refine (readVbmeta_ans _ _ _).then (readVbmeta_same _ _ _) good_respects fun r hr => ?_
    cases r with
    | failed ret => exact fun s _ h => absurd h (hr.2 ret rfl)
    | tryBoot => exact ih (text "boot")
    | image buf numRead =>
      obtain ⟨i, rfl, rfl⟩ : ∃ i : Image, i.buf = buf ∧ i.numRead = numRead := ⟨⟨buf, numRead⟩, rfl, rfl⟩
      refine Prog.Triple.bind (checkImage_spec hsha (mainArgs name) i) fun r => ?_
      rcases r with e | ret
      · exact fun s hs h => absurd h hs
      let J (s : State) : Prop := Checked sha ops (mainArgs name) i ∧ Growing sha ops requestedPartitions allow i s
      have himage : Prog.Triple (fun s => ret = .ok → J s)
          (processImage sha ops requestedPartitions abSuffix allow
            (loadAndVerifyVbmeta sha ops requestedPartitions abSuffix allow depth) (mainArgs name) i.buf i.numRead ret)
          (fun r s => r = .ok → ∃ main chained, Chain sha ops requestedPartitions allow main chained s.data)
          fun _ => True := by
        apply processImage_spec
        · intro flags d hd ret
          apply processDescriptor_spec hpers (fun s s' hs hsame => ⟨hs.1, growing_respects i s s' hs.2 hsame⟩)
          · refine Prog.Triple.given fun hc => ?_
            exact Prog.Triple.conseq (growing_hash hpers hd) (fun _ hs => hs) (fun _ _ hr hok => ⟨hc, hr hok⟩)
              fun _ _ => trivial
          · intro desc hdesc _ hloc
            refine Prog.Triple.given fun hc => ?_
            exact Prog.Triple.conseq (growing_chain hsha hpers hd hdesc hloc flags depth) (fun _ hs => hs)
              (fun _ _ hr hok => ⟨hc, hr hok⟩) fun _ _ => trivial
        · intro hdisabled
          have hload : Prog.Returns SameImages (loadRequestedPartitions ops abSuffix requestedPartitions) :=
            loadRequestedPartitions_sameImages _
          have hkeep := hload.keeps.triple (P := fun s => ∃ chained, Chain sha ops requestedPartitions allow i chained s.data)
            fun s s' hs hsame => hs.imp fun _ hchain => hchain.of_sameImages hsame hdisabled
          exact Prog.Triple.conseq hkeep (fun s hs => hs.2.chain hs.1) (fun _ s hs => ⟨i, hs⟩) fun _ _ => trivial
        · intro _ ret
          refine Prog.Triple.conseq (finishVbmeta_spec (J := J) fun s t hs hlt ht => ⟨hs.1, ?_⟩) (fun _ hs => hs)
            (fun r s hr hok => ⟨i, (hr hok).1.2.chain (hr hok).1.1⟩) fun _ _ => trivial
          obtain ⟨hc, chained, hgood, hd⟩ := hs
          refine ⟨chained, ?_, hd⟩
          rw [ht]
          exact hgood.set_rollback List.mem_cons_self hlt hc.notRolledBack
      refine Prog.Triple.conseq himage (fun s hs hret => ?_) (fun _ _ hr => hr) fun _ _ => trivial
      obtain ⟨hgood, hc⟩ := hs hret
      exact ⟨hc, [], hgood, fun c hc => absurd hc List.not_mem_nil⟩

/-! ## The whole slot -/

theorem avbManageHashtreeErrorMode_same (restart : Bool) (persistent : PersistentOps) :
    Prog.Returns Same (avbManageHashtreeErrorMode sha restart persistent) := by
  refine Prog.Returns.bind Prog.Returns.get fun s => Prog.Returns.ite (Prog.Returns.map (call_same _)) ?_
  refine Prog.Returns.bind (call_same _) fun r => ?_
  refine Prog.Returns.early <| Prog.Returns.early <| Prog.Returns.early <| Prog.Returns.early ?_
  exact Prog.Returns.map (call_same _)

theorem resolveHashtreeErrorMode_same (restart : Bool) (mode : AvbHashtreeErrorMode) :
    Prog.Returns Same (resolveHashtreeErrorMode sha ops restart mode) := by
  unfold resolveHashtreeErrorMode
  split
  · exact Prog.Returns.map (avbManageHashtreeErrorMode_same _ _)
  · exact Prog.Returns.pure _

theorem hasSystemPartition_same : Prog.Returns Same (hasSystemPartition ops abSuffix) := by
  unfold hasSystemPartition
  rcases avbStrConcat (text "system") abSuffix with - | partName
  · exact Prog.Returns.pure _
  · exact Prog.Returns.map (call_same _)

theorem finishCmdline_same (restart : Bool) (mode : AvbHashtreeErrorMode) (toplevelFlags : UInt32) :
    Prog.Returns Same (finishCmdline sha ops abSuffix restart mode toplevelFlags) := by
  refine Prog.Returns.ite ?_ (Prog.Returns.bind (resolveHashtreeErrorMode_same _ _) fun r => ?_)
  · refine Prog.Returns.bind hasSystemPartition_same fun _ => Prog.Returns.bind (allocated_same _) fun _ => ?_
    exact Prog.Returns.early (Prog.Returns.map (Prog.Returns.modify fun _ => ⟨rfl, rfl, rfl⟩))
  · rcases r with ret | resolved
    · exact Prog.Returns.pure _
    · refine Prog.Returns.bind (Prog.Returns.modify fun _ => ⟨rfl, rfl, rfl⟩) fun _ => ?_
      refine Prog.Returns.bind Prog.Returns.get fun s => ?_
      exact avbAppendOptions_same _ _ _ _

theorem substituteCmdline_same : Prog.Returns Same (substituteCmdline ops abSuffix) := by
  refine Prog.Returns.bind Prog.Returns.get fun s => ?_
  rcases s.data.cmdline with - | cmdline
  · exact Prog.Returns.pure _
  refine Prog.Returns.early (Prog.Returns.bind (avbSubCmdline_same _ _ _) fun r => ?_)
  rcases r with - | newCmdline
  · exact Prog.Returns.pure _
  · exact Prog.Returns.map (Prog.Returns.modify fun _ => ⟨rfl, rfl, rfl⟩)

/-- What is handed over at the end is the slot's data, with the result of the vbmeta images. -/
theorem finishSlot_spec {P : AvbSlotVerifyData → Prop} (hP : Respects fun s => P s.data) (flags : AvbSlotVerifyFlags)
    (mode : AvbHashtreeErrorMode) (ret : VerifyResult) :
    Prog.Triple (fun s => P s.data) (finishSlot sha ops abSuffix flags mode ret)
      (fun r _ => ∀ d, r.2 = some d → r.1 = ret ∧ P d) fun _ => True := by
  refine (Ans.top _).then Prog.Returns.get hP fun s _ => ?_
  refine (Ans.top _).then (allocated_same _) hP fun named _ => ?_
  refine Prog.Triple.ite (fun _ _ _ d hd => by cases hd) fun _ => ?_
  refine (Ans.top _).then (Prog.Returns.modify fun _ => ⟨rfl, rfl, rfl⟩) hP fun _ _ => ?_
  refine (Ans.top _).then (finishCmdline_same _ _ _) hP fun subRet _ => ?_
  refine Prog.Triple.ite (fun _ _ _ d hd => by cases hd) fun _ => ?_
  refine (Ans.top _).then substituteCmdline_same hP fun done _ => ?_
  refine Prog.Triple.ite (fun _ _ _ d hd => by cases hd) fun _ => ?_
  intro s hs d hd
  cases hd
  exact ⟨rfl, hs⟩

theorem chain_respects : Respects fun s => ∃ main chained, Chain sha ops requestedPartitions allow main chained s.data :=
  fun _ _ h hsame => h.imp fun _ h => h.imp fun _ h => h.of_same hsame

/-- Operations that all fail. -/
def failingOps : AvbOps where
  malloc _ size := some size
  rsaMallocs _ := ⟨true, true, true⟩
  readFromPartition _ _ _ _ _ := (.errorIo, 0, fun _ => 0)
  getSizeOfPartition _ _ := (.errorNoSuchPartition, 0)
  validateVbmetaPublicKey _ _ _ := (.errorIo, false)
  readRollbackIndex _ _ := (.errorIo, 0)
  readIsDeviceUnlocked _ := (.errorIo, false)
  getUniqueGuidForPartition _ _ := (.errorNoSuchPartition, [])
  persistent := none

theorem ioFailure_fatal {ioRet : IoResult} {ret : VerifyResult} (h : ioFailure ioRet = some ret) :
    resultShouldContinue ret = false := by
  unfold ioFailure at h
  split_ifs at h <;> (cases h; rfl)

/-- A step towards the command line succeeds, or fails with an error that ends the boot. -/
def Settled (r : VerifyResult) : Prop := r = .ok ∨ resultShouldContinue r = false

theorem appendDigest_ans (algorithmType : UInt32) : Ans (appendDigest ops sha algorithmType) Settled :=
  Ans.bind (Ans.top _) fun _ _ =>
    Ans.bind (Ans.top _) fun _ _ => Ans.ite (fun _ => Ans.pure (.inr rfl)) fun _ =>
      Ans.bind (Ans.top _) fun _ _ => Ans.ite (fun _ => Ans.pure (.inr rfl)) fun _ =>
        Ans.bind (Ans.top _) fun _ _ => Ans.ite (fun _ => Ans.pure (.inr rfl)) fun _ => Ans.pure (.inl rfl)

theorem resolveVerityMode_ans (toplevelFlags : UInt32) (resolved : AvbHashtreeErrorMode) :
    Ans (resolveVerityMode ops toplevelFlags resolved) fun r => ∀ ret, r = .error ret → resultShouldContinue ret = false := by
  have hoom : ∀ ret, (.error .errorOom : Except VerifyResult (List UInt8)) = .error ret → resultShouldContinue ret = false :=
    fun ret h => by cases h; rfl
  unfold resolveVerityMode
  refine Ans.ite (fun _ => Ans.pure fun _ h => by cases h) fun _ => ?_
  rcases verityModes resolved with - | ⟨verityMode, dmVerityMode⟩
  · exact Ans.pure fun ret h => by cases h; rfl
  refine Ans.ite (fun _ => Ans.bind (Ans.top _) fun _ _ => Ans.ite (fun _ => Ans.pure hoom) fun _ => ?_) fun _ => ?_
  all_goals
    refine Ans.bind (Ans.top _) fun _ _ => Ans.bind (Ans.top _) fun newRet _ => Ans.bind (Ans.top _) fun _ _ => Ans.pure ?_
    cases newRet
    · exact hoom
    · exact fun _ h => by cases h

theorem avbAppendOptions_ans (toplevelFlags algorithmType : UInt32) (mode resolved : AvbHashtreeErrorMode) :
    Ans (avbAppendOptions ops sha toplevelFlags algorithmType mode resolved) Settled := by
  unfold avbAppendOptions
  refine Ans.bind (Ans.top _) fun _ _ => Ans.ite (fun _ => Ans.pure (.inr rfl)) fun _ => ?_
  refine Ans.bind (Ans.top _) fun _ _ => Ans.ite (fun _ => Ans.pure (.inr rfl)) fun _ => ?_
  refine Ans.bind (Ans.top _) fun r _ => ?_
  rcases r with ⟨ioRet, isDeviceUnlocked⟩
  rcases hio : ioFailure ioRet with - | ret
  swap
  · simp only [hio]
    exact Ans.pure (.inr (ioFailure_fatal hio))
  simp only [hio]
  refine Ans.bind (Ans.top _) fun _ _ => Ans.ite (fun _ => Ans.pure (.inr rfl)) fun _ => ?_
  refine Ans.bind (appendDigest_ans _) fun ret hret => Ans.ite (fun _ => Ans.pure hret) fun _ => ?_
  refine Ans.bind (resolveVerityMode_ans _ _) fun r hr => ?_
  rcases r with ret | verityMode
  · exact Ans.pure (.inr (hr ret rfl))
  refine Ans.bind (Ans.top _) fun _ _ => Ans.ite (fun _ => Ans.pure (.inr rfl)) fun _ => ?_
  exact Ans.ite (fun _ => Ans.bind (Ans.top _) fun _ _ => Ans.ite (fun _ => Ans.pure (.inr rfl)) fun _ =>
    Ans.pure (.inl rfl)) fun _ => Ans.pure (.inl rfl)

theorem resolveHashtreeErrorMode_ans (restart : Bool) (mode : AvbHashtreeErrorMode) :
    Ans (resolveHashtreeErrorMode sha ops restart mode) fun r => ∀ ret, r = .error ret → resultShouldContinue ret = false := by
  unfold resolveHashtreeErrorMode
  split
  · refine Ans.bind (Ans.top _) fun r _ => Ans.pure fun ret h => ?_
    split at h
    · cases h
    · cases h
      split <;> rfl
  · exact Ans.pure fun _ h => by cases h

theorem finishCmdline_ans (restart : Bool) (mode : AvbHashtreeErrorMode) (toplevelFlags : UInt32) :
    Ans (finishCmdline sha ops abSuffix restart mode toplevelFlags) Settled := by
  refine Ans.ite (fun _ => ?_) fun _ => Ans.bind (resolveHashtreeErrorMode_ans _ _) fun r hr => ?_
  · refine Ans.bind (Ans.top _) fun _ _ => Ans.bind (Ans.top _) fun _ _ => Ans.ite (fun _ => Ans.pure (.inr rfl)) fun _ => ?_
    exact Ans.bind (Ans.top _) fun _ _ => Ans.pure (.inl rfl)
  · rcases r with ret | resolved
    · exact Ans.pure (.inr (hr ret rfl))
    · refine Ans.bind (Ans.top _) fun _ _ => Ans.bind (Ans.top _) fun s _ => ?_
      exact avbAppendOptions_ans _ _ _ _

theorem finishSlot_ans (flags : AvbSlotVerifyFlags) (mode : AvbHashtreeErrorMode) (ret : VerifyResult) :
    Ans (finishSlot sha ops abSuffix flags mode ret) fun r =>
      (r.2.isSome = true ∧ r.1 = ret) ∨ (r.2 = none ∧ resultShouldContinue r.1 = false) := by
  refine Ans.bind (Ans.top _) fun s _ => Ans.bind (Ans.top _) fun _ _ => Ans.ite (fun _ => Ans.pure (.inr ⟨rfl, rfl⟩)) fun _ => ?_
  refine Ans.bind (Ans.top _) fun _ _ => Ans.bind (finishCmdline_ans _ _ _) fun subRet hsub => ?_
  refine Ans.ite (fun hne => Ans.pure (.inr ⟨rfl, hsub.resolve_left hne⟩)) fun _ => ?_
  refine Ans.bind (Ans.top _) fun _ _ => Ans.ite (fun _ => Ans.pure (.inr ⟨rfl, rfl⟩)) fun _ => ?_
  exact Ans.bind (Ans.top _) fun s _ => Ans.pure (.inl ⟨rfl, rfl⟩)

/-- There is data exactly with the results that a boot may go on with: with `ok`, and where errors are allowed with the
three errors of the verification itself. -/
theorem handed_over_iff (sha : Hashes) (ops : AvbOps) (depth : ℕ) (requestedPartitions : List (List UInt8))
    (abSuffix : List UInt8) (flags : AvbSlotVerifyFlags) (mode : AvbHashtreeErrorMode) :
    Ans (avbSlotVerify sha ops depth requestedPartitions abSuffix flags mode) fun r =>
      r.2.isSome = true ↔ resultShouldContinue r.1 = true ∧ (flags.allowVerificationError = false → r.1 = .ok) := by
  refine Ans.ite (fun _ => Ans.pure (by simp [resultShouldContinue])) fun _ =>
    Ans.ite (fun _ => Ans.pure (by simp [resultShouldContinue])) fun _ => ?_
  refine Ans.bind (Ans.top _) fun _ _ => Ans.ite (fun _ => Ans.pure (by simp [resultShouldContinue])) fun _ => ?_
  refine Ans.bind (Ans.top _) fun _ _ => Ans.bind (Ans.top _) fun ret _ => ?_
  refine Ans.ite (fun hlocked => Ans.pure ?_) fun hallowed => Ans.ite (fun hfatal => Ans.pure ?_) fun hcontinue => ?_
  · simp only [Bool.not_eq_eq_eq_not, Bool.not_true] at hlocked
    exact ⟨fun h => (by cases h), fun h => absurd (h.2 hlocked.1) hlocked.2⟩
  · simp only [Bool.not_eq_eq_eq_not, Bool.not_true] at hfatal
    exact ⟨fun h => (by cases h), fun h => absurd (hfatal.symm.trans h.1) Bool.false_ne_true⟩
  · simp only [Bool.not_eq_eq_eq_not, Bool.not_true, Bool.not_eq_false] at hallowed hcontinue
    refine (finishSlot_ans _ _ _).mono fun r hr => ?_
    rcases hr with ⟨hsome, rfl⟩ | ⟨hnone, hfatal⟩
    · refine ⟨fun _ => ⟨hcontinue, fun hlocked => ?_⟩, fun _ => hsome⟩
      by_contra hne
      exact hallowed ⟨hlocked, hne⟩
    · rw [hnone, hfatal]
      exact ⟨fun h => (by cases h), fun h => absurd h.1 Bool.false_ne_true⟩

end RCar.SlotVerify
