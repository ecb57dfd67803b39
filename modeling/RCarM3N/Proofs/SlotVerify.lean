import RCarM3N.Model.SlotVerify
import RCarM3N.Proofs.AvbCmdline
import RCarM3N.Proofs.VbDescriptors

/-! The chain of trust of a slot that is verified: the main image's key is the platform's, every other image's key stands in a
chain descriptor of the main image, no image is older than its rollback index, and every partition that was loaded has the
digest of a descriptor in one of the images. -/

namespace RCar.SlotVerify

open UBoot (IoResult VerifyResult AVB_MAX_NUMBER_OF_ROLLBACK_INDEX_LOCATIONS)
open AvbRsa VbMeta

variable {sha : Hashes} {ops : AvbOps}

/-! ## What leaves the verified data alone -/

theorem loadFullPartition_same (partName : List UInt8) (imageSize : UInt64) :
    Prog.Returns Same (loadFullPartition ops partName imageSize) := by
  refine Prog.Returns.bind (call_same _) fun buf => ?_
  rcases buf with - | buf
  · exact Prog.Returns.pure _
  refine Prog.Returns.bind (call_same _) fun r => ?_
  rcases r with ⟨ioRet, partNumRead, mem⟩
  rcases hio : ioFailure ioRet with - | ret
  all_goals
    simp only [hio]
    exact Prog.Returns.pure _

theorem readPersistentDigestWith_same (noValue : Option (PersistentOps → List UInt8 → Prog State (VerifyResult × Mem)))
    (hno : ∀ f ∈ noValue, ∀ p n, Prog.Returns Same (f p n)) (partName : List UInt8) (size : ℕ) :
    Prog.Returns Same (readPersistentDigestWith ops noValue partName size) := by
  unfold readPersistentDigestWith
  rcases ops.persistent with - | persistent
  · exact Prog.Returns.pure _
  refine Prog.Returns.bind (allocated_same _) fun _ => Prog.Returns.early ?_
  refine Prog.Returns.bind (call_same _) fun r => ?_
  rcases r with ⟨ioRet, storedDigestSize, outDigest⟩
  rcases noValue with - | noValue
  · exact Prog.Returns.pure _
  · exact Prog.Returns.ite (hno noValue rfl _ _) (Prog.Returns.pure _)

theorem readPersistentDigest_same (partName : List UInt8) (size : ℕ) (initialDigest : Option (List UInt8)) :
    Prog.Returns Same (readPersistentDigest ops partName size initialDigest) := by
  apply readPersistentDigestWith_same
  intro f hf p n
  rw [Option.mem_def, Option.map_eq_some_iff] at hf
  obtain ⟨digest, -, rfl⟩ := hf
  refine Prog.Returns.bind (call_same _) fun r => ?_
  rcases r with ⟨ioRet, isDeviceUnlocked⟩
  rcases hio : ioFailure ioRet with - | ret
  swap
  · simp only [hio]
    exact Prog.Returns.pure _
  simp only [hio]
  refine Prog.Returns.early (Prog.Returns.bind (call_same _) fun ioRet => ?_)
  rcases ioFailure ioRet with - | ret
  · exact readPersistentDigestWith_same none (fun f hf => by cases hf) _ _
  · exact Prog.Returns.pure _

theorem checkDigest_same (m : Mem) (descriptor : ℕ) (hashDesc : AvbHashDescriptor) (partName : List UInt8) (imageBuf : Buffer)
    (imageSize : UInt64) : Prog.Returns Same (checkDigest sha ops m descriptor hashDesc partName imageBuf imageSize) := by
  unfold checkDigest
  simp only
  split
  · exact Prog.Returns.pure _
  · refine Prog.Returns.ite (Prog.Returns.bind (readPersistentDigest_same _ _ _) fun r => ?_) ?_
    all_goals exact Prog.Returns.early (Prog.Returns.pure _)

theorem imageSizeToLoad_same (allow : Bool) (partName : List UInt8) (hashDesc : AvbHashDescriptor) :
    Prog.Returns Same (imageSizeToLoad ops allow partName hashDesc) := by
  refine Prog.Returns.ite (Prog.Returns.bind (call_same _) fun r => ?_) (Prog.Returns.pure _)
  rcases r with ⟨ioRet, imageSize⟩
  rcases hio : ioFailure ioRet with - | ret
  all_goals
    simp only [hio]
    exact Prog.Returns.pure _

theorem locateVbmeta_same (name : List UInt8) (look : Bool) : Prog.Returns Same (locateVbmeta ops name look) := by
  refine Prog.Returns.ite (Prog.Returns.bind (call_same _) fun r => ?_) (Prog.Returns.pure _)
  rcases r with ⟨ioRet, n, footerBuf⟩
  rcases hio : ioFailure ioRet with - | ret
  · simp only [hio]
    split <;> exact Prog.Returns.pure _
  · simp only [hio]
    exact Prog.Returns.pure _

theorem readVbmeta_same (name : List UInt8) (isMain look : Bool) : Prog.Returns Same (readVbmeta ops name isMain look) := by
  refine Prog.Returns.bind (locateVbmeta_same _ _) fun r => ?_
  rcases r with ret | ⟨offset, size⟩
  · exact Prog.Returns.pure _
  refine Prog.Returns.bind (call_same _) fun buf => ?_
  rcases buf with - | buf
  · exact Prog.Returns.pure _
  refine Prog.Returns.bind (call_same _) fun r => Prog.Returns.early ?_
  exact Prog.Returns.early (Prog.Returns.pure _)

theorem checkPublicKey_same (allow : Bool) (args : VbmetaArgs) (buf : Buffer) (h : AvbVBMetaImageHeader) (pk : Option (ℕ × ℕ))
    (ret : VerifyResult) : Prog.Returns Same (checkPublicKey ops allow args buf h pk ret) := by
  unfold checkPublicKey
  rcases pk with - | ⟨pkData, pkLen⟩
  · exact Prog.Returns.pure _
  simp only
  rcases args.expectedPublicKey with - | expected
  · simp only
    refine Prog.Returns.bind (call_same _) fun r => ?_
    rcases r with ⟨ioRet, keyIsTrusted⟩
    rcases hio : ioFailure ioRet with - | ret
    all_goals exact Prog.Returns.pure _
  · exact Prog.Returns.early (Prog.Returns.pure _)

theorem checkRollbackIndex_same (allow : Bool) (args : VbmetaArgs) (h : AvbVBMetaImageHeader) (ret : VerifyResult) :
    Prog.Returns Same (checkRollbackIndex ops allow args h ret) := by
  refine Prog.Returns.bind (call_same _) fun r => ?_
  rcases r with ⟨ioRet, stored⟩
  rcases hio : ioFailure ioRet with - | ret
  all_goals
    simp only [hio]
    exact Prog.Returns.pure _

theorem processKernelCmdline_same (flags : UInt32) (m : Mem) (descriptor : ℕ) (ret : VerifyResult) :
    Prog.Returns Same (processKernelCmdline ops flags m descriptor ret) := by
  unfold processKernelCmdline
  rcases avbKernelCmdlineDescriptorValidateAndByteswap m descriptor with - | desc
  · exact Prog.Returns.pure _
  simp only
  refine Prog.Returns.early (Prog.Returns.early ?_)
  refine Prog.Returns.bind Prog.Returns.get fun _ => Prog.Returns.bind (allocated_same _) fun _ => Prog.Returns.early ?_
  exact Prog.Returns.map (Prog.Returns.modify fun _ => ⟨rfl, rfl, rfl⟩)

theorem processHashtree_same (abSuffix : List UInt8) (top : Bool) (m : Mem) (descriptor : ℕ) (ret : VerifyResult) :
    Prog.Returns Same (processHashtree ops abSuffix top m descriptor ret) := by
  unfold processHashtree
  rcases avbHashtreeDescriptorValidateAndByteswap m descriptor with - | desc
  · exact Prog.Returns.pure _
  simp only
  refine Prog.Returns.early <| Prog.Returns.early <| Prog.Returns.early <| Prog.Returns.early ?_
  rcases hashtreeDigestLen m descriptor with - | digestLen
  · exact Prog.Returns.pure _
  refine Prog.Returns.bind (readPersistentDigest_same _ _ _) fun r => Prog.Returns.early ?_
  exact Prog.Returns.ite (Prog.Returns.map (avbAddRootDigestSubstitution_same _ _)) (Prog.Returns.pure _)

/-! ## Answers -/

section Answers

variable {α β : Type}

/-- Every answer of the program is as `Q` says, from any state. -/
def Ans (x : Prog State α) (Q : α → Prop) : Prop := Prog.Triple (fun _ => True) x (fun a _ => Q a) fun _ => True

theorem Ans.top (x : Prog State α) : Ans x fun _ => True := Prog.Triple.top x

theorem Ans.pure {Q : α → Prop} {a : α} (h : Q a) : Ans (pure a) Q := fun _ _ => h

theorem Ans.bind {x : Prog State α} {f : α → Prog State β} {R : α → Prop} {Q : β → Prop} (hx : Ans x R)
    (hf : ∀ a, R a → Ans (f a) Q) : Ans (x >>= f) Q :=
  Prog.Triple.bind hx fun a s ha => hf a ha s trivial

theorem Ans.ite {c : Prop} [Decidable c] {x y : Prog State α} {Q : α → Prop} (hx : c → Ans x Q) (hy : ¬ c → Ans y Q) :
    Ans (if c then x else y) Q := Prog.Triple.ite hx hy

theorem Ans.mono {x : Prog State α} {R Q : α → Prop} (hx : Ans x R) (h : ∀ a, R a → Q a) : Ans x Q :=
  Prog.Triple.conseq hx (fun _ _ => trivial) (fun a _ => h a) fun _ _ => trivial

/-- What a run answers is among the answers. -/
theorem Ans.of_run {x : Prog State α} {Q : α → Prop} (h : Ans x Q) {s s' : State} {a : α} (hrun : x.run s = (some a, s')) :
    Q a := Prog.Triple.some h trivial hrun

theorem call_ans (op : ℕ → α) : Ans (call op) fun a => ∃ t, a = op t := fun s _ => ⟨s.time, rfl⟩

/-- A fact that only looks at what was verified. -/
def Respects (P : State → Prop) : Prop := ∀ s s', P s → Same s s' → P s'

/-- A first step that leaves the verified data alone, and what follows from its answers. -/
theorem Ans.then {x : Prog State α} {f : α → Prog State β} {R : α → Prop} {P : State → Prop} {Q : β → State → Prop}
    (hx : Ans x R) (hsame : Prog.Returns Same x) (hP : Respects P)
    (hf : ∀ a, R a → Prog.Triple P (f a) Q fun _ => True) : Prog.Triple P (x >>= f) Q fun _ => True := by
  refine Prog.Triple.bind (R := fun a s => P s ∧ R a) ?_ fun a s hs => hf a hs.2 s hs.1
  have hboth := Prog.Triple.and (hsame.keeps.triple hP) hx
  exact Prog.Triple.conseq hboth (fun _ hs => ⟨hs, trivial⟩) (fun _ _ h => h) fun _ _ => trivial

end Answers

theorem ioFailure_ne_ok {ioRet : IoResult} {ret : VerifyResult} (h : ioFailure ioRet = some ret) : ret ≠ .ok := by
  unfold ioFailure at h
  split_ifs at h <;> (cases h; exact VerifyResult.noConfusion)

theorem ioFailure_eq_none {ioRet : IoResult} (h : ioFailure ioRet = none) : ioRet = .ok := by
  unfold ioFailure at h
  split_ifs at h with hoom hio
  exact not_not.mp hio

theorem allowing_ok {allow : Bool} {ret ret' : VerifyResult} (h : allowing allow ret = .ok ret') : ret' = ret := by
  unfold allowing at h
  split_ifs at h
  cases h
  rfl

theorem allowing_error {allow : Bool} {ret ret' : VerifyResult} (h : allowing allow ret = .error ret') : ret' = ret := by
  unfold allowing at h
  split_ifs at h
  cases h
  rfl

/-! ## The evidence -/

/-- A vbmeta image in memory, with the number of its bytes that were read. -/
structure Image where
  buf : Buffer
  numRead : UInt64

namespace Image

def header (i : Image) : AvbVBMetaImageHeader := VbMeta.header i.buf.mem i.buf.addr

def descriptors (i : Image) : List UInt64 := avbDescriptorGetAll i.buf.mem (UInt64.ofNat i.buf.addr) i.numRead.toNat

/-- The key in the image. -/
def key (i : Image) : List UInt8 := i.buf.mem.read (publicKeyAt i.buf.mem i.buf.addr) i.header.publicKeySize.toNat

/-- The image as it stands among the data of the slot when it is verified. -/
def entry (i : Image) : AvbVBMetaData :=
  ⟨i.buf, 256 + i.header.authenticationDataBlockSize + i.header.auxiliaryDataBlockSize, .ok⟩

end Image

section Evidence

variable (sha : Hashes) (ops : AvbOps)

/-- The image was accepted under its own key. -/
def Image.Verified (i : Image) : Prop :=
  ∃ t, (avbVbmetaImageVerify sha (ops.rsaMallocs t) i.buf.mem i.buf.addr i.numRead.toNat).1 = .ok

/-- The platform trusts the key in the image. -/
def Image.Trusted (i : Image) : Prop := ∃ t metadata, ops.validateVbmetaPublicKey t i.key metadata = (.ok, true)

/-- The image is not older than the rollback index stored at the location. -/
def Image.NotRolledBack (i : Image) (location : UInt32) : Prop :=
  ∃ t stored, ops.readRollbackIndex t location = (.ok, stored) ∧ stored ≤ i.header.rollbackIndex

/-- An image that a chain descriptor of the main image vouches for: it is accepted under the key in the descriptor. -/
structure Delegates (main i : Image) (d : UInt64) (desc : AvbChainPartitionDescriptor) : Prop where
  listed : d ∈ main.descriptors
  valid : avbChainPartitionDescriptorValidateAndByteswap main.buf.mem d.toNat = some desc
  key : main.buf.mem.read (d.toNat + sizeofAvbChainPartitionDescriptor + desc.partitionNameLen.toNat)
    desc.publicKeyLen.toNat = i.key
  verified : i.Verified sha ops
  flags : i.header.flags = 0
  location : desc.rollbackIndexLocation.toNat < AVB_MAX_NUMBER_OF_ROLLBACK_INDEX_LOCATIONS
  notRolledBack : i.NotRolledBack ops desc.rollbackIndexLocation

/-- A loaded partition that a hash descriptor of an image covers: what was loaded has the digest in the descriptor. -/
structure Covers (requestedPartitions : List (List UInt8)) (allow : Bool) (i : Image) (p : AvbPartitionData) (d : UInt64)
    (desc : AvbHashDescriptor) : Prop where
  listed : d ∈ i.descriptors
  valid : avbHashDescriptorValidateAndByteswap i.buf.mem d.toNat = some desc
  requested : i.buf.mem.read (d.toNat + sizeofAvbHashDescriptor) desc.partitionNameLen.toNat ∈ requestedPartitions
  name : ∀ name ∈ p.partitionName, name = i.buf.mem.read (d.toNat + sizeofAvbHashDescriptor) desc.partitionNameLen.toNat
  size : allow = false → p.dataSize = desc.imageSize
  hasDigest : desc.digestLen ≠ 0
  digest : imageDigest sha i.buf.mem d.toNat desc
      (p.data.mem.read p.data.addr (min p.dataSize.toNat desc.imageSize.toNat)) =
    some (i.buf.mem.read (d.toNat + sizeofAvbHashDescriptor + desc.partitionNameLen.toNat + desc.saltLen.toNat)
      desc.digestLen.toNat)

variable (requestedPartitions : List (List UInt8)) (allow : Bool)

/-- The slot's data while these images are verified. -/
structure Good (is : List Image) (d : AvbSlotVerifyData) : Prop where
  images : d.vbmetaImages = is.map Image.entry
  partitions : ∀ p ∈ d.loadedPartitions, ∃ i ∈ is, ∃ o desc, Covers sha requestedPartitions allow i p o desc
  rollback : ∀ l, d.rollbackIndexes l ≠ 0 → ∃ i ∈ is, l < AVB_MAX_NUMBER_OF_ROLLBACK_INDEX_LOCATIONS ∧
    i.header.rollbackIndex = d.rollbackIndexes l ∧ i.NotRolledBack ops (UInt32.ofNat l)

end Evidence

section Steps

variable {requestedPartitions : List (List UInt8)} {allow : Bool} {is : List Image}

theorem good_respects : Respects fun s => Good sha ops requestedPartitions allow is s.data := by
  intro s s' h hsame
  refine ⟨hsame.images.trans h.images, fun p hp => ?_, fun l hl => ?_⟩
  · rw [hsame.partitions] at hp
    exact h.partitions p hp
  · rw [hsame.rollback] at hl ⊢
    exact h.rollback l hl

theorem Good.zero : Good sha ops requestedPartitions allow [] .zero :=
  ⟨rfl, fun _ hp => absurd hp List.not_mem_nil, fun _ hl => absurd rfl hl⟩

/-- A verified image more. -/
theorem Good.add_image {d : AvbSlotVerifyData} (h : Good sha ops requestedPartitions allow is d) (i : Image) :
    Good sha ops requestedPartitions allow (is ++ [i]) { d with vbmetaImages := d.vbmetaImages ++ [i.entry] } := by
  refine ⟨?_, fun p hp => ?_, fun l hl => ?_⟩
  · simp [h.images]
  · obtain ⟨j, hj, hcovers⟩ := h.partitions p hp
    exact ⟨j, List.mem_append_left _ hj, hcovers⟩
  · obtain ⟨j, hj, hrest⟩ := h.rollback l hl
    exact ⟨j, List.mem_append_left _ hj, hrest⟩

/-- A covered partition more. -/
theorem Good.add_partition {d : AvbSlotVerifyData} (h : Good sha ops requestedPartitions allow is d) {i : Image} (hi : i ∈ is)
    {p : AvbPartitionData} {o : UInt64} {desc : AvbHashDescriptor} (hp : Covers sha requestedPartitions allow i p o desc) :
    Good sha ops requestedPartitions allow is { d with loadedPartitions := d.loadedPartitions ++ [p] } := by
  refine ⟨h.images, fun q hq => ?_, h.rollback⟩
  rcases List.mem_append.mp hq with hold | hnew
  · exact h.partitions q hold
  · rw [List.mem_singleton] at hnew
    exact ⟨i, hi, o, desc, hnew ▸ hp⟩

/-- The rollback index of a verified image. -/
theorem Good.set_rollback {d : AvbSlotVerifyData} (h : Good sha ops requestedPartitions allow is d) {i : Image} (hi : i ∈ is)
    {location : UInt32} (hlt : location.toNat < AVB_MAX_NUMBER_OF_ROLLBACK_INDEX_LOCATIONS)
    (hold : i.NotRolledBack ops location) : Good sha ops requestedPartitions allow is
      { d with rollbackIndexes := Function.update d.rollbackIndexes location.toNat i.header.rollbackIndex } := by
  refine ⟨h.images, h.partitions, fun l hl => ?_⟩
  by_cases heq : l = location.toNat
  · subst heq
    refine ⟨i, hi, hlt, by simp, ?_⟩
    rwa [UInt32.ofNat_toNat]
  · simp only [Function.update_of_ne heq] at hl ⊢
    exact h.rollback l hl

/-! ## Hash descriptors -/

theorem readPersistentDigest_none (hpers : ops.persistent = none) (partName : List UInt8) (size : ℕ)
    (initialDigest : Option (List UInt8)) :
    Ans (readPersistentDigest ops partName size initialDigest) fun r => r.1 = .errorInvalidMetadata := by
  unfold readPersistentDigest readPersistentDigestWith
  rw [hpers]
  exact Ans.pure rfl

/-- Without persistent values a digest is right only where it is that in the descriptor. -/
theorem checkDigest_ans (hpers : ops.persistent = none) (m : Mem) (descriptor : ℕ) (desc : AvbHashDescriptor)
    (partName : List UInt8) (buf : Buffer) (imageSize : UInt64) :
    Ans (checkDigest sha ops m descriptor desc partName buf imageSize) fun ret => ret = .ok → desc.digestLen ≠ 0 ∧
      imageDigest sha m descriptor desc (buf.mem.read buf.addr (min imageSize.toNat desc.imageSize.toNat)) =
        some (m.read (descriptor + sizeofAvbHashDescriptor + desc.partitionNameLen.toNat + desc.saltLen.toNat)
          desc.digestLen.toNat) := by
  have hmin : (if desc.imageSize > imageSize then imageSize else desc.imageSize).toNat =
      min imageSize.toNat desc.imageSize.toNat := by
    split_ifs with h
    · exact (Nat.min_eq_left (UInt64.lt_iff_toNat_lt.mp h).le).symm
    · exact (Nat.min_eq_right (UInt64.le_iff_toNat_le.mp (UInt64.not_lt.mp h))).symm
  unfold checkDigest
  simp only [hmin]
  rcases hdigest : imageDigest sha m descriptor desc (buf.mem.read buf.addr (min imageSize.toNat desc.imageSize.toNat))
    with - | digest
  · exact Ans.pure fun h => by cases h
  refine Ans.ite (fun _ => ?_) fun hlen => Ans.ite (fun _ => Ans.pure fun h => by cases h) fun hsize => Ans.pure fun h => ?_
  · refine Ans.bind (readPersistentDigest_none hpers _ _ _) fun r hr => Ans.ite (fun _ => Ans.pure fun h => ?_) fun hne => ?_
    · rw [hr] at h
      cases h
    · exact absurd (hr.trans_ne VerifyResult.noConfusion) hne
  · refine ⟨hlen, ?_⟩
    split_ifs at h with hdiff
    have hsame := (avbSafeMemcmp_iff (by rw [Mem.length_read]; exact not_not.mp hsize)).mp (Bool.eq_false_iff.mpr hdiff)
    rw [← hsame]

theorem imageSizeToLoad_ans (partName : List UInt8) (desc : AvbHashDescriptor) :
    Ans (imageSizeToLoad ops allow partName desc) fun r => ∀ size, r = .ok size → allow = false → size = desc.imageSize := by
  refine Ans.ite (fun hallow => ?_) fun _ => Ans.pure fun size h _ => ?_
  · exact (Ans.top _).mono fun _ _ _ _ hfalse => by rw [hallow] at hfalse; cases hfalse
  · cases h
    rfl

theorem loadFullPartition_ans (partName : List UInt8) (size : UInt64) :
    Ans (loadFullPartition ops partName size) fun r => r.1 = .ok → ∃ buf, r.2 = some buf := by
  refine Ans.bind (Ans.top _) fun buf _ => ?_
  rcases buf with - | buf
  · exact Ans.pure fun h => by cases h
  refine Ans.bind (Ans.top _) fun r _ => ?_
  rcases r with ⟨ioRet, n, mem⟩
  rcases hio : ioFailure ioRet with - | ret
  · simp only [hio]
    exact Ans.pure fun _ => ⟨_, rfl⟩
  · simp only [hio]
    exact Ans.pure fun _ => ⟨_, rfl⟩

theorem keepPartition_spec {ret : VerifyResult} {name : List UInt8} {buf : Buffer} {size : UInt64} {i : Image} (hi : i ∈ is)
    (hcovers : ret = .ok → ∃ d desc, ∀ named, named = some name ∨ named = none →
      Covers sha requestedPartitions allow i ⟨named, buf, size⟩ d desc) :
    Prog.Triple (fun s => Good sha ops requestedPartitions allow is s.data) (keepPartition ops ret name buf size)
      (fun ret s => ret = .ok → Good sha ops requestedPartitions allow is s.data) fun _ => True := by
  refine Prog.Triple.ite (fun _ => ?_) fun _ s hs _ => hs
  refine (Ans.top _).then Prog.Returns.get good_respects fun s _ => ?_
  refine Prog.Triple.ite (fun _ s _ h => by cases h) fun _ => ?_
  refine (Ans.top _).then (allocated_same _) good_respects fun named _ s hs hret => ?_
  obtain ⟨d, desc, hp⟩ := hcovers hret
  exact hs.add_partition hi (hp (if named then some name else none) (by cases named <;> simp))

/-- A hash descriptor of a verified image that succeeds leaves covered partitions only. -/
theorem loadAndVerifyHashPartition_spec (hpers : ops.persistent = none) (abSuffix : List UInt8) {i : Image} (hi : i ∈ is)
    {d : UInt64} (hd : d ∈ i.descriptors) :
    Prog.Triple (fun s => Good sha ops requestedPartitions allow is s.data)
      (loadAndVerifyHashPartition sha ops requestedPartitions abSuffix allow i.buf.mem d.toNat)
      (fun ret s => ret = .ok → Good sha ops requestedPartitions allow is s.data) fun _ => True := by
  unfold loadAndVerifyHashPartition
  rcases hdesc : avbHashDescriptorValidateAndByteswap i.buf.mem d.toNat with - | desc
  · exact fun s hs _ => hs
  refine Prog.Triple.ite (fun _ s hs _ => hs) fun _ => Prog.Triple.ite (fun _ s hs _ => hs) fun hreq => ?_
  rcases hashPartName desc (i.buf.mem.read (d.toNat + sizeofAvbHashDescriptor) desc.partitionNameLen.toNat) abSuffix
    with - | partName
  · exact fun s hs _ => hs
  refine (imageSizeToLoad_ans partName desc).then (imageSizeToLoad_same _ _ _) good_respects fun size hsize => ?_
  rcases size with ret | size
  · exact fun s hs _ => hs
  refine (loadFullPartition_ans partName size).then (loadFullPartition_same _ _) good_respects fun r hr => ?_
  rcases r with ⟨ret, buf⟩
  by_cases hret : ret = .ok
  · obtain ⟨buf, rfl⟩ := hr hret
    subst hret
    refine (checkDigest_ans hpers _ _ _ _ _ _).then (checkDigest_same _ _ _ _ _ _) good_respects fun ret hdigest => ?_
    refine keepPartition_spec hi fun hret => ⟨d, desc, fun named hnamed => ?_⟩
    obtain ⟨hlen, hsame⟩ := hdigest hret
    refine ⟨hd, hdesc, by simpa [avbStrvFindStr] using hreq, ?_, hsize size rfl, hlen, hsame⟩
    rcases hnamed with rfl | rfl
    · exact fun name hname => (Option.some.inj hname).symm
    · exact fun name hname => by cases hname
  · cases ret <;> first | exact absurd rfl hret | exact fun s hs h => by cases h

/-! ## Images -/

/-- An error is one, and the step has passed with `Q` where its result is still ok. -/
def Passed (Q : Prop) : Except VerifyResult VerifyResult → Prop
  | .error e => e ≠ .ok
  | .ok ret => ret = .ok → Q

/-- A failed call ends the verification, or is what it goes on with. -/
theorem Passed.failed {Q : Prop} {c : Prop} [Decidable c] {ret : VerifyResult} (h : ret ≠ .ok) :
    Passed Q (if c then .ok ret else .error ret) := by
  split
  · exact fun h' => absurd h' h
  · exact h

theorem Passed.allowing {Q : Prop} {ret : VerifyResult} (h : ret ≠ .ok) : Passed Q (allowing allow ret) :=
  Passed.failed h

theorem imageResult_error {v : AvbVBMetaVerifyResult} {e : VerifyResult} (h : imageResult allow v = .error e) : e ≠ .ok := by
  cases v with
  | ok => cases h
  | okNotSigned | hashMismatch | signatureMismatch =>
    rw [allowing_error h]
    exact VerifyResult.noConfusion
  | invalidVbmetaHeader | unsupportedVersion =>
    cases h
    exact VerifyResult.noConfusion

theorem imageResult_ok {v : AvbVBMetaVerifyResult} (h : imageResult allow v = .ok .ok) : v = .ok := by
  cases v with
  | ok => rfl
  | okNotSigned | hashMismatch | signatureMismatch => cases allowing_ok h
  | invalidVbmetaHeader | unsupportedVersion => cases h

theorem checkPublicKey_ans (args : VbmetaArgs) (buf : Buffer) (h : AvbVBMetaImageHeader) (pk : Option (ℕ × ℕ))
    (ret : VerifyResult) :
    Ans (checkPublicKey ops allow args buf h pk ret) <| Passed <| ret = .ok ∧ ∀ pkData pkLen, pk = some (pkData, pkLen) →
      (∀ expected, args.expectedPublicKey = some expected → expected = buf.mem.read pkData pkLen) ∧
      (args.expectedPublicKey = none → ∃ t metadata,
        ops.validateVbmetaPublicKey t (buf.mem.read pkData pkLen) metadata = (.ok, true)) := by
  unfold checkPublicKey
  rcases pk with - | ⟨pkData, pkLen⟩
  · exact Ans.pure fun hret => ⟨hret, fun _ _ h => by cases h⟩
  simp only
  rcases hexp : args.expectedPublicKey with - | expected
  · refine Ans.bind (call_ans _) fun r hr => ?_
    obtain ⟨t, ht⟩ := hr
    rcases r with ⟨ioRet, keyIsTrusted⟩
    rcases hio : ioFailure ioRet with - | e
    · refine Ans.pure ?_
      split
      · rename_i htrusted
        obtain rfl : keyIsTrusted = true := htrusted
        rw [ioFailure_eq_none hio] at ht
        refine fun hret => ⟨hret, fun a n heq => ⟨fun _ he => (by cases he), fun _ => ?_⟩⟩
        cases heq
        exact ⟨t, _, ht.symm⟩
      · exact Passed.allowing VerifyResult.noConfusion
    · exact Ans.pure (ioFailure_ne_ok hio)
  · refine Ans.ite (fun _ => Ans.pure (Passed.allowing VerifyResult.noConfusion)) fun hsame => Ans.pure fun hret => ?_
    push Not at hsame
    have hkey := (avbSafeMemcmp_iff (by rw [Mem.length_read]; exact hsame.1)).mp (Bool.eq_false_iff.mpr hsame.2)
    refine ⟨hret, fun a n heq => ⟨fun e he => ?_, fun he => by cases he⟩⟩
    cases heq
    exact (Option.some.inj he).symm.trans hkey

theorem checkRollbackIndex_ans (args : VbmetaArgs) (h : AvbVBMetaImageHeader) (ret : VerifyResult) :
    Ans (checkRollbackIndex ops allow args h ret) <| Passed <| ret = .ok ∧ ∃ t stored,
      ops.readRollbackIndex t args.rollbackIndexLocation = (.ok, stored) ∧ stored ≤ h.rollbackIndex := by
  refine Ans.bind (call_ans _) fun r hr => ?_
  obtain ⟨t, ht⟩ := hr
  rcases r with ⟨ioRet, stored⟩
  rcases hio : ioFailure ioRet with - | e
  · simp only [hio]
    refine Ans.pure ?_
    split
    · exact Passed.allowing VerifyResult.noConfusion
    · rename_i hle
      rw [ioFailure_eq_none hio] at ht
      exact fun hret => ⟨hret, t, stored, ht.symm, UInt64.not_lt.mp hle⟩
  · simp only [hio]
    exact Ans.pure (ioFailure_ne_ok hio)

/-- What the checks of an image say about it. -/
structure Checked (sha : Hashes) (ops : AvbOps) (args : VbmetaArgs) (i : Image) : Prop where
  verified : i.Verified sha ops
  key : ∀ expected, args.expectedPublicKey = some expected → expected = i.key
  trusted : args.expectedPublicKey = none → i.Trusted ops
  notRolledBack : i.NotRolledBack ops args.rollbackIndexLocation
  flags : args.isMainVbmeta = false → i.header.flags = 0

theorem checkImage_spec (hsha : sha.Sized) (args : VbmetaArgs) (i : Image) :
    Prog.Triple (fun s => Good sha ops requestedPartitions allow is s.data)
      (checkImage sha ops allow args i.buf i.numRead)
      (fun r s => Passed (Good sha ops requestedPartitions allow (is ++ [i]) s.data ∧ Checked sha ops args i) r)
      fun _ => True := by
  unfold checkImage
  refine (call_ans _).then (call_same _) good_respects fun alloc halloc => ?_
  obtain ⟨t, rfl⟩ := halloc
  rcases hverify : avbVbmetaImageVerify sha (ops.rsaMallocs t) i.buf.mem i.buf.addr i.numRead.toNat with ⟨vbmetaRet, pk⟩
  simp only
  rcases himage : imageResult allow vbmetaRet with e | ret
  · exact fun s _ => imageResult_error himage
  simp only
  refine Prog.Triple.ite (fun _ s _ => VerifyResult.noConfusion) fun hflags => ?_
  refine (checkPublicKey_ans args i.buf _ pk ret).then (checkPublicKey_same _ _ _ _ _ _) good_respects fun r hr => ?_
  rcases r with e | ret'
  · exact fun s _ => hr
  refine (checkRollbackIndex_ans args _ ret').then (checkRollbackIndex_same _ _ _ _) good_respects fun r' hr' => ?_
  rcases r' with e | ret''
  · exact fun s _ => hr'
  refine (Ans.top _).then Prog.Returns.get good_respects fun s _ => ?_
  refine Prog.Triple.ite (fun _ s _ => VerifyResult.noConfusion) fun _ s hs hret => ?_
  -- the result is still ok, so it was ok after each step
  obtain ⟨hret', hrollback⟩ := hr' hret
  obtain ⟨rfl, hkey⟩ := hr hret'
  obtain rfl := imageResult_ok himage
  have hver : (avbVbmetaImageVerify sha (ops.rsaMallocs t) i.buf.mem i.buf.addr i.numRead.toNat).1 = .ok := by rw [hverify]
  obtain ⟨hpk, -⟩ := verify_ok_key hsha hver
  rw [hverify] at hpk
  obtain ⟨hexpected, htrusted⟩ := hkey _ _ hpk
  refine ⟨hs.add_image i, ⟨t, hver⟩, hexpected, htrusted, hrollback, fun hmain => ?_⟩
  by_contra hne
  exact hflags ⟨by rw [hmain]; rfl, hne⟩

/-! ## Descriptors -/

section Descriptors

variable {J : State → Prop} {ret : VerifyResult} {abSuffix : List UInt8} {recurse : VbmetaArgs → Prog State VerifyResult}
  {args : VbmetaArgs} {flags : UInt32} {m : Mem} {descriptor : ℕ}

/-- A call for a descriptor, made while the result is `ret`. -/
theorem call_while {x : Prog State VerifyResult} (h : Prog.Triple J x (fun r s => r = .ok → J s) fun _ => True) :
    Prog.Triple (fun s => ret = .ok → J s) x (fun r s => r = .ok → ret = .ok → J s) fun _ => True := by
  by_cases hret : ret = .ok
  · exact Prog.Triple.conseq h (fun _ hs => hs hret) (fun _ _ hr hok _ => hr hok) fun _ _ => trivial
  · exact Prog.Triple.conseq (Prog.Triple.top x) (fun _ _ => trivial) (fun _ _ _ _ hok => absurd hok hret) fun _ _ => trivial

theorem processHash_spec (hhash : Prog.Triple J
      (loadAndVerifyHashPartition sha ops requestedPartitions abSuffix allow m descriptor) (fun r s => r = .ok → J s)
      fun _ => True) :
    Prog.Triple (fun s => ret = .ok → J s) (processHash sha ops requestedPartitions abSuffix allow m descriptor ret)
      (fun r s => Passed (ret = .ok ∧ J s) r) fun _ => True := by
  refine Prog.Triple.bind (call_while hhash) fun subRet => Prog.Triple.ite (fun hne s _ => ?_) fun hok s hs hret => ?_
  · exact Passed.failed hne
  · exact ⟨hret, hs (not_not.mp hok) hret⟩

theorem processChain_spec (hchain : ∀ desc, avbChainPartitionDescriptorValidateAndByteswap m descriptor = some desc →
      args.isMainVbmeta = true → desc.rollbackIndexLocation ≠ 0 → Prog.Triple J (recurse ⟨flags, desc.rollbackIndexLocation,
        ⟨m, descriptor + sizeofAvbChainPartitionDescriptor⟩, desc.partitionNameLen.toNat,
        some (m.read (descriptor + sizeofAvbChainPartitionDescriptor + desc.partitionNameLen.toNat) desc.publicKeyLen.toNat),
        false⟩) (fun r s => r = .ok → J s) fun _ => True) :
    Prog.Triple (fun s => ret = .ok → J s) (processChain recurse args flags m descriptor ret)
      (fun r s => Passed (ret = .ok ∧ J s) r) fun _ => True := by
  unfold processChain
  refine Prog.Triple.ite (fun _ _ _ => VerifyResult.noConfusion) fun hmain => ?_
  rcases hdesc : avbChainPartitionDescriptorValidateAndByteswap m descriptor with - | desc
  · exact fun _ _ => VerifyResult.noConfusion
  refine Prog.Triple.ite (fun _ _ _ => VerifyResult.noConfusion) fun hlocation => ?_
  refine Prog.Triple.bind (call_while (hchain desc hdesc (by simpa using hmain) hlocation)) fun subRet =>
    Prog.Triple.ite (fun hne s _ => ?_) fun hok s hs hret => ?_
  · exact Passed.failed hne
  · exact ⟨hret, hs (not_not.mp hok) hret⟩

theorem processKernelCmdline_ans : Ans (processKernelCmdline ops flags m descriptor ret) (Passed (ret = .ok)) := by
  unfold processKernelCmdline
  rcases avbKernelCmdlineDescriptorValidateAndByteswap m descriptor with - | desc
  · exact Ans.pure VerifyResult.noConfusion
  refine Ans.ite (fun _ => Ans.pure VerifyResult.noConfusion) fun _ => Ans.ite (fun _ => Ans.pure id) fun _ => ?_
  refine Ans.bind (Ans.top _) fun _ _ => Ans.bind (Ans.top _) fun _ _ =>
    Ans.ite (fun _ => Ans.pure VerifyResult.noConfusion) fun _ => ?_
  exact Ans.bind (Ans.top _) fun _ _ => Ans.pure id

/-- Without persistent values a hashtree descriptor forgets nothing. -/
theorem processHashtree_ans (hpers : ops.persistent = none) (top : Bool) :
    Ans (processHashtree ops abSuffix top m descriptor ret) (Passed (ret = .ok)) := by
  unfold processHashtree
  rcases avbHashtreeDescriptorValidateAndByteswap m descriptor with - | desc
  · exact Ans.pure VerifyResult.noConfusion
  refine Ans.ite (fun _ => Ans.pure id) fun _ => Ans.ite (fun _ => Ans.pure VerifyResult.noConfusion) fun _ =>
    Ans.ite (fun _ => Ans.pure VerifyResult.noConfusion) fun _ =>
      Ans.ite (fun _ => Ans.pure VerifyResult.noConfusion) fun _ => ?_
  rcases hashtreeDigestLen m descriptor with - | digestLen
  · exact Ans.pure VerifyResult.noConfusion
  refine Ans.bind (readPersistentDigest_none hpers _ _ _) fun r hr => Ans.ite (fun hne => Ans.pure hne) fun hok => ?_
  rw [hr] at hok
  exact absurd VerifyResult.noConfusion hok

/-- A step that leaves the verified data alone. -/
theorem step_of_ans {x : Prog State (Except VerifyResult VerifyResult)} (hx : Ans x (Passed (ret = .ok)))
    (hsame : Prog.Returns Same x) (hJ : Respects J) :
    Prog.Triple (fun s => ret = .ok → J s) x (fun r s => Passed (ret = .ok ∧ J s) r) fun _ => True := by
  have hkeep : Respects fun s => ret = .ok → J s := fun s s' hs hss hret => hJ s s' (hs hret) hss
  refine Prog.Triple.conseq (Prog.Triple.and (hsame.keeps.triple hkeep) hx) (fun _ hs => ⟨hs, trivial⟩) (fun r s h => ?_)
    fun _ _ => trivial
  rcases r with e | ret'
  · exact h.2
  · exact fun hret' => ⟨h.2 hret', h.1 (h.2 hret')⟩

theorem processDescriptor_spec (hpers : ops.persistent = none) (hJ : Respects J)
    (hhash : Prog.Triple J (loadAndVerifyHashPartition sha ops requestedPartitions abSuffix allow m descriptor)
      (fun r s => r = .ok → J s) fun _ => True)
    (hchain : ∀ desc, avbChainPartitionDescriptorValidateAndByteswap m descriptor = some desc →
      args.isMainVbmeta = true → desc.rollbackIndexLocation ≠ 0 → Prog.Triple J (recurse ⟨flags, desc.rollbackIndexLocation,
        ⟨m, descriptor + sizeofAvbChainPartitionDescriptor⟩, desc.partitionNameLen.toNat,
        some (m.read (descriptor + sizeofAvbChainPartitionDescriptor + desc.partitionNameLen.toNat) desc.publicKeyLen.toNat),
        false⟩) (fun r s => r = .ok → J s) fun _ => True) :
    Prog.Triple (fun s => ret = .ok → J s)
      (processDescriptor sha ops requestedPartitions abSuffix allow recurse args flags m descriptor ret)
      (fun r s => Passed (ret = .ok ∧ J s) r) fun _ => True := by
  unfold processDescriptor
  rcases avbDescriptorValidateAndByteswap m descriptor with - | desc
  · exact fun _ _ => VerifyResult.noConfusion
  refine Prog.Triple.ite (fun _ => processHash_spec hhash) fun _ => ?_
  refine Prog.Triple.ite (fun _ => processChain_spec hchain) fun _ => ?_
  refine Prog.Triple.ite (fun _ => step_of_ans processKernelCmdline_ans (processKernelCmdline_same _ _ _ _) hJ) fun _ => ?_
  refine Prog.Triple.ite (fun _ => step_of_ans (processHashtree_ans hpers _) (processHashtree_same _ _ _ _ _) hJ) fun _ => ?_
  exact fun s hs hret => ⟨hret, hs hret⟩

theorem processDescriptors_spec {descriptors : List UInt64} (h : ∀ d ∈ descriptors, ∀ ret,
      Prog.Triple (fun s => ret = .ok → J s)
        (processDescriptor sha ops requestedPartitions abSuffix allow recurse args flags m d.toNat ret)
        (fun r s => Passed (ret = .ok ∧ J s) r) fun _ => True) :
    Prog.Triple (fun s => ret = .ok → J s)
      (processDescriptors sha ops requestedPartitions abSuffix allow recurse args flags m descriptors ret)
      (fun r s => Passed (J s) r) fun _ => True := by
  induction descriptors generalizing ret with
  | nil => exact fun s hs => hs
  | cons d descriptors ih =>
    refine Prog.Triple.bind (h d (by simp) ret) fun r => ?_
    rcases r with e | ret'
    · exact fun s hs => hs
    · refine Prog.Triple.conseq (ih fun d' hd' => h d' (by simp [hd'])) (fun s hs hret => (hs hret).2) (fun _ _ h => h)
        fun _ _ => trivial

end Descriptors

/-! ## A vbmeta image and what it leads to -/

section Vbmeta

variable {abSuffix : List UInt8} {recurse : VbmetaArgs → Prog State VerifyResult}

theorem readVbmeta_ans (name : List UInt8) (isMain look : Bool) : Ans (readVbmeta ops name isMain look) fun r =>
    (r = .tryBoot → isMain = true ∧ look = false) ∧ ∀ ret, r = .failed ret → ret ≠ .ok := by
  have hlocate : Ans (locateVbmeta ops name look) fun r => ∀ ret, r = .error ret → ret ≠ .ok := by
    refine Ans.ite (fun _ => Ans.bind (Ans.top _) fun r _ => ?_) fun _ => Ans.pure fun _ h => by cases h
    rcases r with ⟨ioRet, n, footerBuf⟩
    rcases hio : ioFailure ioRet with - | ret
    · simp only [hio]
      rcases avbFooterValidateAndByteswap footerBuf 0 with - | footer
      · exact Ans.pure fun _ h => by cases h
      · exact Ans.pure fun _ h => by cases h
    · simp only [hio]
      refine Ans.pure fun ret h => ?_
      cases h
      exact ioFailure_ne_ok hio
  refine Ans.bind hlocate fun r hr => ?_
  rcases r with ret | ⟨offset, size⟩
  · refine Ans.pure ⟨fun h => (by cases h), fun ret' h => ?_⟩
    cases h
    exact hr ret rfl
  refine Ans.bind (Ans.top _) fun buf _ => ?_
  rcases buf with - | buf
  · refine Ans.pure ⟨fun h => (by cases h), fun ret' h => ?_⟩
    cases h
    exact VerifyResult.noConfusion
  refine Ans.bind (Ans.top _) fun r _ => ?_
  rcases r with ⟨ioRet, n, mem⟩
  refine Ans.ite (fun _ => Ans.pure ⟨fun h => (by cases h), fun ret' h => by cases h⟩) fun _ => ?_
  refine Ans.ite (fun htry => Ans.pure ⟨fun _ => ⟨htry.1, by simpa using htry.2.2⟩, fun ret' h => by cases h⟩) fun _ => ?_
  refine Ans.pure ⟨fun h => (by cases h), fun ret' h => ?_⟩
  cases h
  split <;> exact VerifyResult.noConfusion

/-- The end of an image, which sets a rollback index. -/
theorem finishVbmeta_spec {J : State → Prop} {args : VbmetaArgs} {h : AvbVBMetaImageHeader} {ret : VerifyResult}
    (hset : ∀ s t, J s → args.rollbackIndexLocation.toNat < AVB_MAX_NUMBER_OF_ROLLBACK_INDEX_LOCATIONS → t.data =
      { s.data with rollbackIndexes :=
        Function.update s.data.rollbackIndexes args.rollbackIndexLocation.toNat h.rollbackIndex } → J t) :
    Prog.Triple (fun s => ret = .ok → J s) (finishVbmeta args h ret) (fun r s => r = .ok → J s ∧
      args.rollbackIndexLocation.toNat < AVB_MAX_NUMBER_OF_ROLLBACK_INDEX_LOCATIONS) fun _ => True := by
  refine Prog.Triple.ite (fun _ _ _ h => by cases h) fun hle => ?_
  have hlt := not_le.mp hle
  refine Prog.Triple.bind (R := fun _ s => ret = .ok → ∀ t : State, t.data = s.data → J t) ?_ fun _ => ?_
  · exact fun s hs hret t ht => hset s t (hs hret) hlt ht
  · cases args.top
    · exact fun s hs hret => ⟨hs hret s rfl, hlt⟩
    · exact fun s hs hret => ⟨hs hret _ rfl, hlt⟩

/-- From the checked image on, where the descriptors keep `J` and both ways to the end lead from it to `K`. -/
theorem processImage_spec {J K : State → Prop} {args : VbmetaArgs} {i : Image} {ret : VerifyResult}
    (hdescriptor : ∀ flags, ∀ d ∈ i.descriptors, ∀ ret, Prog.Triple (fun s => ret = .ok → J s)
      (processDescriptor sha ops requestedPartitions abSuffix allow recurse args flags i.buf.mem d.toNat ret)
      (fun r s => Passed (ret = .ok ∧ J s) r) fun _ => True)
    (hload : i.header.flags &&& AVB_VBMETA_IMAGE_FLAGS_VERIFICATION_DISABLED ≠ 0 → Prog.Triple J
      (loadRequestedPartitions ops abSuffix requestedPartitions) (fun _ => K) fun _ => True)
    (hfinish : i.header.flags &&& AVB_VBMETA_IMAGE_FLAGS_VERIFICATION_DISABLED = 0 → ∀ ret,
      Prog.Triple (fun s => ret = .ok → J s) (finishVbmeta args i.header ret) (fun r s => r = .ok → K s) fun _ => True) :
    Prog.Triple (fun s => ret = .ok → J s)
      (processImage sha ops requestedPartitions abSuffix allow recurse args i.buf i.numRead ret)
      (fun r s => r = .ok → K s) fun _ => True := by
  refine Prog.Triple.ite (fun hdisabled => ?_) fun henabled => ?_
  · refine Prog.Triple.bind (R := fun _ s => ret = .ok → K s) ?_ fun subRet s hs => ?_
    · by_cases hret : ret = .ok
      · exact Prog.Triple.conseq (hload hdisabled) (fun s hs => hs hret) (fun _ s hs _ => hs) fun _ _ => trivial
      · exact Prog.Triple.conseq (Prog.Triple.top _) (fun _ _ => trivial) (fun _ _ _ h => absurd h hret) fun _ _ => trivial
    · change (if _ then _ else _) = _ → _
      split
      · rename_i hne
        exact fun h => absurd h hne
      · exact hs
  · refine Prog.Triple.bind (processDescriptors_spec (hdescriptor _)) fun r => ?_
    rcases r with e | ret'
    · exact fun s hs h => absurd h hs
    · exact hfinish (not_not.mp henabled) ret'

/-- An image that is not the main one: what it calls plays no part. -/
theorem loadChained_spec (hsha : sha.Sized) (hpers : ops.persistent = none) {args : VbmetaArgs}
    (hmain : args.isMainVbmeta = false) :
    Prog.Triple (fun s => Good sha ops requestedPartitions allow is s.data)
      (loadAndVerifyVbmetaWith sha ops requestedPartitions abSuffix allow recurse args)
      (fun r s => r = .ok → ∃ i, Good sha ops requestedPartitions allow (is ++ [i]) s.data ∧ Checked sha ops args i ∧
        args.rollbackIndexLocation.toNat < AVB_MAX_NUMBER_OF_ROLLBACK_INDEX_LOCATIONS) fun _ => True := by
  unfold loadAndVerifyVbmetaWith
  refine Prog.Triple.ite (fun _ _ _ h => by cases h) fun _ => ?_
  rcases avbStrConcat args.name abSuffix with - | name
  · exact fun _ _ h => by cases h
  refine (readVbmeta_ans _ _ _).then (readVbmeta_same _ _ _) good_respects fun r hr => ?_
  cases r with
  | failed ret => exact fun s _ h => absurd h (hr.2 ret rfl)
  | tryBoot => exact absurd (hr.1 rfl).1 (by rw [hmain]; exact Bool.false_ne_true)
  | image buf numRead =>
    obtain ⟨i, rfl, rfl⟩ : ∃ i : Image, i.buf = buf ∧ i.numRead = numRead := ⟨⟨buf, numRead⟩, rfl, rfl⟩
    refine Prog.Triple.bind (checkImage_spec hsha args i) fun r => ?_
    rcases r with e | ret
    · exact fun s hs h => absurd h hs
    have hi : i ∈ is ++ [i] := List.mem_append_right _ (by simp)
    let J (s : State) : Prop := Checked sha ops args i ∧ Good sha ops requestedPartitions allow (is ++ [i]) s.data
    have himage : Prog.Triple (fun s => ret = .ok → J s)
        (processImage sha ops requestedPartitions abSuffix allow recurse args i.buf i.numRead ret)
        (fun r s => r = .ok → J s ∧ args.rollbackIndexLocation.toNat < AVB_MAX_NUMBER_OF_ROLLBACK_INDEX_LOCATIONS)
        fun _ => True := by
      apply processImage_spec
      · intro flags d hd ret
        apply processDescriptor_spec hpers (fun s s' hs hsame => ⟨hs.1, good_respects s s' hs.2 hsame⟩)
        · refine Prog.Triple.given fun hc => ?_
          exact Prog.Triple.conseq (loadAndVerifyHashPartition_spec hpers abSuffix hi hd) (fun _ hs => hs)
            (fun _ _ hr hok => ⟨hc, hr hok⟩) fun _ _ => trivial
        · exact fun _ _ h => absurd (hmain.symm.trans h) Bool.false_ne_true
      · intro hdisabled
        refine Prog.Triple.given fun hc => ?_
        rw [hc.flags hmain] at hdisabled
        exact absurd rfl hdisabled
      · refine fun _ _ => finishVbmeta_spec fun s t hs hlt ht => ⟨hs.1, ?_⟩
        rw [ht]
        exact hs.2.set_rollback hi hlt hs.1.notRolledBack
    refine Prog.Triple.conseq himage (fun s hs hret => ?_) (fun r s hr hret => ?_) fun _ _ => trivial
    · obtain ⟨hgood, hc⟩ := hs hret
      exact ⟨hc, hgood⟩
    · obtain ⟨⟨hc, hgood⟩, hlt⟩ := hr hret
      exact ⟨i, hgood, hc, hlt⟩

end Vbmeta

end Steps

end RCar.SlotVerify
