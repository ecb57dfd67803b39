import RCarM3N.Proofs.SlotChain

/-! The verification of a slot returns: `load_and_verify_vbmeta` is at most three calls deep, whatever the chain
descriptors of the images say. -/

namespace RCar.SlotVerify

open UBoot (IoResult VerifyResult)
open AvbRsa VbMeta

variable {sha : Hashes} {ops : AvbOps} {requestedPartitions : List (List UInt8)} {allow : Bool} {abSuffix : List UInt8}
  {recurse : VbmetaArgs → Prog State VerifyResult} {args : VbmetaArgs}

def AnyStates (_ _ : State) : Prop := True

instance anyStates_preorder : IsPreorder State AnyStates where
  refl _ := trivial
  trans _ _ _ _ _ := trivial

theorem always {α : Type} {x : Prog State α} (h : Prog.Returns Same x) : Prog.Returns AnyStates x :=
  h.mono fun _ _ _ => trivial

theorem always_modify (f : State → State) : Prog.Returns AnyStates (Prog.modify f) :=
  Prog.Returns.modify fun _ => trivial

theorem keepPartition_returns (ret : VerifyResult) (name : List UInt8) (buf : Buffer) (size : UInt64) :
    Prog.Returns AnyStates (keepPartition ops ret name buf size) := by
  refine Prog.Returns.ite ?_ (Prog.Returns.pure _)
  refine Prog.Returns.bind Prog.Returns.get fun s => Prog.Returns.early ?_
  refine Prog.Returns.bind (always (allocated_same _)) fun _ => ?_
  exact Prog.Returns.map (always_modify _)

theorem loadAndVerifyHashPartition_returns (m : Mem) (descriptor : ℕ) : Prog.Returns AnyStates
    (loadAndVerifyHashPartition sha ops requestedPartitions abSuffix allow m descriptor) := by
  unfold loadAndVerifyHashPartition
  rcases avbHashDescriptorValidateAndByteswap m descriptor with - | desc
  · exact Prog.Returns.pure _
  refine Prog.Returns.early (Prog.Returns.early ?_)
  rcases hashPartName desc (m.read (descriptor + sizeofAvbHashDescriptor) desc.partitionNameLen.toNat) abSuffix
    with - | partName
  · exact Prog.Returns.pure _
  refine Prog.Returns.bind (always (imageSizeToLoad_same _ _ _)) fun size => ?_
  rcases size with ret | size
  · exact Prog.Returns.pure _
  refine Prog.Returns.bind (always (loadFullPartition_same _ _)) fun r => ?_
  rcases r with ⟨ret, buf⟩
  split
  · exact Prog.Returns.bind (always (checkDigest_same _ _ _ _ _ _)) fun ret => keepPartition_returns _ _ _ _
  · exact Prog.Returns.pure _

theorem checkImage_returns (args : VbmetaArgs) (buf : Buffer) (numRead : UInt64) :
    Prog.Returns AnyStates (checkImage sha ops allow args buf numRead) := by
  unfold checkImage
  refine Prog.Returns.bind (always (call_same _)) fun alloc => ?_
  rcases avbVbmetaImageVerify sha alloc buf.mem buf.addr numRead.toNat with ⟨vbmetaRet, pk⟩
  simp only
  rcases imageResult allow vbmetaRet with e | ret
  · exact Prog.Returns.pure _
  simp only
  refine Prog.Returns.early ?_
  refine Prog.Returns.bind (always (checkPublicKey_same _ _ _ _ _ _)) fun r => ?_
  rcases r with e | ret'
  · exact Prog.Returns.pure _
  refine Prog.Returns.bind (always (checkRollbackIndex_same _ _ _ _)) fun r => ?_
  rcases r with e | ret''
  · exact Prog.Returns.pure _
  refine Prog.Returns.bind Prog.Returns.get fun s => Prog.Returns.early ?_
  exact Prog.Returns.map (always_modify _)

/-! ## Descriptors -/

/-- Only the main image calls for another one, which is not a main image. -/
theorem processChain_returns (hchain : args.isMainVbmeta = true → ∀ sub : VbmetaArgs, sub.isMainVbmeta = false →
      Prog.Returns AnyStates (recurse sub)) (flags : UInt32) (m : Mem) (descriptor : ℕ) (ret : VerifyResult) :
    Prog.Returns AnyStates (processChain recurse args flags m descriptor ret) := by
  unfold processChain
  split
  · exact Prog.Returns.pure _
  rename_i hmain
  rcases avbChainPartitionDescriptorValidateAndByteswap m descriptor with - | desc
  · exact Prog.Returns.pure _
  simp only
  split
  · exact Prog.Returns.pure _
  rename_i hlocation
  exact Prog.Returns.bind (hchain (by simpa using hmain) _ (decide_eq_false hlocation)) fun subRet =>
    Prog.Returns.early (Prog.Returns.pure _)

theorem processDescriptors_returns (hchain : args.isMainVbmeta = true → ∀ sub : VbmetaArgs, sub.isMainVbmeta = false →
      Prog.Returns AnyStates (recurse sub)) (flags : UInt32) (m : Mem) (descriptors : List UInt64) (ret : VerifyResult) :
    Prog.Returns AnyStates
      (processDescriptors sha ops requestedPartitions abSuffix allow recurse args flags m descriptors ret) := by
  induction descriptors generalizing ret with
  | nil => exact Prog.Returns.pure _
  | cons d descriptors ih =>
    have hone : Prog.Returns AnyStates
        (processDescriptor sha ops requestedPartitions abSuffix allow recurse args flags m d.toNat ret) := by
      unfold processDescriptor
      rcases avbDescriptorValidateAndByteswap m d.toNat with - | desc
      · exact Prog.Returns.pure _
      have hhash : Prog.Returns AnyStates (processHash sha ops requestedPartitions abSuffix allow m d.toNat ret) :=
        Prog.Returns.bind (loadAndVerifyHashPartition_returns _ _) fun _ =>
          Prog.Returns.early (Prog.Returns.pure _)
      refine Prog.Returns.ite hhash (Prog.Returns.ite (processChain_returns hchain _ _ _ _) ?_)
      refine Prog.Returns.ite (always (processKernelCmdline_same _ _ _ _)) ?_
      exact Prog.Returns.ite (always (processHashtree_same _ _ _ _ _)) (Prog.Returns.pure _)
    refine Prog.Returns.bind hone fun r => ?_
    rcases r with e | ret'
    · exact Prog.Returns.pure _
    · exact ih ret'

/-! ## Images -/

theorem loadAndVerifyVbmetaWith_returns
    (hboot : args.isMainVbmeta = true → args.lookForVbmetaFooter = false →
      Prog.Returns AnyStates (recurse (mainArgs (text "boot"))))
    (hchain : args.isMainVbmeta = true → ∀ sub : VbmetaArgs, sub.isMainVbmeta = false → Prog.Returns AnyStates (recurse sub)) :
    Prog.Returns AnyStates (loadAndVerifyVbmetaWith sha ops requestedPartitions abSuffix allow recurse args) := by
  unfold loadAndVerifyVbmetaWith
  refine Prog.Returns.early ?_
  rcases avbStrConcat args.name abSuffix with - | name
  · exact Prog.Returns.pure _
  refine (always (readVbmeta_same _ _ _)).bind_of (readVbmeta_ans _ _ _) fun r hr => ?_
  cases r with
  | failed ret => exact Prog.Returns.pure _
  | tryBoot => exact hboot (hr.1 rfl).1 (hr.1 rfl).2
  | image buf numRead =>
    refine Prog.Returns.bind (checkImage_returns _ _ _) fun r => ?_
    rcases r with e | ret
    · exact Prog.Returns.pure _
    refine Prog.Returns.ite ?_ (Prog.Returns.bind (processDescriptors_returns hchain _ _ _ _) fun r => ?_)
    · exact Prog.Returns.map ((loadRequestedPartitions_sameImages _).mono fun _ _ _ => trivial)
    · rcases r with e | ret
      · exact Prog.Returns.pure _
      · refine Prog.Returns.early (Prog.Returns.bind (always_modify _) fun _ => ?_)
        exact Prog.Returns.ite (Prog.Returns.map (always_modify _)) (Prog.Returns.pure _)

/-- An image that is not the main one is verified without another call. -/
theorem chained_returns (h : args.isMainVbmeta = false) (depth : ℕ) :
    Prog.Returns AnyStates (loadAndVerifyVbmeta sha ops requestedPartitions abSuffix allow (depth + 1) args) :=
  loadAndVerifyVbmetaWith_returns (fun h' => absurd (h.symm.trans h') Bool.false_ne_true)
    fun h' => absurd (h.symm.trans h') Bool.false_ne_true

/-- The main image in the boot partition calls for images in its chain descriptors only. -/
theorem boot_returns (depth : ℕ) : Prog.Returns AnyStates
    (loadAndVerifyVbmeta sha ops requestedPartitions abSuffix allow (depth + 2) (mainArgs (text "boot"))) := by
  have hlook : (mainArgs (text "boot")).lookForVbmetaFooter = true := rfl
  exact loadAndVerifyVbmetaWith_returns (fun _ h => absurd (h.symm.trans hlook) Bool.false_ne_true)
    fun _ _ h => chained_returns h depth

/-! ## The slot -/

theorem allocateAll_returns (sizes : List ℕ) : Prog.Returns AnyStates (allocateAll ops sizes) := by
  induction sizes with
  | nil => exact Prog.Returns.pure _
  | cons size sizes ih =>
    exact Prog.Returns.bind (always (allocated_same _)) fun _ => Prog.Returns.early ih

theorem finishSlot_returns (flags : AvbSlotVerifyFlags) (mode : AvbHashtreeErrorMode) (ret : VerifyResult) :
    Prog.Returns AnyStates (finishSlot sha ops abSuffix flags mode ret) := by
  refine Prog.Returns.bind Prog.Returns.get fun s => Prog.Returns.bind (always (allocated_same _)) fun _ => ?_
  refine Prog.Returns.early (Prog.Returns.bind (always_modify _) fun _ => ?_)
  refine Prog.Returns.bind (always (finishCmdline_same _ _ _)) fun _ => Prog.Returns.early ?_
  refine Prog.Returns.bind (always substituteCmdline_same) fun _ => Prog.Returns.early ?_
  exact Prog.Returns.bind Prog.Returns.get fun s => Prog.Returns.pure _

end RCar.SlotVerify
