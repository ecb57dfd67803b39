import RCarM3N.Model.AvbCmdline

/-! The verification of a slot, `avb_slot_verify.c`, with a vbmeta partition and without preloaded partitions. The calls of
`load_and_verify_vbmeta` to itself are cut at a depth, and a cut run does not return. -/

namespace RCar.SlotVerify

open UBoot (IoResult VerifyResult AVB_MAX_NUMBER_OF_ROLLBACK_INDEX_LOCATIONS)
open AvbRsa VbMeta

def MAX_NUMBER_OF_LOADED_PARTITIONS : ℕ := 32
def MAX_NUMBER_OF_VBMETA_IMAGES : ℕ := 32
def VBMETA_MAX_SIZE : UInt64 := 64 * 1024

def resultShouldContinue : VerifyResult → Bool
  | .errorOom | .errorIo | .errorInvalidMetadata | .errorUnsupportedVersion | .errorInvalidArgument => false
  | .ok | .errorVerification | .errorRollbackIndex | .errorPublicKeyRejected => true

/-- Whether the C string at an address is this one. -/
def strEq (m : Mem) (off : ℕ) (s : List UInt8) : Bool := m.read off (s.length + 1) = s ++ [0]

/-- Whether the string is one of the strings. -/
def avbStrvFindStr (strings : List (List UInt8)) (str : List UInt8) : Bool := strings.any (· = str)

section Slot

variable (sha : Hashes) (ops : AvbOps)

/-! ## Partitions -/

/-- The result and the buffer, which is there also where the read fails. -/
def loadFullPartition (partName : List UInt8) (imageSize : UInt64) : Prog State (VerifyResult × Option Buffer) := do
  match ← avbMalloc ops imageSize.toNat with
  | none => return (.errorOom, none)
  | some buf =>
    let (ioRet, partNumRead, mem) ← call fun t => ops.readFromPartition t (cString partName) 0 imageSize buf
    match ioFailure ioRet with
    | some ret => return (ret, some ⟨mem, buf⟩)
    | none => return (if partNumRead ≠ imageSize then .errorIo else .ok, some ⟨mem, buf⟩)

def AVB_NPV_PERSISTENT_DIGEST_PREFIX : List UInt8 := text "avb.persistent_digest."

/-- How the result of a read of a persistent digest is reported. -/
def persistentResult (ioRet : IoResult) (expectedDigestSize storedDigestSize : ℕ) : VerifyResult :=
  if ioRet = .errorOom then .errorOom
  else if ioRet = .errorNoSuchValue then .errorVerification
  else if ioRet = .errorInvalidValueSize ∨ ioRet = .errorInsufficientSpace then .errorInvalidMetadata
  else if ioRet ≠ .ok then .errorIo
  else if expectedDigestSize ≠ storedDigestSize then .errorInvalidMetadata
  else .ok

/-- `read_persistent_digest` over what it does when there is no value and there is an initial digest. -/
def readPersistentDigestWith (noValue : Option (PersistentOps → List UInt8 → Prog State (VerifyResult × Mem)))
    (partName : List UInt8) (expectedDigestSize : ℕ) : Prog State (VerifyResult × Mem) := do
  match ops.persistent with
  | none => return (.errorInvalidMetadata, fun _ => 0)
  | some persistent =>
    let persistentValueName := AVB_NPV_PERSISTENT_DIGEST_PREFIX ++ cString partName
    if !(← allocated ops (persistentValueName.length + 1)) then
      return (.errorOom, fun _ => 0)
    let (ioRet, storedDigestSize, outDigest) ←
      call fun t => persistent.readPersistentValue t persistentValueName expectedDigestSize
    match noValue with
    | some noValue =>
      if ioRet = .errorNoSuchValue then
        noValue persistent persistentValueName
      else
        return (persistentResult ioRet expectedDigestSize storedDigestSize, outDigest)
    | none => return (persistentResult ioRet expectedDigestSize storedDigestSize, outDigest)

def initializePersistentDigest (partName initialDigest : List UInt8) (persistent : PersistentOps)
    (persistentValueName : List UInt8) : Prog State (VerifyResult × Mem) := do
  let (ioRet, isDeviceUnlocked) ← call ops.readIsDeviceUnlocked
  if let some ret := ioFailure ioRet then
    return (ret, fun _ => 0)
  if isDeviceUnlocked then
    return (.errorVerification, fun _ => 0)
  let ioRet ← call fun t => persistent.writePersistentValue t persistentValueName initialDigest
  if let some ret := ioFailure ioRet then
    return (ret, fun _ => 0)
  readPersistentDigestWith ops none partName initialDigest.length

def readPersistentDigest (partName : List UInt8) (expectedDigestSize : ℕ) (initialDigest : Option (List UInt8)) :
    Prog State (VerifyResult × Mem) :=
  readPersistentDigestWith ops (initialDigest.map fun d => initializePersistentDigest ops partName d) partName expectedDigestSize

/-- The name of a partition with a hash descriptor. -/
def hashPartName (hashDesc : AvbHashDescriptor) (name abSuffix : List UInt8) : Option (List UInt8) :=
  if hashDesc.flags &&& AVB_HASH_DESCRIPTOR_FLAGS_DO_NOT_USE_AB ≠ 0 then
    if name.length ≥ AVB_PART_NAME_MAX_SIZE then none else some name
  else if hashDesc.digestLen = 0 ∧ abSuffix.length ≠ 0 then
    none
  else
    avbStrConcat name abSuffix

/-- The digest of the salt and the image, with the algorithm that a descriptor names. -/
def imageDigest (m : Mem) (descriptor : ℕ) (hashDesc : AvbHashDescriptor) (image : List UInt8) : Option (List UInt8) :=
  let salt := m.read (descriptor + sizeofAvbHashDescriptor + hashDesc.partitionNameLen.toNat) hashDesc.saltLen.toNat
  if strEq m (descriptor + 24) (text "sha256") then
    some (sha.sha256 (salt ++ image))
  else if strEq m (descriptor + 24) (text "sha512") then
    some (sha.sha512 (salt ++ image))
  else
    none

/-- From the hashing of the image on. -/
def checkDigest (m : Mem) (descriptor : ℕ) (hashDesc : AvbHashDescriptor) (partName : List UInt8) (imageBuf : Buffer)
    (imageSize : UInt64) : Prog State VerifyResult := do
  let imageSizeToHash := if hashDesc.imageSize > imageSize then imageSize else hashDesc.imageSize
  match imageDigest sha m descriptor hashDesc (imageBuf.mem.read imageBuf.addr imageSizeToHash.toNat) with
  | none => return .errorInvalidMetadata
  | some digest =>
    if hashDesc.digestLen = 0 then
      let (ret, stored) ← readPersistentDigest ops partName digest.length (some digest)
      if ret ≠ .ok then
        return ret
      return if avbSafeMemcmp digest (stored.read 0 digest.length) then .errorVerification else .ok
    else if digest.length ≠ hashDesc.digestLen.toNat then
      return .errorInvalidMetadata
    else
      let expectedDigest := m.read (descriptor + sizeofAvbHashDescriptor + hashDesc.partitionNameLen.toNat +
        hashDesc.saltLen.toNat) hashDesc.digestLen.toNat
      return if avbSafeMemcmp digest expectedDigest then .errorVerification else .ok

/-- The label `out` of `load_and_verify_hash_partition`, with a buffer. -/
def keepPartition (ret : VerifyResult) (name : List UInt8) (imageBuf : Buffer) (imageSize : UInt64) :
    Prog State VerifyResult := do
  if resultShouldContinue ret then
    let s ← Prog.get
    if s.data.loadedPartitions.length = MAX_NUMBER_OF_LOADED_PARTITIONS then
      return .errorOom
    let named ← allocated ops (name.length + 1)
    modifyData fun d =>
      { d with loadedPartitions := d.loadedPartitions ++ [⟨if named then some name else none, imageBuf, imageSize⟩] }
  return ret

/-- How much of a partition is loaded. -/
def imageSizeToLoad (allowVerificationError : Bool) (partName : List UInt8) (hashDesc : AvbHashDescriptor) :
    Prog State (Except VerifyResult UInt64) := do
  if allowVerificationError then
    let (ioRet, imageSize) ← call fun t => ops.getSizeOfPartition t (cString partName)
    match ioFailure ioRet with
    | some ret => return .error ret
    | none => return .ok imageSize
  else
    return .ok hashDesc.imageSize

/-- The descriptor is in memory. -/
def loadAndVerifyHashPartition (requestedPartitions : List (List UInt8)) (abSuffix : List UInt8)
    (allowVerificationError : Bool) (m : Mem) (descriptor : ℕ) : Prog State VerifyResult := do
  match avbHashDescriptorValidateAndByteswap m descriptor with
  | none => return .errorInvalidMetadata
  | some hashDesc =>
    let name := m.read (descriptor + sizeofAvbHashDescriptor) hashDesc.partitionNameLen.toNat
    if !avbValidateUtf8 name then
      return .errorInvalidMetadata
    if !avbStrvFindStr requestedPartitions name then
      return .ok
    match hashPartName hashDesc name abSuffix with
    | none => return .errorInvalidMetadata
    | some partName =>
      match ← imageSizeToLoad ops allowVerificationError partName hashDesc with
      | .error ret => return ret
      | .ok imageSize =>
        match ← loadFullPartition ops partName imageSize with
        | (.ok, some imageBuf) =>
          let ret ← checkDigest sha ops m descriptor hashDesc partName imageBuf imageSize
          keepPartition ops ret name imageBuf imageSize
        | (ret, _) => return ret

/-- The loop over the requested partitions, none of which is verified. -/
def loadRequestedPartitions (abSuffix : List UInt8) : List (List UInt8) → Prog State VerifyResult
  | [] => return .ok
  | name :: requestedPartitions => do
    match avbStrConcat name abSuffix with
    | none => return .errorInvalidMetadata
    | some partName =>
      let (ioRet, imageSize) ← call fun t => ops.getSizeOfPartition t (cString partName)
      if let some ret := ioFailure ioRet then
        return ret
      match ← loadFullPartition ops partName imageSize with
      | (.ok, some imageBuf) =>
        let s ← Prog.get
        if s.data.loadedPartitions.length = MAX_NUMBER_OF_LOADED_PARTITIONS then
          return .errorOom
        let named ← allocated ops (name.length + 1)
        modifyData fun d =>
          { d with loadedPartitions := d.loadedPartitions ++ [⟨if named then some name else none, imageBuf, imageSize⟩] }
        if !named then
          return .errorOom
        loadRequestedPartitions abSuffix requestedPartitions
      | (ret, _) => return ret

/-! ## The vbmeta image -/

/-- The arguments of `load_and_verify_vbmeta` that its calls differ in; `top` is whether the last two are not NULL. -/
structure VbmetaArgs where
  toplevelVbmetaFlags : UInt32
  rollbackIndexLocation : UInt32
  partitionName : Buffer
  partitionNameLen : ℕ
  expectedPublicKey : Option (List UInt8)
  top : Bool

/-- The arguments for the main vbmeta image, in the partition of this name. -/
def mainArgs (name : List UInt8) : VbmetaArgs := ⟨0, 0, ⟨Mem.ofList (name ++ [0]), 0⟩, name.length, none, true⟩

namespace VbmetaArgs

def isMainVbmeta (args : VbmetaArgs) : Bool := args.rollbackIndexLocation = 0

/-- The comparison is of six bytes at the name, however long it is. -/
def lookForVbmetaFooter (args : VbmetaArgs) : Bool := args.partitionName.mem.read args.partitionName.addr 6 ≠ text "vbmeta"

def name (args : VbmetaArgs) : List UInt8 := args.partitionName.mem.read args.partitionName.addr args.partitionNameLen

end VbmetaArgs

/-- The offset and the size of the vbmeta struct. -/
def locateVbmeta (fullPartitionName : List UInt8) (lookForVbmetaFooter : Bool) :
    Prog State (Except VerifyResult (UInt64 × UInt64)) := do
  if lookForVbmetaFooter then
    let (ioRet, _, footerBuf) ← call fun t => ops.readFromPartition t fullPartitionName (-64) 64 0
    match ioFailure ioRet with
    | some ret => return .error ret
    | none =>
      match avbFooterValidateAndByteswap footerBuf 0 with
      | none => return .ok (0, VBMETA_MAX_SIZE)
      | some footer =>
        return .ok (if footer.vbmetaSize > VBMETA_MAX_SIZE then (0, VBMETA_MAX_SIZE) else
          (footer.vbmetaOffset, footer.vbmetaSize))
  else
    return .ok (0, VBMETA_MAX_SIZE)

/-- What reading the vbmeta struct comes to. -/
inductive Loaded
  | failed (ret : VerifyResult)
  | tryBoot
  | image (vbmetaBuf : Buffer) (vbmetaNumRead : UInt64)

def readVbmeta (fullPartitionName : List UInt8) (isMainVbmeta lookForVbmetaFooter : Bool) : Prog State Loaded := do
  match ← locateVbmeta ops fullPartitionName lookForVbmetaFooter with
  | .error ret => return .failed ret
  | .ok (vbmetaOffset, vbmetaSize) =>
    match ← avbMalloc ops vbmetaSize.toNat with
    | none => return .failed .errorOom
    | some vbmetaBuf =>
      let (ioRet, vbmetaNumRead, mem) ←
        call fun t => ops.readFromPartition t fullPartitionName vbmetaOffset.toInt64 vbmetaSize vbmetaBuf
      if ioRet = .ok then
        return .image ⟨mem, vbmetaBuf⟩ vbmetaNumRead
      if isMainVbmeta ∧ ioRet = .errorNoSuchPartition ∧ !lookForVbmetaFooter then
        return .tryBoot
      return .failed (if ioRet = .errorOom then .errorOom else .errorIo)

/-- An error that ends the verification unless errors are allowed. -/
def allowing (allowVerificationError : Bool) (ret : VerifyResult) : Except VerifyResult VerifyResult :=
  if allowVerificationError then .ok ret else .error ret

/-- How the verification of the image is reported. -/
def imageResult (allowVerificationError : Bool) : AvbVBMetaVerifyResult → Except VerifyResult VerifyResult
  | .ok => .ok .ok
  | .okNotSigned | .hashMismatch | .signatureMismatch => allowing allowVerificationError .errorVerification
  | .invalidVbmetaHeader => .error .errorInvalidMetadata
  | .unsupportedVersion => .error .errorUnsupportedVersion

/-- The public key that the image was verified with, if it was. -/
def checkPublicKey (allowVerificationError : Bool) (args : VbmetaArgs) (vbmetaBuf : Buffer) (h : AvbVBMetaImageHeader)
    (pk : Option (ℕ × ℕ)) (ret : VerifyResult) : Prog State (Except VerifyResult VerifyResult) := do
  match pk with
  | none => return .ok ret
  | some (pkData, pkLen) =>
    let key := vbmetaBuf.mem.read pkData pkLen
    match args.expectedPublicKey with
    | some expectedPublicKey =>
      if expectedPublicKey.length ≠ pkLen ∨ avbSafeMemcmp expectedPublicKey key then
        return allowing allowVerificationError .errorPublicKeyRejected
      return .ok ret
    | none =>
      let pkMetadata := if h.publicKeyMetadataSize > 0 then
        some (vbmetaBuf.mem.read (vbmetaBuf.addr + AVB_VBMETA_IMAGE_HEADER_SIZE + h.authenticationDataBlockSize.toNat +
          h.publicKeyMetadataOffset.toNat) h.publicKeyMetadataSize.toNat) else none
      let (ioRet, keyIsTrusted) ← call fun t => ops.validateVbmetaPublicKey t key pkMetadata
      match ioFailure ioRet with
      | some ret => return .error ret
      | none => return if keyIsTrusted then .ok ret else allowing allowVerificationError .errorPublicKeyRejected

def checkRollbackIndex (allowVerificationError : Bool) (args : VbmetaArgs) (h : AvbVBMetaImageHeader) (ret : VerifyResult) :
    Prog State (Except VerifyResult VerifyResult) := do
  let (ioRet, storedRollbackIndex) ← call fun t => ops.readRollbackIndex t args.rollbackIndexLocation
  match ioFailure ioRet with
  | some ret => return .error ret
  | none =>
    return if h.rollbackIndex < storedRollbackIndex then allowing allowVerificationError .errorRollbackIndex else .ok ret

/-- All the checks of an image, and its place among the images. -/
def checkImage (allowVerificationError : Bool) (args : VbmetaArgs) (vbmetaBuf : Buffer) (vbmetaNumRead : UInt64) :
    Prog State (Except VerifyResult VerifyResult) := do
  let rsaMallocs ← call ops.rsaMallocs
  let (vbmetaRet, pk) := avbVbmetaImageVerify sha rsaMallocs vbmetaBuf.mem vbmetaBuf.addr vbmetaNumRead.toNat
  let h := avbVbmetaImageHeaderToHostByteOrder vbmetaBuf.mem vbmetaBuf.addr
  match imageResult allowVerificationError vbmetaRet with
  | .error ret => return .error ret
  | .ok ret =>
    if !args.isMainVbmeta ∧ h.flags ≠ 0 then
      return .error .errorInvalidMetadata
    match ← checkPublicKey ops allowVerificationError args vbmetaBuf h pk ret with
    | .error ret => return .error ret
    | .ok ret =>
      match ← checkRollbackIndex ops allowVerificationError args h ret with
      | .error ret => return .error ret
      | .ok ret =>
        let s ← Prog.get
        if s.data.vbmetaImages.length = MAX_NUMBER_OF_VBMETA_IMAGES then
          return .error .errorOom
        let vbmetaSize := 256 + h.authenticationDataBlockSize + h.auxiliaryDataBlockSize
        modifyData fun d => { d with vbmetaImages := d.vbmetaImages ++ [⟨vbmetaBuf, vbmetaSize, vbmetaRet⟩] }
        return .ok ret

/-! ## The descriptors -/

def AVB_KERNEL_CMDLINE_FLAGS_USE_ONLY_IF_HASHTREE_NOT_DISABLED : UInt32 := 1
def AVB_KERNEL_CMDLINE_FLAGS_USE_ONLY_IF_HASHTREE_DISABLED : UInt32 := 2

/-- A command line descriptor. -/
def processKernelCmdline (toplevelVbmetaFlags : UInt32) (m : Mem) (descriptor : ℕ) (ret : VerifyResult) :
    Prog State (Except VerifyResult VerifyResult) := do
  match avbKernelCmdlineDescriptorValidateAndByteswap m descriptor with
  | none => return .error .errorInvalidMetadata
  | some desc =>
    let kernelCmdline := m.read (descriptor + sizeofAvbKernelCmdlineDescriptor) desc.kernelCmdlineLength.toNat
    if !avbValidateUtf8 kernelCmdline then
      return .error .errorInvalidMetadata
    let skipped := if toplevelVbmetaFlags &&& AVB_VBMETA_IMAGE_FLAGS_HASHTREE_DISABLED ≠ 0
      then desc.flags &&& AVB_KERNEL_CMDLINE_FLAGS_USE_ONLY_IF_HASHTREE_NOT_DISABLED
      else desc.flags &&& AVB_KERNEL_CMDLINE_FLAGS_USE_ONLY_IF_HASHTREE_DISABLED
    if skipped ≠ 0 then
      return .ok ret
    let s ← Prog.get
    let before := (s.data.cmdline.map (· ++ text " ")).getD []
    if !(← allocated ops (before.length + kernelCmdline.length + 1)) then
      return .error .errorOom
    modifyData fun d => { d with cmdline := some (before ++ cString kernelCmdline) }
    return .ok ret

/-- The size of the digests of a hashtree's algorithm. -/
def hashtreeDigestLen (m : Mem) (descriptor : ℕ) : Option ℕ :=
  if strEq m (descriptor + 72) (text "sha1") then some AVB_SHA1_DIGEST_SIZE
  else if strEq m (descriptor + 72) (text "sha256") then some AVB_SHA256_DIGEST_SIZE
  else if strEq m (descriptor + 72) (text "sha512") then some AVB_SHA512_DIGEST_SIZE
  else none

/-- A hashtree descriptor. With a persistent digest, what the earlier descriptors came to is overwritten. -/
def processHashtree (abSuffix : List UInt8) (top : Bool) (m : Mem) (descriptor : ℕ) (ret : VerifyResult) :
    Prog State (Except VerifyResult VerifyResult) := do
  match avbHashtreeDescriptorValidateAndByteswap m descriptor with
  | none => return .error .errorInvalidMetadata
  | some desc =>
    if desc.rootDigestLen ≠ 0 then
      return .ok ret
    let name := m.read (descriptor + sizeofAvbHashtreeDescriptor) desc.partitionNameLen.toNat
    if !avbValidateUtf8 name then
      return .error .errorInvalidMetadata
    if desc.flags &&& AVB_HASHTREE_DESCRIPTOR_FLAGS_DO_NOT_USE_AB = 0 ∧ abSuffix.length ≠ 0 then
      return .error .errorInvalidMetadata
    if name.length ≥ AVB_PART_NAME_MAX_SIZE then
      return .error .errorInvalidMetadata
    match hashtreeDigestLen m descriptor with
    | none => return .error .errorInvalidMetadata
    | some digestLen =>
      let (ret, digestBuf) ← readPersistentDigest ops name digestLen none
      if ret ≠ .ok then
        return .error ret
      if top then
        let ret ← avbAddRootDigestSubstitution ops (cString name) (digestBuf.read 0 digestLen)
        return if ret = .ok then .ok ret else .error ret
      return .ok ret

section Vbmeta

variable (requestedPartitions : List (List UInt8)) (abSuffix : List UInt8) (allowVerificationError : Bool)

/-- A chain descriptor, over the `load_and_verify_vbmeta` that it calls. -/
def processChain (recurse : VbmetaArgs → Prog State VerifyResult) (args : VbmetaArgs) (toplevelVbmetaFlags : UInt32) (m : Mem)
    (descriptor : ℕ) (ret : VerifyResult) : Prog State (Except VerifyResult VerifyResult) := do
  if !args.isMainVbmeta then
    return .error .errorInvalidMetadata
  match avbChainPartitionDescriptorValidateAndByteswap m descriptor with
  | none => return .error .errorInvalidMetadata
  | some desc =>
    if desc.rollbackIndexLocation = 0 then
      return .error .errorInvalidMetadata
    let chainPartitionName := descriptor + sizeofAvbChainPartitionDescriptor
    let chainPublicKey := m.read (chainPartitionName + desc.partitionNameLen.toNat) desc.publicKeyLen.toNat
    let subRet ← recurse ⟨toplevelVbmetaFlags, desc.rollbackIndexLocation, ⟨m, chainPartitionName⟩,
      desc.partitionNameLen.toNat, some chainPublicKey, false⟩
    if subRet ≠ .ok then
      return if resultShouldContinue subRet then .ok subRet else .error subRet
    return .ok ret

/-- A hash descriptor. -/
def processHash (m : Mem) (descriptor : ℕ) (ret : VerifyResult) : Prog State (Except VerifyResult VerifyResult) := do
  let subRet ← loadAndVerifyHashPartition sha ops requestedPartitions abSuffix allowVerificationError m descriptor
  if subRet ≠ .ok then
    return if allowVerificationError ∧ resultShouldContinue subRet then .ok subRet else .error subRet
  return .ok ret

/-- One pass of the loop over the descriptors. An error is a jump to `out`. -/
def processDescriptor (recurse : VbmetaArgs → Prog State VerifyResult) (args : VbmetaArgs) (toplevelVbmetaFlags : UInt32)
    (m : Mem) (descriptor : ℕ) (ret : VerifyResult) : Prog State (Except VerifyResult VerifyResult) :=
  match avbDescriptorValidateAndByteswap m descriptor with
  | none => return .error .errorInvalidMetadata
  | some desc =>
    if desc.tag = AVB_DESCRIPTOR_TAG_HASH then
      processHash sha ops requestedPartitions abSuffix allowVerificationError m descriptor ret
    else if desc.tag = AVB_DESCRIPTOR_TAG_CHAIN_PARTITION then
      processChain recurse args toplevelVbmetaFlags m descriptor ret
    else if desc.tag = AVB_DESCRIPTOR_TAG_KERNEL_CMDLINE then
      processKernelCmdline ops toplevelVbmetaFlags m descriptor ret
    else if desc.tag = AVB_DESCRIPTOR_TAG_HASHTREE then
      processHashtree ops abSuffix args.top m descriptor ret
    else
      return .ok ret

/-- The loop over the descriptors. -/
def processDescriptors (recurse : VbmetaArgs → Prog State VerifyResult) (args : VbmetaArgs) (toplevelVbmetaFlags : UInt32)
    (m : Mem) : List UInt64 → VerifyResult → Prog State (Except VerifyResult VerifyResult)
  | [], ret => return .ok ret
  | descriptor :: descriptors, ret => do
    match ← processDescriptor sha ops requestedPartitions abSuffix allowVerificationError recurse args toplevelVbmetaFlags m
      descriptor.toNat ret with
    | .error ret => return .error ret
    | .ok ret => processDescriptors recurse args toplevelVbmetaFlags m descriptors ret

/-- What follows the loop. -/
def finishVbmeta (args : VbmetaArgs) (h : AvbVBMetaImageHeader) (ret : VerifyResult) : Prog State VerifyResult := do
  if args.rollbackIndexLocation.toNat ≥ AVB_MAX_NUMBER_OF_ROLLBACK_INDEX_LOCATIONS then
    return .errorInvalidMetadata
  modifyData fun d =>
    { d with rollbackIndexes := Function.update d.rollbackIndexes args.rollbackIndexLocation.toNat h.rollbackIndex }
  if args.top then
    Prog.modify fun s => { s with algorithmType := h.algorithmType }
  return ret

/-- From the checked image on. -/
def processImage (recurse : VbmetaArgs → Prog State VerifyResult) (args : VbmetaArgs) (vbmetaBuf : Buffer)
    (vbmetaNumRead : UInt64) (ret : VerifyResult) : Prog State VerifyResult := do
  let h := avbVbmetaImageHeaderToHostByteOrder vbmetaBuf.mem vbmetaBuf.addr
  if h.flags &&& AVB_VBMETA_IMAGE_FLAGS_VERIFICATION_DISABLED ≠ 0 then
    let subRet ← loadRequestedPartitions ops abSuffix requestedPartitions
    return if subRet ≠ .ok then subRet else ret
  let toplevelVbmetaFlags := if args.isMainVbmeta then h.flags else args.toplevelVbmetaFlags
  let descriptors := avbDescriptorGetAll vbmetaBuf.mem (UInt64.ofNat vbmetaBuf.addr) vbmetaNumRead.toNat
  match ← processDescriptors sha ops requestedPartitions abSuffix allowVerificationError recurse args toplevelVbmetaFlags
    vbmetaBuf.mem descriptors ret with
  | .error ret => return ret
  | .ok ret => finishVbmeta args h ret

/-- `load_and_verify_vbmeta`, over the one that it calls. -/
def loadAndVerifyVbmetaWith (recurse : VbmetaArgs → Prog State VerifyResult) (args : VbmetaArgs) : Prog State VerifyResult := do
  if !avbValidateUtf8 args.name then
    return .errorInvalidMetadata
  match avbStrConcat args.name abSuffix with
  | none => return .errorInvalidMetadata
  | some fullPartitionName =>
    match ← readVbmeta ops (cString fullPartitionName) args.isMainVbmeta args.lookForVbmetaFooter with
    | .failed ret => return ret
    | .tryBoot => recurse (mainArgs (text "boot"))
    | .image vbmetaBuf vbmetaNumRead =>
      match ← checkImage sha ops allowVerificationError args vbmetaBuf vbmetaNumRead with
      | .error ret => return ret
      | .ok ret => processImage sha ops requestedPartitions abSuffix allowVerificationError recurse args vbmetaBuf vbmetaNumRead ret

/-- At most `depth` calls deep. -/
def loadAndVerifyVbmeta : ℕ → VbmetaArgs → Prog State VerifyResult
  | 0, _ => Prog.stuck
  | depth + 1, args =>
    loadAndVerifyVbmetaWith sha ops requestedPartitions abSuffix allowVerificationError (loadAndVerifyVbmeta depth) args

end Vbmeta

/-! ## The slot -/

def AVB_NPV_MANAGED_VERITY_MODE : List UInt8 := text "avb.managed_verity_mode"

/-- The result and the resolved mode. -/
def avbManageHashtreeErrorMode (restartCausedByHashtreeCorruption : Bool) (persistent : PersistentOps) :
    Prog State (IoResult × AvbHashtreeErrorMode) := do
  let s ← Prog.get
  let vbmetaDigest := sha.sha256 (vbmetaBytes s.data)
  if restartCausedByHashtreeCorruption then
    let ioRet ← call fun t => persistent.writePersistentValue t AVB_NPV_MANAGED_VERITY_MODE vbmetaDigest
    return if ioRet = .ok then (.ok, .eio) else (ioRet, .restart)
  let (ioRet, numBytesRead, stored) ←
    call fun t => persistent.readPersistentValue t AVB_NPV_MANAGED_VERITY_MODE AVB_SHA256_DIGEST_SIZE
  if ioRet = .errorNoSuchValue ∨ (ioRet = .ok ∧ numBytesRead = 0) then
    return (.ok, .restart)
  if ioRet ≠ .ok then
    return (ioRet, .restart)
  if numBytesRead ≠ AVB_SHA256_DIGEST_SIZE then
    return (.errorIo, .restart)
  if vbmetaDigest = stored.read 0 AVB_SHA256_DIGEST_SIZE then
    return (.ok, .eio)
  let ioRet ← call fun t => persistent.writePersistentValue t AVB_NPV_MANAGED_VERITY_MODE []
  return (ioRet, .restart)

def hasSystemPartition (abSuffix : List UInt8) : Prog State Bool := do
  match avbStrConcat (text "system") abSuffix with
  | none => return false
  | some partName =>
    let (ioRet, _) ← call fun t => ops.getUniqueGuidForPartition t partName
    return ioRet = .ok

/-- The mode that the verification hands over, unless it fails. -/
def resolveHashtreeErrorMode (restartCausedByHashtreeCorruption : Bool) (hashtreeErrorMode : AvbHashtreeErrorMode) :
    Prog State (Except VerifyResult AvbHashtreeErrorMode) := do
  match hashtreeErrorMode, ops.persistent with
  | .managedRestartAndEio, some persistent =>
    let (ioRet, mode) ← avbManageHashtreeErrorMode sha restartCausedByHashtreeCorruption persistent
    return if ioRet = .ok then .ok mode else .error (if ioRet = .errorOom then .errorOom else .errorIo)
  | mode, _ => return .ok mode

/-- The command line of a slot before the substitutions: a result that is not ok is a jump to `fail`. -/
def finishCmdline (abSuffix : List UInt8) (restartCausedByHashtreeCorruption : Bool) (hashtreeErrorMode : AvbHashtreeErrorMode)
    (toplevelFlags : UInt32) : Prog State VerifyResult := do
  if toplevelFlags &&& AVB_VBMETA_IMAGE_FLAGS_VERIFICATION_DISABLED ≠ 0 then
    let cmdline := if ← hasSystemPartition ops abSuffix then text "root=PARTUUID=$(ANDROID_SYSTEM_PARTUUID)" else []
    if !(← allocated ops (cmdline.length + 1)) then
      return .errorOom
    modifyData fun d => { d with cmdline := some cmdline }
    return .ok
  match ← resolveHashtreeErrorMode sha ops restartCausedByHashtreeCorruption hashtreeErrorMode with
  | .error ret => return ret
  | .ok resolved =>
    modifyData fun d => { d with resolvedHashtreeErrorMode := resolved }
    let s ← Prog.get
    avbAppendOptions ops sha toplevelFlags s.algorithmType hashtreeErrorMode resolved

/-- The substitutions: false is a jump to `fail`. -/
def substituteCmdline (abSuffix : List UInt8) : Prog State Bool := do
  let s ← Prog.get
  match s.data.cmdline with
  | none => return true
  | some cmdline =>
    if cmdline = [] then
      return true
    match ← avbSubCmdline ops cmdline abSuffix s.cmdlineSubst with
    | none => return false
    | some newCmdline =>
      modifyData fun d => { d with cmdline := some newCmdline }
      return true

/-- The flags of `avb_slot_verify`. -/
structure AvbSlotVerifyFlags where
  allowVerificationError : Bool
  restartCausedByHashtreeCorruption : Bool

/-- What follows the verification of the vbmeta images, with the data where it is handed over. -/
def finishSlot (abSuffix : List UInt8) (flags : AvbSlotVerifyFlags) (hashtreeErrorMode : AvbHashtreeErrorMode)
    (ret : VerifyResult) : Prog State (VerifyResult × Option AvbSlotVerifyData) := do
  let s ← Prog.get
  let toplevelFlags := match s.data.vbmetaImages with
    | [] => 0
    | image :: _ => (avbVbmetaImageHeaderToHostByteOrder image.vbmetaData.mem image.vbmetaData.addr).flags
  if !(← allocated ops (abSuffix.length + 1)) then
    return (.errorOom, none)
  modifyData fun d => { d with abSuffix := some abSuffix }
  let subRet ← finishCmdline sha ops abSuffix flags.restartCausedByHashtreeCorruption hashtreeErrorMode toplevelFlags
  if subRet ≠ .ok then
    return (subRet, none)
  if !(← substituteCmdline ops abSuffix) then
    return (.errorOom, none)
  let s ← Prog.get
  return (ret, some s.data)

/-- The sizes of the data, of its two arrays and of the list of substitutions. -/
def slotDataSizes : List ℕ := [312, 32 * MAX_NUMBER_OF_VBMETA_IMAGES, 32 * MAX_NUMBER_OF_LOADED_PARTITIONS, 168]

def allocateAll : List ℕ → Prog State Bool
  | [] => return true
  | size :: sizes => do
    if !(← allocated ops size) then
      return false
    allocateAll sizes

/-- The result, and the data where it is handed over. -/
def avbSlotVerify (depth : ℕ) (requestedPartitions : List (List UInt8)) (abSuffix : List UInt8) (flags : AvbSlotVerifyFlags)
    (hashtreeErrorMode : AvbHashtreeErrorMode) : Prog State (VerifyResult × Option AvbSlotVerifyData) := do
  if hashtreeErrorMode = .logging ∧ !flags.allowVerificationError then
    return (.errorInvalidArgument, none)
  if hashtreeErrorMode = .managedRestartAndEio ∧ ops.persistent.isNone then
    return (.errorInvalidArgument, none)
  if !(← allocateAll ops slotDataSizes) then
    return (.errorOom, none)
  Prog.modify fun s => { s with data := .zero, algorithmType := 0, cmdlineSubst := [] }
  let ret ← loadAndVerifyVbmeta sha ops requestedPartitions abSuffix flags.allowVerificationError depth
    (mainArgs (text "vbmeta"))
  if !flags.allowVerificationError ∧ ret ≠ .ok then
    return (ret, none)
  if !resultShouldContinue ret then
    return (ret, none)
  finishSlot sha ops abSuffix flags hashtreeErrorMode ret

end Slot

/-! ## The flow over the slots -/

def slotSuffix (n : RCar.Slot) : String := if n = 0 then "_a" else "_b"

/-- What the A/B flow sees of the verifications of the two slots. -/
def slotVerifier (answers : RCar.Slot → VerifyResult × Option AvbSlotVerifyData) (allowVerificationError : Bool) :
    UBoot.Verifier where
  verify n := ((answers n).1, (answers n).2.map fun d => ⟨slotSuffix n, d.rollbackIndexes⟩)
  allowVerificationError := allowVerificationError

end RCar.SlotVerify
