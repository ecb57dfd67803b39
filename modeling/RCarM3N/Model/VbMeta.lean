import RCarM3N.Model.AvbRsa

/-! The vbmeta image and what is in it: `avb_vbmeta_image.c`, `avb_crypto.c`, `avb_descriptor.c`, the descriptors of each
kind, `avb_footer.c`, and the sums and names of `avb_util.c`. Images stand in memory, which has bytes past their ends. -/

namespace RCar.VbMeta

open AvbRsa

/-! ## Sums, names and the order of bytes -/

/-- None where the sum overflows. -/
def avbSafeAdd (a b : UInt64) : Option UInt64 := if a + b < a then none else some (a + b)

/-- `d[0]` is the highest byte. -/
def be64 (m : Mem) (off : ℕ) : UInt64 :=
  ((m off).toUInt64 <<< 56) ||| ((m (off + 1)).toUInt64 <<< 48) ||| ((m (off + 2)).toUInt64 <<< 40) |||
    ((m (off + 3)).toUInt64 <<< 32) ||| ((m (off + 4)).toUInt64 <<< 24) ||| ((m (off + 5)).toUInt64 <<< 16) |||
    ((m (off + 6)).toUInt64 <<< 8) ||| (m (off + 7)).toUInt64

/-- The loop of `avb_validate_utf8`, with the continuation bytes that are still to come. -/
def utf8From : ℕ → List UInt8 → Bool
  | numCc, [] => numCc = 0
  | numCc + 1, c :: data => if c &&& (0x80 ||| 0x40) = 0x80 then utf8From numCc data else false
  | 0, c :: data =>
    if c < 0x80 then utf8From 0 data
    else if c &&& (0x80 ||| 0x40 ||| 0x20) = 0x80 ||| 0x40 then utf8From 1 data
    else if c &&& (0x80 ||| 0x40 ||| 0x20 ||| 0x10) = 0x80 ||| 0x40 ||| 0x20 then utf8From 2 data
    else if c &&& (0x80 ||| 0x40 ||| 0x20 ||| 0x10 ||| 0x08) = 0x80 ||| 0x40 ||| 0x20 ||| 0x10 then utf8From 3 data
    else false

def avbValidateUtf8 (data : List UInt8) : Bool := utf8From 0 data

def AVB_PART_NAME_MAX_SIZE : ℕ := 32

/-- Two names one after the other, in a buffer of the size of a partition name. -/
def avbStrConcat (str1 str2 : List UInt8) : Option (List UInt8) :=
  if str1.length + str2.length > AVB_PART_NAME_MAX_SIZE - 1 then none else some (str1 ++ str2)

/-! ## The header -/

def AVB_MAGIC : List UInt8 := [0x41, 0x56, 0x42, 0x30]
def AVB_VERSION_MAJOR : UInt32 := 1
def AVB_VERSION_MINOR : UInt32 := 1
def AVB_VBMETA_IMAGE_HEADER_SIZE : ℕ := 256
def AVB_VBMETA_IMAGE_FLAGS_HASHTREE_DISABLED : UInt32 := 1
def AVB_VBMETA_IMAGE_FLAGS_VERIFICATION_DISABLED : UInt32 := 2

/-- `AvbVBMetaImageHeader`, with the last byte of its release string. -/
structure AvbVBMetaImageHeader where
  requiredLibavbVersionMajor : UInt32
  requiredLibavbVersionMinor : UInt32
  authenticationDataBlockSize : UInt64
  auxiliaryDataBlockSize : UInt64
  algorithmType : UInt32
  hashOffset : UInt64
  hashSize : UInt64
  signatureOffset : UInt64
  signatureSize : UInt64
  publicKeyOffset : UInt64
  publicKeySize : UInt64
  publicKeyMetadataOffset : UInt64
  publicKeyMetadataSize : UInt64
  descriptorsOffset : UInt64
  descriptorsSize : UInt64
  rollbackIndex : UInt64
  flags : UInt32
  releaseStringEnd : UInt8

def avbVbmetaImageHeaderToHostByteOrder (m : Mem) (src : ℕ) : AvbVBMetaImageHeader where
  requiredLibavbVersionMajor := be32 m (src + 4)
  requiredLibavbVersionMinor := be32 m (src + 8)
  authenticationDataBlockSize := be64 m (src + 12)
  auxiliaryDataBlockSize := be64 m (src + 20)
  algorithmType := be32 m (src + 28)
  hashOffset := be64 m (src + 32)
  hashSize := be64 m (src + 40)
  signatureOffset := be64 m (src + 48)
  signatureSize := be64 m (src + 56)
  publicKeyOffset := be64 m (src + 64)
  publicKeySize := be64 m (src + 72)
  publicKeyMetadataOffset := be64 m (src + 80)
  publicKeyMetadataSize := be64 m (src + 88)
  descriptorsOffset := be64 m (src + 96)
  descriptorsSize := be64 m (src + 104)
  rollbackIndex := be64 m (src + 112)
  flags := be32 m (src + 120)
  releaseStringEnd := m (src + 175)

/-! ## Algorithms -/

def AVB_ALGORITHM_TYPE_NONE : ℕ := 0
def AVB_SHA1_DIGEST_SIZE : ℕ := 20
def AVB_SHA256_DIGEST_SIZE : ℕ := 32
def AVB_SHA512_DIGEST_SIZE : ℕ := 64

/-- The two hash functions. -/
structure Hashes where
  sha256 : List UInt8 → List UInt8
  sha512 : List UInt8 → List UInt8

structure AvbAlgorithmData where
  padding : List UInt8
  hashLen : ℕ

/-- A padding of `padding_RSA…`: the bytes 0xff, and the name of the hash function. -/
def pkcs1Padding (ones : ℕ) (der : List UInt8) : List UInt8 := 0x00 :: 0x01 :: (List.replicate ones 0xff ++ 0x00 :: der)

def derSha256 : List UInt8 :=
  [0x30, 0x31, 0x30, 0x0d, 0x06, 0x09, 0x60, 0x86, 0x48, 0x01, 0x65, 0x03, 0x04, 0x02, 0x01, 0x05, 0x00, 0x04, 0x20]

def derSha512 : List UInt8 :=
  [0x30, 0x51, 0x30, 0x0d, 0x06, 0x09, 0x60, 0x86, 0x48, 0x01, 0x65, 0x03, 0x04, 0x02, 0x03, 0x05, 0x00, 0x04, 0x40]

/-- `algorithm_data`, from `AVB_ALGORITHM_TYPE_NONE` to `AVB_ALGORITHM_TYPE_SHA512_RSA8192`. -/
def algorithmData : List AvbAlgorithmData := [
  ⟨[], 0⟩,
  ⟨pkcs1Padding 202 derSha256, AVB_SHA256_DIGEST_SIZE⟩,
  ⟨pkcs1Padding 458 derSha256, AVB_SHA256_DIGEST_SIZE⟩,
  ⟨pkcs1Padding 970 derSha256, AVB_SHA256_DIGEST_SIZE⟩,
  ⟨pkcs1Padding 170 derSha512, AVB_SHA512_DIGEST_SIZE⟩,
  ⟨pkcs1Padding 426 derSha512, AVB_SHA512_DIGEST_SIZE⟩,
  ⟨pkcs1Padding 938 derSha512, AVB_SHA512_DIGEST_SIZE⟩]

def avbGetAlgorithmData (algorithm : ℕ) : Option AvbAlgorithmData := algorithmData[algorithm]?

/-- The hash function of an algorithm with a signature. -/
def Hashes.computed (sha : Hashes) (algorithm : ℕ) (data : List UInt8) : List UInt8 :=
  if algorithm ≤ 3 then sha.sha256 data else sha.sha512 data

/-! ## Verification -/

inductive AvbVBMetaVerifyResult
  | ok
  | okNotSigned
  | invalidVbmetaHeader
  | unsupportedVersion
  | hashMismatch
  | signatureMismatch
deriving DecidableEq

/-- Whether a piece is entirely in its block. -/
def inBlock (offset size blockSize : UInt64) : Bool :=
  match avbSafeAdd offset size with
  | none => false
  | some pieceEnd => pieceEnd ≤ blockSize

/-- The result, with the address and the length of the public key. -/
def avbVbmetaImageVerify (sha : Hashes) (alloc : Mallocs) (m : Mem) (data length : ℕ) :
    AvbVBMetaVerifyResult × Option (ℕ × ℕ) :=
  if length < AVB_VBMETA_IMAGE_HEADER_SIZE then
    (.invalidVbmetaHeader, none)
  else if avbSafeMemcmp (m.read data 4) AVB_MAGIC then
    (.invalidVbmetaHeader, none)
  else
    let h := avbVbmetaImageHeaderToHostByteOrder m data
    if h.requiredLibavbVersionMajor ≠ AVB_VERSION_MAJOR ∨ h.requiredLibavbVersionMinor > AVB_VERSION_MINOR then
      (.unsupportedVersion, none)
    else if h.releaseStringEnd ≠ 0 then
      (.invalidVbmetaHeader, none)
    else if h.authenticationDataBlockSize &&& 0x3f ≠ 0 ∨ h.auxiliaryDataBlockSize &&& 0x3f ≠ 0 then
      (.invalidVbmetaHeader, none)
    else
      match (avbSafeAdd 256 h.authenticationDataBlockSize).bind (avbSafeAdd · h.auxiliaryDataBlockSize) with
      | none => (.invalidVbmetaHeader, none)
      | some blockTotal =>
        if blockTotal.toNat > length then
          (.invalidVbmetaHeader, none)
        else if 2 ^ 64 ≤ data + length then
          (.invalidVbmetaHeader, none)
        else if !inBlock h.hashOffset h.hashSize h.authenticationDataBlockSize then
          (.invalidVbmetaHeader, none)
        else if !inBlock h.signatureOffset h.signatureSize h.authenticationDataBlockSize then
          (.invalidVbmetaHeader, none)
        else if !inBlock h.publicKeyOffset h.publicKeySize h.auxiliaryDataBlockSize then
          (.invalidVbmetaHeader, none)
        else if h.publicKeyMetadataSize > 0 ∧
            !inBlock h.publicKeyMetadataOffset h.publicKeyMetadataSize h.auxiliaryDataBlockSize then
          (.invalidVbmetaHeader, none)
        else if h.algorithmType.toNat = AVB_ALGORITHM_TYPE_NONE then
          (.okNotSigned, none)
        else
          match avbGetAlgorithmData h.algorithmType.toNat with
          | none => (.invalidVbmetaHeader, none)
          | some algorithm =>
            if h.hashSize.toNat ≠ algorithm.hashLen then
              (.invalidVbmetaHeader, none)
            else
              let authenticationBlock := data + AVB_VBMETA_IMAGE_HEADER_SIZE
              let auxiliaryBlock := authenticationBlock + h.authenticationDataBlockSize.toNat
              let computedHash := sha.computed h.algorithmType.toNat
                (m.read data AVB_VBMETA_IMAGE_HEADER_SIZE ++ m.read auxiliaryBlock h.auxiliaryDataBlockSize.toNat)
              if avbSafeMemcmp (m.read (authenticationBlock + h.hashOffset.toNat) h.hashSize.toNat) computedHash then
                (.hashMismatch, none)
              else if !avbRsaVerify m alloc (auxiliaryBlock + h.publicKeyOffset.toNat) h.publicKeySize.toNat
                  (authenticationBlock + h.signatureOffset.toNat) h.signatureSize.toNat
                  (authenticationBlock + h.hashOffset.toNat) h.hashSize.toNat algorithm.padding then
                (.signatureMismatch, none)
              else
                (.ok, if h.publicKeySize > 0 then
                  some (auxiliaryBlock + h.publicKeyOffset.toNat, h.publicKeySize.toNat) else none)

/-! ## Descriptors -/

def AVB_DESCRIPTOR_TAG_PROPERTY : UInt64 := 0
def AVB_DESCRIPTOR_TAG_HASHTREE : UInt64 := 1
def AVB_DESCRIPTOR_TAG_HASH : UInt64 := 2
def AVB_DESCRIPTOR_TAG_KERNEL_CMDLINE : UInt64 := 3
def AVB_DESCRIPTOR_TAG_CHAIN_PARTITION : UInt64 := 4

def sizeofAvbDescriptor : ℕ := 16

structure AvbDescriptor where
  tag : UInt64
  numBytesFollowing : UInt64

def avbDescriptorValidateAndByteswap (m : Mem) (src : ℕ) : Option AvbDescriptor :=
  let dest : AvbDescriptor := ⟨be64 m src, be64 m (src + 8)⟩
  if dest.numBytesFollowing &&& 0x07 ≠ 0 then none else some dest

/-- The loop of `avb_descriptor_foreach` from `p` on, with the descriptors that it visits. Its sums of pointers may wrap. -/
def foreachFrom (m : Mem) (descStart descEnd : UInt64) : ℕ → UInt64 → Bool × List UInt64
  | 0, _ => (false, [])
  | fuel + 1, p =>
    if p < descEnd then
      match avbSafeAdd 16 (be64 m (p.toNat + 8)) with
      | none => (false, [])
      | some nbTotal =>
        if nbTotal &&& 7 ≠ 0 then
          (false, [])
        else if nbTotal + p < descStart ∨ nbTotal + p > descEnd then
          (false, [])
        else
          match avbSafeAdd p nbTotal with
          | none => (false, [p])
          | some p' =>
            let r := foreachFrom m descStart descEnd fuel p'
            (r.1, p :: r.2)
    else
      (true, [])

/-- `avb_descriptor_foreach` with a function that accepts every descriptor. -/
def avbDescriptorForeach (m : Mem) (imageData : UInt64) (imageSize : ℕ) : Bool × List UInt64 :=
  if imageSize < AVB_VBMETA_IMAGE_HEADER_SIZE then
    (false, [])
  else if m.read imageData.toNat 4 ≠ AVB_MAGIC then
    (false, [])
  else
    let header := avbVbmetaImageHeaderToHostByteOrder m imageData.toNat
    let imageEnd := imageData + UInt64.ofNat imageSize
    let descStart := imageData + 256 + header.authenticationDataBlockSize + header.descriptorsOffset
    let descEnd := descStart + header.descriptorsSize
    if descStart < imageData ∨ descStart > imageEnd ∨ descEnd < imageData ∨ descEnd > imageEnd ∨ descEnd < descStart then
      (false, [])
    else
      foreachFrom m descStart descEnd (imageSize + 1) descStart

/-- Whether the walk came to the end is not asked. -/
def avbDescriptorGetAll (m : Mem) (imageData : UInt64) (imageSize : ℕ) : List UInt64 :=
  (avbDescriptorForeach m imageData imageSize).2

/-! ## The kinds of descriptors -/

/-- The common part of the checks: the descriptor's own, its tag, and that what follows the fixed part is inside. -/
def validateDescriptor (m : Mem) (src : ℕ) (tag : UInt64) (fixedSize : UInt64) (lengths : List UInt32) : Bool :=
  match avbDescriptorValidateAndByteswap m src with
  | none => false
  | some parent =>
    if parent.tag ≠ tag then
      false
    else
      match lengths.foldlM (fun (size : UInt64) (length : UInt32) => avbSafeAdd size length.toUInt64) fixedSize with
      | none => false
      | some expectedSize => expectedSize ≤ parent.numBytesFollowing

def sizeofAvbHashDescriptor : ℕ := 132

structure AvbHashDescriptor where
  imageSize : UInt64
  partitionNameLen : UInt32
  saltLen : UInt32
  digestLen : UInt32
  flags : UInt32

def AVB_HASH_DESCRIPTOR_FLAGS_DO_NOT_USE_AB : UInt32 := 1

def avbHashDescriptorValidateAndByteswap (m : Mem) (src : ℕ) : Option AvbHashDescriptor :=
  let dest : AvbHashDescriptor := ⟨be64 m (src + 16), be32 m (src + 56), be32 m (src + 60), be32 m (src + 64), be32 m (src + 68)⟩
  if validateDescriptor m src AVB_DESCRIPTOR_TAG_HASH 116 [dest.partitionNameLen, dest.saltLen, dest.digestLen] then
    some dest
  else
    none

def sizeofAvbHashtreeDescriptor : ℕ := 180

/-- The fields that are used: the others are for the running system. -/
structure AvbHashtreeDescriptor where
  partitionNameLen : UInt32
  saltLen : UInt32
  rootDigestLen : UInt32
  flags : UInt32

def AVB_HASHTREE_DESCRIPTOR_FLAGS_DO_NOT_USE_AB : UInt32 := 1

def avbHashtreeDescriptorValidateAndByteswap (m : Mem) (src : ℕ) : Option AvbHashtreeDescriptor :=
  let dest : AvbHashtreeDescriptor := ⟨be32 m (src + 104), be32 m (src + 108), be32 m (src + 112), be32 m (src + 116)⟩
  if validateDescriptor m src AVB_DESCRIPTOR_TAG_HASHTREE 164 [dest.partitionNameLen, dest.saltLen, dest.rootDigestLen] then
    some dest
  else
    none

def sizeofAvbKernelCmdlineDescriptor : ℕ := 24

structure AvbKernelCmdlineDescriptor where
  flags : UInt32
  kernelCmdlineLength : UInt32

def avbKernelCmdlineDescriptorValidateAndByteswap (m : Mem) (src : ℕ) : Option AvbKernelCmdlineDescriptor :=
  let dest : AvbKernelCmdlineDescriptor := ⟨be32 m (src + 16), be32 m (src + 20)⟩
  if validateDescriptor m src AVB_DESCRIPTOR_TAG_KERNEL_CMDLINE 8 [dest.kernelCmdlineLength] then some dest else none

def sizeofAvbChainPartitionDescriptor : ℕ := 92

structure AvbChainPartitionDescriptor where
  rollbackIndexLocation : UInt32
  partitionNameLen : UInt32
  publicKeyLen : UInt32

def avbChainPartitionDescriptorValidateAndByteswap (m : Mem) (src : ℕ) : Option AvbChainPartitionDescriptor :=
  let dest : AvbChainPartitionDescriptor := ⟨be32 m (src + 16), be32 m (src + 20), be32 m (src + 24)⟩
  if dest.rollbackIndexLocation < 1 then
    none
  else if validateDescriptor m src AVB_DESCRIPTOR_TAG_CHAIN_PARTITION 76 [dest.partitionNameLen, dest.publicKeyLen] then
    some dest
  else
    none

/-! ## The footer -/

def AVB_FOOTER_MAGIC : List UInt8 := [0x41, 0x56, 0x42, 0x66]
def AVB_FOOTER_SIZE : ℕ := 64
def AVB_FOOTER_VERSION_MAJOR : UInt32 := 1

structure AvbFooter where
  vbmetaOffset : UInt64
  vbmetaSize : UInt64

def avbFooterValidateAndByteswap (m : Mem) (src : ℕ) : Option AvbFooter :=
  if avbSafeMemcmp (m.read src 4) AVB_FOOTER_MAGIC then
    none
  else if be32 m (src + 4) > AVB_FOOTER_VERSION_MAJOR then
    none
  else
    some ⟨be64 m (src + 20), be64 m (src + 28)⟩

end RCar.VbMeta
