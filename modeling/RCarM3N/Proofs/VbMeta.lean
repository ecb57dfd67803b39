import RCarM3N.Model.VbMeta
import RCarM3N.Proofs.AvbRsa

/-! A vbmeta image is accepted exactly when its pieces lie in their blocks, its hash is that of the header and the auxiliary
block, and the signature under the embedded key is right; and what is past its end has no say in it. -/

namespace RCar.VbMeta

open AvbRsa

/-! ## Sums -/

theorem avbSafeAdd_eq_some {a b c : UInt64} : avbSafeAdd a b = some c ↔ c.toNat = a.toNat + b.toNat := by
  have ha := a.toNat_lt
  have hb := b.toNat_lt
  have hsum : (a + b).toNat = (a.toNat + b.toNat) % 2 ^ 64 := UInt64.toNat_add a b
  unfold avbSafeAdd
  split
  · rename_i h
    have hlt := UInt64.lt_iff_toNat_lt.mp h
    have hc := c.toNat_lt
    refine iff_of_false (by simp) ?_
    omega
  · rename_i h
    have hle : a.toNat ≤ (a + b).toNat := not_lt.mp fun hlt => h (UInt64.lt_iff_toNat_lt.mpr hlt)
    rw [Option.some.injEq, ← UInt64.toNat_inj]
    omega

theorem avbSafeAdd_eq_none {a b : UInt64} : avbSafeAdd a b = none ↔ 2 ^ 64 ≤ a.toNat + b.toNat := by
  have ha := a.toNat_lt
  have hb := b.toNat_lt
  have hsum : (a + b).toNat = (a.toNat + b.toNat) % 2 ^ 64 := UInt64.toNat_add a b
  unfold avbSafeAdd
  split
  · rename_i h
    have hlt := UInt64.lt_iff_toNat_lt.mp h
    refine iff_of_true rfl ?_
    omega
  · rename_i h
    have hle : a.toNat ≤ (a + b).toNat := not_lt.mp fun hlt => h (UInt64.lt_iff_toNat_lt.mpr hlt)
    refine iff_of_false (by simp) ?_
    omega

theorem inBlock_iff {offset size blockSize : UInt64} :
    inBlock offset size blockSize = true ↔ offset.toNat + size.toNat ≤ blockSize.toNat := by
  unfold inBlock
  rcases h : avbSafeAdd offset size with - | pieceEnd
  · have hover := avbSafeAdd_eq_none.mp h
    have hlt := blockSize.toNat_lt
    refine iff_of_false Bool.false_ne_true ?_
    omega
  · rw [decide_eq_true_iff, UInt64.le_iff_toNat_le, avbSafeAdd_eq_some.mp h]

theorem and_mask_eq_zero {x mask : UInt64} {k : ℕ} (hmask : mask.toNat = 2 ^ k - 1) : x &&& mask = 0 ↔ 2 ^ k ∣ x.toNat := by
  rw [← UInt64.toNat_inj, UInt64.toNat_and, hmask, Nat.and_two_pow_sub_one_eq_mod]
  exact (Nat.dvd_iff_mod_eq_zero ..).symm

theorem and_63_eq_zero {x : UInt64} : x &&& 0x3f = 0 ↔ 64 ∣ x.toNat := and_mask_eq_zero (k := 6) rfl

theorem and_7_eq_zero {x : UInt64} : x &&& 7 = 0 ↔ 8 ∣ x.toNat := and_mask_eq_zero (k := 3) rfl

/-! ## The blocks -/

/-- A header of this library's version whose pieces lie in their blocks, and blocks that lie in the image. -/
structure WellFormed (m : Mem) (data length : ℕ) (h : AvbVBMetaImageHeader) : Prop where
  header : AVB_VBMETA_IMAGE_HEADER_SIZE ≤ length
  magic : m.read data 4 = AVB_MAGIC
  version : h.requiredLibavbVersionMajor = AVB_VERSION_MAJOR ∧ h.requiredLibavbVersionMinor ≤ AVB_VERSION_MINOR
  release : h.releaseStringEnd = 0
  aligned : 64 ∣ h.authenticationDataBlockSize.toNat ∧ 64 ∣ h.auxiliaryDataBlockSize.toNat
  blocks : AVB_VBMETA_IMAGE_HEADER_SIZE + h.authenticationDataBlockSize.toNat + h.auxiliaryDataBlockSize.toNat ≤ length
  fits : data + length < 2 ^ 64
  hash : h.hashOffset.toNat + h.hashSize.toNat ≤ h.authenticationDataBlockSize.toNat
  signature : h.signatureOffset.toNat + h.signatureSize.toNat ≤ h.authenticationDataBlockSize.toNat
  publicKey : h.publicKeyOffset.toNat + h.publicKeySize.toNat ≤ h.auxiliaryDataBlockSize.toNat
  metadata : 0 < h.publicKeyMetadataSize →
    h.publicKeyMetadataOffset.toNat + h.publicKeyMetadataSize.toNat ≤ h.auxiliaryDataBlockSize.toNat

/-- The header of an image. -/
abbrev header (m : Mem) (data : ℕ) : AvbVBMetaImageHeader := avbVbmetaImageHeaderToHostByteOrder m data

/-- Where the pieces of an image are. -/
def hashAt (m : Mem) (data : ℕ) : ℕ := data + AVB_VBMETA_IMAGE_HEADER_SIZE + (header m data).hashOffset.toNat

def signatureAt (m : Mem) (data : ℕ) : ℕ := data + AVB_VBMETA_IMAGE_HEADER_SIZE + (header m data).signatureOffset.toNat

def auxiliaryAt (m : Mem) (data : ℕ) : ℕ :=
  data + AVB_VBMETA_IMAGE_HEADER_SIZE + (header m data).authenticationDataBlockSize.toNat

def publicKeyAt (m : Mem) (data : ℕ) : ℕ := auxiliaryAt m data + (header m data).publicKeyOffset.toNat

/-- What the hash is of: the header and the auxiliary block. -/
def signedData (m : Mem) (data : ℕ) : List UInt8 :=
  m.read data AVB_VBMETA_IMAGE_HEADER_SIZE ++ m.read (auxiliaryAt m data) (header m data).auxiliaryDataBlockSize.toNat

/-- What the verification goes on to when the image is well formed. -/
def verifySignature (sha : Hashes) (alloc : Mallocs) (m : Mem) (data : ℕ) : AvbVBMetaVerifyResult × Option (ℕ × ℕ) :=
  let h := header m data
  if h.algorithmType.toNat = AVB_ALGORITHM_TYPE_NONE then
    (.okNotSigned, none)
  else
    match avbGetAlgorithmData h.algorithmType.toNat with
    | none => (.invalidVbmetaHeader, none)
    | some algorithm =>
      if h.hashSize.toNat ≠ algorithm.hashLen then
        (.invalidVbmetaHeader, none)
      else
        let computedHash := sha.computed h.algorithmType.toNat (signedData m data)
        if avbSafeMemcmp (m.read (hashAt m data) h.hashSize.toNat) computedHash then
          (.hashMismatch, none)
        else if !avbRsaVerify m alloc (publicKeyAt m data) h.publicKeySize.toNat (signatureAt m data)
            h.signatureSize.toNat (hashAt m data) h.hashSize.toNat algorithm.padding then
          (.signatureMismatch, none)
        else
          (.ok, if h.publicKeySize > 0 then some (publicKeyAt m data, h.publicKeySize.toNat) else none)

variable {sha : Hashes} {alloc : Mallocs} {m m' : Mem} {data length : ℕ}

theorem read_four (m : Mem) (data : ℕ) : (m.read data 4).length = AVB_MAGIC.length := by
  rw [Mem.length_read]
  rfl

theorem sum_blocks {a b c : UInt64} : (avbSafeAdd 256 a).bind (avbSafeAdd · b) = some c ↔ c.toNat = 256 + a.toNat + b.toNat := by
  have hc := c.toNat_lt
  rw [Option.bind_eq_some_iff]
  constructor
  · rintro ⟨t, ht, hsum⟩
    rw [avbSafeAdd_eq_some] at ht hsum
    rw [hsum, ht]
    rfl
  · intro h
    rcases ht : avbSafeAdd 256 a with - | t
    · have hover := avbSafeAdd_eq_none.mp ht
      have h256 : (256 : UInt64).toNat = 256 := rfl
      omega
    · refine ⟨t, rfl, ?_⟩
      rw [avbSafeAdd_eq_some] at ht ⊢
      have h256 : (256 : UInt64).toNat = 256 := rfl
      omega

/-- The header is of another version of the library. -/
def BadVersion (m : Mem) (data length : ℕ) : Prop :=
  AVB_VBMETA_IMAGE_HEADER_SIZE ≤ length ∧ m.read data 4 = AVB_MAGIC ∧
    ¬ ((header m data).requiredLibavbVersionMajor = AVB_VERSION_MAJOR ∧
      (header m data).requiredLibavbVersionMinor ≤ AVB_VERSION_MINOR)

/-- The image is well formed and the signature decides, or it is refused for its version or for its header. -/
theorem verify_cases (sha : Hashes) (alloc : Mallocs) (m : Mem) (data length : ℕ) :
    (WellFormed m data length (header m data) ∧
        avbVbmetaImageVerify sha alloc m data length = verifySignature sha alloc m data) ∨
      (BadVersion m data length ∧ avbVbmetaImageVerify sha alloc m data length = (.unsupportedVersion, none)) ∨
      (¬ WellFormed m data length (header m data) ∧ ¬ BadVersion m data length ∧
        avbVbmetaImageVerify sha alloc m data length = (.invalidVbmetaHeader, none)) := by
  unfold avbVbmetaImageVerify
  by_cases hheader : length < AVB_VBMETA_IMAGE_HEADER_SIZE
  · rw [if_pos hheader]
    exact .inr (.inr ⟨fun hw => absurd hw.header (not_le.mpr hheader), fun hb => absurd hb.1 (not_le.mpr hheader), rfl⟩)
  rw [if_neg hheader]
  by_cases hmagic : avbSafeMemcmp (m.read data 4) AVB_MAGIC = true
  · have hne : m.read data 4 ≠ AVB_MAGIC := by
      intro heq
      rw [(avbSafeMemcmp_iff (read_four m data)).mpr heq] at hmagic
      cases hmagic
    rw [if_pos hmagic]
    exact .inr (.inr ⟨fun hw => hne hw.magic, fun hb => hne hb.2.1, rfl⟩)
  rw [if_neg hmagic]
  have hmagic' : m.read data 4 = AVB_MAGIC := (avbSafeMemcmp_iff (read_four m data)).mp (Bool.eq_false_iff.mpr hmagic)
  simp only
  set h := avbVbmetaImageHeaderToHostByteOrder m data with hh
  by_cases hversion : h.requiredLibavbVersionMajor ≠ AVB_VERSION_MAJOR ∨ h.requiredLibavbVersionMinor > AVB_VERSION_MINOR
  · rw [if_pos hversion]
    refine .inr (.inl ⟨⟨not_lt.mp hheader, hmagic', fun hv => ?_⟩, rfl⟩)
    rcases hversion with hmajor | hminor
    · exact hmajor hv.1
    · exact absurd hv.2 (UInt32.not_le.mpr hminor)
  rw [if_neg hversion]
  have hversion' : h.requiredLibavbVersionMajor = AVB_VERSION_MAJOR ∧ h.requiredLibavbVersionMinor ≤ AVB_VERSION_MINOR := by
    push Not at hversion
    exact ⟨hversion.1, UInt32.not_lt.mp hversion.2⟩
  have hgood : ¬ BadVersion m data length := fun hb => hb.2.2 hversion'
  by_cases hrelease : h.releaseStringEnd ≠ 0
  · rw [if_pos hrelease]
    exact .inr (.inr ⟨fun hw => hrelease hw.release, hgood, rfl⟩)
  rw [if_neg hrelease]
  by_cases haligned : h.authenticationDataBlockSize &&& 0x3f ≠ 0 ∨ h.auxiliaryDataBlockSize &&& 0x3f ≠ 0
  · rw [if_pos haligned]
    refine .inr (.inr ⟨fun hw => ?_, hgood, rfl⟩)
    rcases haligned with hauth | haux
    · exact hauth (and_63_eq_zero.mpr hw.aligned.1)
    · exact haux (and_63_eq_zero.mpr hw.aligned.2)
  rw [if_neg haligned]
  rcases hsum : (avbSafeAdd 256 h.authenticationDataBlockSize).bind (avbSafeAdd · h.auxiliaryDataBlockSize) with
    - | blockTotal
  · refine .inr (.inr ⟨fun hw => ?_, hgood, rfl⟩)
    have hle : 256 + h.authenticationDataBlockSize.toNat + h.auxiliaryDataBlockSize.toNat ≤ length := hw.blocks
    have hlt := hw.fits
    have hfits : (UInt64.ofNat (256 + h.authenticationDataBlockSize.toNat + h.auxiliaryDataBlockSize.toNat)).toNat =
        256 + h.authenticationDataBlockSize.toNat + h.auxiliaryDataBlockSize.toNat := by
      rw [UInt64.toNat_ofNat', Nat.mod_eq_of_lt (by omega)]
    rw [sum_blocks.mpr hfits] at hsum
    cases hsum
  rw [sum_blocks] at hsum
  simp only
  by_cases hblocks : blockTotal.toNat > length
  · rw [if_pos hblocks]
    refine .inr (.inr ⟨fun hw => ?_, hgood, rfl⟩)
    have hle : 256 + h.authenticationDataBlockSize.toNat + h.auxiliaryDataBlockSize.toNat ≤ length := hw.blocks
    omega
  rw [if_neg hblocks]
  by_cases hfits : 2 ^ 64 ≤ data + length
  · rw [if_pos hfits]
    exact .inr (.inr ⟨fun hw => absurd hw.fits (not_lt.mpr hfits), hgood, rfl⟩)
  rw [if_neg hfits]
  by_cases hhash : inBlock h.hashOffset h.hashSize h.authenticationDataBlockSize = true
  swap
  · rw [if_pos (by simpa using hhash)]
    exact .inr (.inr ⟨fun hw => hhash (inBlock_iff.mpr hw.hash), hgood, rfl⟩)
  rw [if_neg (by simpa using hhash)]
  by_cases hsig : inBlock h.signatureOffset h.signatureSize h.authenticationDataBlockSize = true
  swap
  · rw [if_pos (by simpa using hsig)]
    exact .inr (.inr ⟨fun hw => hsig (inBlock_iff.mpr hw.signature), hgood, rfl⟩)
  rw [if_neg (by simpa using hsig)]
  by_cases hkey : inBlock h.publicKeyOffset h.publicKeySize h.auxiliaryDataBlockSize = true
  swap
  · rw [if_pos (by simpa using hkey)]
    exact .inr (.inr ⟨fun hw => hkey (inBlock_iff.mpr hw.publicKey), hgood, rfl⟩)
  rw [if_neg (by simpa using hkey)]
  by_cases hmeta : h.publicKeyMetadataSize > 0 ∧
      (!inBlock h.publicKeyMetadataOffset h.publicKeyMetadataSize h.auxiliaryDataBlockSize) = true
  · rw [if_pos hmeta]
    refine .inr (.inr ⟨fun hw => ?_, hgood, rfl⟩)
    rw [inBlock_iff.mpr (hw.metadata hmeta.1)] at hmeta
    exact absurd hmeta.2 (by simp)
  rw [if_neg hmeta]
  refine .inl ⟨⟨not_lt.mp hheader, hmagic', hversion', not_not.mp hrelease, ?_, ?_, not_le.mp hfits, inBlock_iff.mp hhash,
    inBlock_iff.mp hsig, inBlock_iff.mp hkey, ?_⟩, rfl⟩
  · push Not at haligned
    exact ⟨and_63_eq_zero.mp haligned.1, and_63_eq_zero.mp haligned.2⟩
  · change 256 + h.authenticationDataBlockSize.toNat + h.auxiliaryDataBlockSize.toNat ≤ length
    omega
  · intro hpos
    apply inBlock_iff.mp
    by_contra hnot
    exact hmeta ⟨hpos, by simpa using hnot⟩

/-! ## Acceptance -/

/-- The sizes of the digests. -/
structure Hashes.Sized (sha : Hashes) : Prop where
  sha256 : ∀ l, (sha.sha256 l).length = AVB_SHA256_DIGEST_SIZE
  sha512 : ∀ l, (sha.sha512 l).length = AVB_SHA512_DIGEST_SIZE

/-- An algorithm's digest has the length of its hash, and its padding is that of a key of 2048, 4096 or 8192 bits. -/
theorem algorithm_spec (hsha : sha.Sized) {t : ℕ} {a : AvbAlgorithmData} (ht : t ≠ AVB_ALGORITHM_TYPE_NONE)
    (ha : avbGetAlgorithmData t = some a) (l : List UInt8) :
    (sha.computed t l).length = a.hashLen ∧ a.padding.length + a.hashLen ∈ [256, 512, 1024] := by
  have hlt : t < 7 := by
    by_contra hge
    rw [avbGetAlgorithmData, List.getElem?_eq_none (not_lt.mp hge)] at ha
    cases ha
  have hlen : ∀ k der, (pkcs1Padding k der).length = k + der.length + 3 := fun k der => by
    simp [pkcs1Padding]
    ring
  rw [avbGetAlgorithmData] at ha
  rw [AVB_ALGORITHM_TYPE_NONE] at ht
  interval_cases t
  · exact absurd rfl ht
  all_goals
    cases ha
    first
    | exact ⟨hsha.sha256 l, by simp only [hlen]; decide⟩
    | exact ⟨hsha.sha512 l, by simp only [hlen]; decide⟩

/-- The hash in the image, and the call that verifies its signature. -/
structure Accepted (sha : Hashes) (alloc : Mallocs) (m : Mem) (data : ℕ) (a : AvbAlgorithmData) : Prop where
  signed : (header m data).algorithmType.toNat ≠ AVB_ALGORITHM_TYPE_NONE
  algorithm : avbGetAlgorithmData (header m data).algorithmType.toNat = some a
  size : (header m data).hashSize.toNat = a.hashLen
  hash : m.read (hashAt m data) (header m data).hashSize.toNat =
    sha.computed (header m data).algorithmType.toNat (signedData m data)
  signature : avbRsaVerify m alloc (publicKeyAt m data) (header m data).publicKeySize.toNat (signatureAt m data)
    (header m data).signatureSize.toNat (hashAt m data) (header m data).hashSize.toNat a.padding = true

theorem verifySignature_ok_iff (hsha : sha.Sized) :
    (verifySignature sha alloc m data).1 = .ok ↔ ∃ a, Accepted sha alloc m data a := by
  unfold verifySignature
  simp only
  set h := header m data with hh
  by_cases hnone : h.algorithmType.toNat = AVB_ALGORITHM_TYPE_NONE
  · rw [if_pos hnone]
    refine iff_of_false (by simp) ?_
    rintro ⟨a, ha⟩
    exact ha.signed hnone
  rw [if_neg hnone]
  rcases halg : avbGetAlgorithmData h.algorithmType.toNat with - | a
  · refine iff_of_false (by simp) ?_
    rintro ⟨a, ha⟩
    have := ha.algorithm
    rw [← hh, halg] at this
    cases this
  simp only
  have huniq : ∀ a', Accepted sha alloc m data a' → a' = a := by
    intro a' ha'
    have := ha'.algorithm
    rw [← hh, halg, Option.some.injEq] at this
    exact this.symm
  by_cases hsize : h.hashSize.toNat ≠ a.hashLen
  · rw [if_pos hsize]
    refine iff_of_false (by simp) ?_
    rintro ⟨a', ha'⟩
    obtain rfl := huniq a' ha'
    exact hsize ha'.size
  rw [if_neg hsize]
  have hsize' : h.hashSize.toNat = a.hashLen := not_not.mp hsize
  have hlen : (m.read (hashAt m data) h.hashSize.toNat).length =
      (sha.computed h.algorithmType.toNat (signedData m data)).length := by
    rw [Mem.length_read, hsize', (algorithm_spec hsha hnone halg _).1]
  by_cases hhash : avbSafeMemcmp (m.read (hashAt m data) h.hashSize.toNat)
      (sha.computed h.algorithmType.toNat (signedData m data)) = true
  · rw [if_pos hhash]
    refine iff_of_false (by simp) ?_
    rintro ⟨a', ha'⟩
    rw [(avbSafeMemcmp_iff hlen).mpr ha'.hash] at hhash
    cases hhash
  rw [if_neg hhash]
  have hhash' := (avbSafeMemcmp_iff hlen).mp (Bool.eq_false_iff.mpr hhash)
  by_cases hrsa : avbRsaVerify m alloc (publicKeyAt m data) h.publicKeySize.toNat (signatureAt m data)
      h.signatureSize.toNat (hashAt m data) h.hashSize.toNat a.padding = true
  · rw [hrsa, Bool.not_true, if_neg Bool.false_ne_true]
    exact iff_of_true rfl ⟨a, hnone, halg, hsize', hhash', hrsa⟩
  · rw [if_pos (by rw [Bool.not_eq_true']; exact Bool.eq_false_iff.mpr hrsa)]
    refine iff_of_false (by simp) ?_
    rintro ⟨a', ha'⟩
    obtain rfl := huniq a' ha'
    exact hrsa ha'.signature

theorem verify_ok_iff_accepted (hsha : sha.Sized) : (avbVbmetaImageVerify sha alloc m data length).1 = .ok ↔
    WellFormed m data length (header m data) ∧ ∃ a, Accepted sha alloc m data a := by
  rcases verify_cases sha alloc m data length with ⟨hw, heq⟩ | ⟨hbad, heq⟩ | ⟨hnot, -, heq⟩
  · rw [heq, verifySignature_ok_iff hsha, and_iff_right hw]
  · exact iff_of_false (by simp [heq]) fun h => hbad.2.2 h.1.version
  · exact iff_of_false (by simp [heq]) fun h => hnot h.1

/-- The key of `ones` in the auxiliary block of an empty header. -/
def onesImage : Mem := fun i => ones (i - 256)

def zeroHashes : Hashes := ⟨fun _ => List.replicate 32 0, fun _ => List.replicate 64 0⟩

theorem zeroHashes_sized : zeroHashes.Sized := ⟨fun _ => List.length_replicate, fun _ => List.length_replicate⟩

theorem onesImage_key : PublicKey onesImage (publicKeyAt onesImage 0) :=
  ⟨by decide +kernel, by decide +kernel, by decide +kernel⟩

/-- An accepted image hands out a key, which is long enough to be one. -/
theorem verify_ok_key (hsha : sha.Sized) (h : (avbVbmetaImageVerify sha alloc m data length).1 = .ok) :
    (avbVbmetaImageVerify sha alloc m data length).2 = some (publicKeyAt m data, (header m data).publicKeySize.toNat) ∧
      520 ≤ (header m data).publicKeySize.toNat := by
  obtain ⟨-, a, ha⟩ := (verify_ok_iff_accepted hsha).mp h
  have hlen := keyNumBytes_of_verify ha.signature
  have hpos : (header m data).publicKeySize > 0 := UInt64.lt_iff_toNat_lt.mpr (show 0 < _ by omega)
  refine ⟨?_, hlen⟩
  rcases verify_cases sha alloc m data length with ⟨-, heq⟩ | ⟨-, heq⟩ | ⟨-, -, heq⟩
  · have hhash : avbSafeMemcmp (m.read (hashAt m data) (header m data).hashSize.toNat)
        (sha.computed (header m data).algorithmType.toNat (signedData m data)) = false :=
      (avbSafeMemcmp_iff (congrArg List.length ha.hash)).mpr ha.hash
    rw [heq, verifySignature]
    simp only
    rw [if_neg ha.signed, ha.algorithm]
    simp only
    rw [if_neg (not_not.mpr ha.size), hhash, if_neg Bool.false_ne_true, ha.signature, Bool.not_true,
      if_neg Bool.false_ne_true, if_pos hpos]
  · rw [heq] at h
    cases h
  · rw [heq] at h
    cases h

/-! ## Only the image is read -/

section Congr

variable {data' : ℕ}

theorem be64_congr {off off' : ℕ} (h : ∀ i < 8, m (off + i) = m' (off' + i)) : be64 m off = be64 m' off' := by
  have h0 := h 0 (by omega)
  rw [Nat.add_zero, Nat.add_zero] at h0
  rw [be64, be64, h0, h 1 (by omega), h 2 (by omega), h 3 (by omega), h 4 (by omega), h 5 (by omega), h 6 (by omega),
    h 7 (by omega)]

/-- The bytes of an image are the same at two places. -/
def SameImage (m m' : Mem) (data data' length : ℕ) : Prop := ∀ i < length, m (data + i) = m' (data' + i)

theorem SameImage.symm (h : SameImage m m' data data' length) : SameImage m' m data' data length := fun i hi => (h i hi).symm

theorem SameImage.part (h : SameImage m m' data data' length) {off n : ℕ} (hle : off + n ≤ length) :
    ∀ i < n, m (data + off + i) = m' (data' + off + i) := by
  intro i hi
  rw [Nat.add_assoc, Nat.add_assoc]
  exact h _ (by omega)

theorem SameImage.header (h : SameImage m m' data data' length) (hle : AVB_VBMETA_IMAGE_HEADER_SIZE ≤ length) :
    header m data = header m' data' := by
  have hle' : 256 ≤ length := hle
  have h32 : ∀ off, off + 4 ≤ 256 → be32 m (data + off) = be32 m' (data' + off) := fun off hoff =>
    be32_congr (h.part (by omega))
  have h64 : ∀ off, off + 8 ≤ 256 → be64 m (data + off) = be64 m' (data' + off) := fun off hoff =>
    be64_congr (h.part (by omega))
  unfold VbMeta.header avbVbmetaImageHeaderToHostByteOrder
  rw [AvbVBMetaImageHeader.mk.injEq]
  exact ⟨h32 _ (by decide), h32 _ (by decide), h64 _ (by decide), h64 _ (by decide), h32 _ (by decide), h64 _ (by decide),
    h64 _ (by decide), h64 _ (by decide), h64 _ (by decide), h64 _ (by decide), h64 _ (by decide), h64 _ (by decide),
    h64 _ (by decide), h64 _ (by decide), h64 _ (by decide), h64 _ (by decide), h32 _ (by decide), h _ (by omega)⟩

theorem SameImage.magic (h : SameImage m m' data data' length) (hle : AVB_VBMETA_IMAGE_HEADER_SIZE ≤ length) :
    m.read data 4 = m'.read data' 4 := by
  have hle' : 256 ≤ length := hle
  exact Mem.read_congr fun i hi => h i (by omega)

theorem SameImage.wellFormed (h : SameImage m m' data data' length) (hfit : data' + length < 2 ^ 64)
    (hw : WellFormed m data length (VbMeta.header m data)) : WellFormed m' data' length (VbMeta.header m' data') := by
  rw [← h.header hw.header]
  exact { hw with magic := (h.magic hw.header).symm.trans hw.magic, fits := hfit }

theorem SameImage.badVersion (h : SameImage m m' data data' length) (hb : BadVersion m data length) :
    BadVersion m' data' length := by
  refine ⟨hb.1, (h.magic hb.1).symm.trans hb.2.1, ?_⟩
  rw [← h.header hb.1]
  exact hb.2.2

theorem SameImage.verifySignature (h : SameImage m m' data data' length)
    (hw : WellFormed m data length (VbMeta.header m data)) (sha : Hashes) (alloc : Mallocs) :
    (VbMeta.verifySignature sha alloc m data).1 = (VbMeta.verifySignature sha alloc m' data').1 ∧
      ∀ k n, (VbMeta.verifySignature sha alloc m data).2 = some (data + k, n) ↔
        (VbMeta.verifySignature sha alloc m' data').2 = some (data' + k, n) := by
  have hblocks : 256 + (VbMeta.header m data).authenticationDataBlockSize.toNat +
    (VbMeta.header m data).auxiliaryDataBlockSize.toNat ≤ length := hw.blocks
  have hhash := hw.hash
  have hsig := hw.signature
  have hkey := hw.publicKey
  have hheader := h.header hw.header
  have hdigest : ∀ i < (VbMeta.header m data).hashSize.toNat, m (hashAt m data + i) = m' (hashAt m' data' + i) := by
    rw [hashAt, hashAt, ← hheader, Nat.add_assoc data, Nat.add_assoc data']
    exact h.part (show 256 + _ + _ ≤ _ by omega)
  have hsignature : ∀ i < (VbMeta.header m data).signatureSize.toNat,
      m (signatureAt m data + i) = m' (signatureAt m' data' + i) := by
    rw [signatureAt, signatureAt, ← hheader, Nat.add_assoc data, Nat.add_assoc data']
    exact h.part (show 256 + _ + _ ≤ _ by omega)
  have haux : ∀ i < (VbMeta.header m data).auxiliaryDataBlockSize.toNat,
      m (auxiliaryAt m data + i) = m' (auxiliaryAt m' data' + i) := by
    rw [auxiliaryAt, auxiliaryAt, ← hheader, Nat.add_assoc data, Nat.add_assoc data']
    exact h.part (show 256 + _ + _ ≤ _ by omega)
  have hpublic : ∀ i < (VbMeta.header m data).publicKeySize.toNat,
      m (publicKeyAt m data + i) = m' (publicKeyAt m' data' + i) := by
    intro i hi
    rw [publicKeyAt, publicKeyAt, ← hheader, Nat.add_assoc, Nat.add_assoc]
    exact haux _ (by omega)
  have hdata : signedData m data = signedData m' data' := by
    rw [signedData, signedData, ← hheader, Mem.read_congr haux, Mem.read_congr fun i hi => h i (hi.trans_le hw.header)]
  have hplace : ∃ off, publicKeyAt m data = data + off ∧ publicKeyAt m' data' = data' + off := by
    refine ⟨256 + (VbMeta.header m data).authenticationDataBlockSize.toNat + (VbMeta.header m data).publicKeyOffset.toNat,
      ?_, ?_⟩
    · rw [publicKeyAt, auxiliaryAt, AVB_VBMETA_IMAGE_HEADER_SIZE]
      omega
    · rw [publicKeyAt, auxiliaryAt, AVB_VBMETA_IMAGE_HEADER_SIZE, ← hheader]
      omega
  obtain ⟨off, hoff, hoff'⟩ := hplace
  unfold VbMeta.verifySignature
  simp only [← hheader]
  by_cases hnone : (VbMeta.header m data).algorithmType.toNat = AVB_ALGORITHM_TYPE_NONE
  · rw [if_pos hnone, if_pos hnone]
    exact ⟨rfl, by simp⟩
  rw [if_neg hnone, if_neg hnone]
  rcases avbGetAlgorithmData (VbMeta.header m data).algorithmType.toNat with - | a
  · exact ⟨rfl, by simp⟩
  simp only [← Mem.read_congr hdigest, ← hdata, ← avbRsaVerify_congr alloc hpublic hsignature hdigest]
  split_ifs
  iterate 3 exact ⟨rfl, by simp⟩
  · refine ⟨rfl, fun k n => ?_⟩
    simp only [Option.some.injEq, Prod.mk.injEq, hoff, hoff', Nat.add_left_cancel_iff]
  · exact ⟨rfl, by simp⟩

/-- The result depends on the bytes of the image alone: not on what stands around it, and not on where it is. -/
theorem verify_congr (hfit : data + length < 2 ^ 64) (hfit' : data' + length < 2 ^ 64) (h : SameImage m m' data data' length) :
    (avbVbmetaImageVerify sha alloc m data length).1 = (avbVbmetaImageVerify sha alloc m' data' length).1 ∧
      ∀ k n, (avbVbmetaImageVerify sha alloc m data length).2 = some (data + k, n) ↔
        (avbVbmetaImageVerify sha alloc m' data' length).2 = some (data' + k, n) := by
  rcases verify_cases sha alloc m data length with ⟨hw, heq⟩ | ⟨hb, heq⟩ | ⟨hnot, hgood, heq⟩
  · rcases verify_cases sha alloc m' data' length with ⟨-, heq'⟩ | ⟨hb', -⟩ | ⟨hnot', -⟩
    · rw [heq, heq']
      exact h.verifySignature hw sha alloc
    · exact absurd (h.symm.badVersion hb') fun hb => hb.2.2 hw.version
    · exact absurd (h.wellFormed hfit' hw) hnot'
  · rcases verify_cases sha alloc m' data' length with ⟨hw', -⟩ | ⟨-, heq'⟩ | ⟨-, hgood', -⟩
    · exact absurd hw'.version (h.badVersion hb).2.2
    · rw [heq, heq']
      exact ⟨rfl, by simp⟩
    · exact absurd (h.badVersion hb) hgood'
  · rcases verify_cases sha alloc m' data' length with ⟨hw', -⟩ | ⟨hb', -⟩ | ⟨-, -, heq'⟩
    · exact absurd (h.symm.wellFormed hfit hw') hnot
    · exact absurd (h.symm.badVersion hb') hgood
    · rw [heq, heq']
      exact ⟨rfl, by simp⟩

theorem verify_congr_ones : (avbVbmetaImageVerify zeroHashes ⟨true, true, true⟩ onesImage 0 1024).1 =
    (avbVbmetaImageVerify zeroHashes ⟨true, true, true⟩ (fun i => onesImage (i - 4096)) 4096 1024).1 :=
  (verify_congr (by norm_num) (by norm_num) fun i _ => by simp).1

end Congr

end RCar.VbMeta
