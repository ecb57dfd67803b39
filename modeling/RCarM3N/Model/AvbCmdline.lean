import RCarM3N.Model.AvbOps

/-! The kernel command line of a verified slot: `avb_cmdline.c`, and the texts of `avb_util.c`. -/

namespace RCar.SlotVerify

open UBoot (IoResult VerifyResult)
open AvbRsa VbMeta

/-! ## Texts -/

/-- The loop over `m` of `avb_strstr`. -/
def matchFrom : List UInt8 → List UInt8 → Bool
  | [], _ => true
  | _ :: _, [] => false
  | b :: needle, c :: haystack => if c ≠ b then false else matchFrom needle haystack

/-- Where the needle is found first. -/
def avbStrstr (needle : List UInt8) : List UInt8 → Option ℕ
  | [] => none
  | c :: haystack =>
    match needle with
    | [] => (avbStrstr needle haystack).map (· + 1)
    | b :: bs => if c = b ∧ matchFrom bs haystack then some 0 else (avbStrstr needle haystack).map (· + 1)

def avbUppercase (str : List UInt8) : List UInt8 := str.map fun c => if c ≤ 0x7A ∧ c ≥ 0x61 then c - 0x20 else c

def hexDigits : List UInt8 := text "0123456789abcdef"

def hexData (data : List UInt8) : List UInt8 :=
  data.flatMap fun (b : UInt8) => [hexDigits.getD (b >>> 4).toNat 0, hexDigits.getD (b &&& 0x0f).toNat 0]

/-- The loop of `uint64_to_base10`, the lowest digit first. -/
def revDigits : ℕ → UInt64 → List UInt8
  | 0, _ => []
  | n + 1, value => ((value % 10).toUInt8 + 48) :: (if value / 10 = 0 then [] else revDigits n (value / 10))

def AVB_MAX_DIGITS_UINT64 : ℕ := 32

def uint64ToBase10 (value : UInt64) : List UInt8 := (revDigits (AVB_MAX_DIGITS_UINT64 - 1) value).reverse

section Ops

variable (ops : AvbOps)

/-- The loop of `avb_replace`: the result so far and what is left of `str`. An error is a jump to `out`. -/
def replaceLoop (search replace : List UInt8) : ℕ → Option (List UInt8) → List UInt8 →
    Prog State (Except (Option (List UInt8)) (Option (List UInt8) × List UInt8))
  | 0, ret, str => return .ok (ret, str)
  | fuel + 1, ret, str => do
    match avbStrstr search str with
    | none => return .ok (ret, str)
    | some numBefore =>
      let grown := ret.getD [] ++ (str.take numBefore ++ replace)
      if !(← allocated ops (grown.length + 1)) then
        return .error ret
      replaceLoop search replace fuel (some grown) (str.drop (numBefore + search.length))

/-- None is NULL. -/
def avbReplace (str search replace : List UInt8) : Prog State (Option (List UInt8)) := do
  match ← replaceLoop ops search replace (str.length + 1) none str with
  | .error ret => return ret
  | .ok (none, rest) => return if ← allocated ops (rest.length + 1) then some rest else none
  | .ok (some ret, rest) =>
    return if ← allocated ops (ret.length + rest.length + 1) then some (ret ++ rest) else some ret

/-! ## Substitutions -/

def AVB_MAX_NUM_CMDLINE_SUBST : ℕ := 10

def avbAddRootDigestSubstitution (partName digest : List UInt8) : Prog State VerifyResult := do
  let s ← Prog.get
  if partName.length ≥ AVB_PART_NAME_MAX_SIZE ∨ digest.length > AVB_SHA512_DIGEST_SIZE then
    return .errorInvalidMetadata
  if s.cmdlineSubst.length ≥ AVB_MAX_NUM_CMDLINE_SUBST then
    return .errorInvalidMetadata
  let token := text "$(AVB_" ++ partName ++ text "_ROOT_DIGEST)"
  if !(← allocated ops (token.length + 1)) then
    return .errorOom
  if !(← allocated ops (digest.length * 2 + 1)) then
    return .errorOom
  Prog.modify fun s => { s with cmdlineSubst := s.cmdlineSubst ++ [(avbUppercase token, hexData digest)] }
  return .ok

/-- The loop over the GUIDs: `ret` is NULL before the first replacement. None is a jump to `fail`. -/
def replaceGuids (cmdline abSuffix : List UInt8) : List (List UInt8 × List UInt8) → Option (List UInt8) →
    Prog State (Option (Option (List UInt8)))
  | [], ret => return some ret
  | (partNameStr, replaceStr) :: guids, ret => do
    -- the original command line decides, not the replaced one
    match avbStrstr replaceStr cmdline with
    | none => replaceGuids cmdline abSuffix guids ret
    | some _ =>
      match avbStrConcat partNameStr abSuffix with
      | none => return none
      | some partName =>
        let (ioRet, guid) ← call fun t => ops.getUniqueGuidForPartition t partName
        if ioRet ≠ .ok then
          return none
        match ← avbReplace ops (ret.getD cmdline) replaceStr guid with
        | none => return none
        | some newRet => replaceGuids cmdline abSuffix guids (some newRet)

/-- The loop over the additional substitutions. -/
def replaceTokens : List (List UInt8 × List UInt8) → List UInt8 → Prog State (Option (List UInt8))
  | [], ret => return some ret
  | (token, value) :: subst, ret => do
    match ← avbReplace ops ret token value with
    | none => return none
    | some newRet => replaceTokens subst newRet

def guidNames : List (List UInt8 × List UInt8) :=
  [(text "boot", text "$(ANDROID_BOOT_PARTUUID)"), (text "vbmeta", text "$(ANDROID_VBMETA_PARTUUID)")]

/-- None is NULL: no memory, or a GUID that is not found. The write to `part_name_str[2]` is past the end of the array. -/
def avbSubCmdline (cmdline abSuffix : List UInt8) (subst : List (List UInt8 × List UInt8)) :
    Prog State (Option (List UInt8)) := do
  match ← replaceGuids ops cmdline abSuffix guidNames none with
  | none => return none
  | some (some ret) => replaceTokens ops subst ret
  | some none =>
    if !(← allocated ops (cmdline.length + 1)) then
      return none
    replaceTokens ops subst cmdline

/-! ## Options -/

/-- Whether there was memory. -/
def cmdlineAppendOption (key value : List UInt8) : Prog State Bool := do
  let s ← Prog.get
  let cmdline := s.data.cmdline.getD []
  let start := if cmdline = [] then [] else cmdline ++ text " "
  if !(← allocated ops (start.length + key.length + value.length + 2)) then
    return false
  modifyData fun d => { d with cmdline := some (start ++ key ++ text "=" ++ value) }
  return true

def cmdlineAppendHex (key data : List UInt8) : Prog State Bool := do
  if !(← allocated ops (data.length * 2 + 1)) then
    return false
  cmdlineAppendOption ops key (hexData data)

/-- All the vbmeta images, one after the other. -/
def vbmetaBytes (d : AvbSlotVerifyData) : List UInt8 :=
  d.vbmetaImages.flatMap fun v => v.vbmetaData.mem.read v.vbmetaData.addr v.vbmetaSize.toNat

/-- The options of the digest of all vbmeta images; the algorithm decides on the hash function. -/
def appendDigest (sha : Hashes) (algorithmType : UInt32) : Prog State VerifyResult := do
  let s ← Prog.get
  let totalSize := (s.data.vbmetaImages.map AvbVBMetaData.vbmetaSize).sum
  let (name, digest) := if algorithmType.toNat ≤ 3 then (text "sha256", sha.sha256 (vbmetaBytes s.data)) else
    (text "sha512", sha.sha512 (vbmetaBytes s.data))
  if !(← cmdlineAppendOption ops (text "androidboot.vbmeta.hash_alg") name) then
    return .errorOom
  if !(← cmdlineAppendOption ops (text "androidboot.vbmeta.size") (uint64ToBase10 totalSize)) then
    return .errorOom
  if !(← cmdlineAppendHex ops (text "androidboot.vbmeta.digest") digest) then
    return .errorOom
  return .ok

/-- The values of `androidboot.veritymode` and of `$(ANDROID_VERITY_MODE)`. -/
def verityModes : AvbHashtreeErrorMode → Option (List UInt8 × List UInt8)
  | .restartAndInvalidate | .restart => some (text "enforcing", text "restart_on_corruption")
  | .eio => some (text "eio", text "ignore_zero_blocks")
  | .logging => some (text "logging", text "ignore_corruption")
  | .managedRestartAndEio => none

/-- The value of `androidboot.veritymode`, unless an error is returned. -/
def resolveVerityMode (toplevelFlags : UInt32) (resolved : AvbHashtreeErrorMode) : Prog State (Except VerifyResult (List UInt8)) := do
  if toplevelFlags &&& AVB_VBMETA_IMAGE_FLAGS_HASHTREE_DISABLED ≠ 0 then
    return .ok (text "disabled")
  match verityModes resolved with
  | none => return .error .errorInvalidArgument
  | some (verityMode, dmVerityMode) =>
    if resolved = .restartAndInvalidate then
      if !(← cmdlineAppendOption ops (text "androidboot.vbmeta.invalidate_on_error") (text "yes")) then
        return .error .errorOom
    let s ← Prog.get
    let newRet ← avbReplace ops (s.data.cmdline.getD []) (text "$(ANDROID_VERITY_MODE)") dmVerityMode
    modifyData fun d => { d with cmdline := newRet }
    return if newRet.isSome then .ok verityMode else .error .errorOom

def avbAppendOptions (sha : Hashes) (toplevelFlags algorithmType : UInt32)
    (hashtreeErrorMode resolvedHashtreeErrorMode : AvbHashtreeErrorMode) : Prog State VerifyResult := do
  if !(← cmdlineAppendOption ops (text "androidboot.vbmeta.device") (text "PARTUUID=$(ANDROID_VBMETA_PARTUUID)")) then
    return .errorOom
  if !(← cmdlineAppendOption ops (text "androidboot.vbmeta.avb_version")
      (uint64ToBase10 AVB_VERSION_MAJOR.toUInt64 ++ text "." ++ uint64ToBase10 AVB_VERSION_MINOR.toUInt64)) then
    return .errorOom
  let (ioRet, isDeviceUnlocked) ← call ops.readIsDeviceUnlocked
  if let some ret := ioFailure ioRet then
    return ret
  if !(← cmdlineAppendOption ops (text "androidboot.vbmeta.device_state")
      (if isDeviceUnlocked then text "unlocked" else text "locked")) then
    return .errorOom
  let ret ← appendDigest ops sha algorithmType
  if ret ≠ .ok then
    return ret
  match ← resolveVerityMode ops toplevelFlags resolvedHashtreeErrorMode with
  | .error ret => return ret
  | .ok verityMode =>
    if !(← cmdlineAppendOption ops (text "androidboot.veritymode") verityMode) then
      return .errorOom
    if hashtreeErrorMode = .managedRestartAndEio then
      if !(← cmdlineAppendOption ops (text "androidboot.veritymode.managed") (text "yes")) then
        return .errorOom
    return .ok

end Ops

end RCar.SlotVerify
