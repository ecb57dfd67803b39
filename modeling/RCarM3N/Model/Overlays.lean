import RCarM3N.Lib.Text
import RCarM3N.Model.FbCommand

/-! Device-tree overlays, `device-tree-common.c`: the list of overlays in the kernel's command line, as
`add_dtbo_index` writes it and `get_overlay_order` reads it, and their application to the base tree. What
libfdt does to a tree is a parameter. A buffer that is left stops the model: nothing is said about what
the code does then. -/

namespace RCar.DeviceTree

open Fastboot (CStr ascii isdigit numeral simpleStrtoul)

/-! ## The command line -/

def isspace (c : UInt8) : Bool := (9 ≤ c && c ≤ 13) || c = 32 || c = 160

def skipSpaces (s : CStr) : CStr := s.dropWhile isspace

/-- The characters up to the first blank outside of quotes, and what follows. -/
def scanWord : Bool → CStr → CStr × CStr
  | _, [] => ([], [])
  | inQuote, c :: s =>
    if isspace c ∧ inQuote = false then ([], c :: s)
    else
      let r := scanWord (if c = 34 then !inQuote else inQuote) s
      (c :: r.1, r.2)

/-- An argument: its name and, behind a `=`, its value. -/
abbrev Arg := CStr × Option CStr

/-- The name and the text behind the first `=` that is not the first character. -/
def splitEquals : CStr → CStr × Option CStr
  | [] => ([], none)
  | c :: s =>
    match s.dropWhile (· ≠ 61) with
    | [] => (c :: s, none)
    | _ :: value => (c :: s.takeWhile (· ≠ 61), some value)

/-- The text without a quote at its end. -/
def dropQuote (s : CStr) : CStr := if s.getLast? = some 34 then s.dropLast else s

/-- The argument that a word is, `quoted` when a quote stood before it. -/
def wordArg (quoted : Bool) (word : CStr) : Arg :=
  match splitEquals word with
  | (_, none) => (if quoted then dropQuote word else word, none)
  | (param, some (34 :: value)) => (param, some (dropQuote value))
  | (param, some value) => (param, some (if quoted then dropQuote value else value))

/-- `next_arg`, on a text that is not empty. -/
def nextArg (args : CStr) : Arg × CStr :=
  let quoted : Bool := args.head? = some 34
  let r := scanWord quoted (if quoted then args.tail else args)
  (wordArg quoted r.1, skipSpaces r.2.tail)

/-- At most `n` calls of `next_arg`. -/
def argsUpTo : ℕ → CStr → List Arg
  | 0, _ => []
  | n + 1, next => if next = [] then [] else (nextArg next).1 :: argsUpTo n (nextArg next).2

/-- The arguments of a command line: a call takes at least one character. -/
def parseArgs (cmdline : CStr) : List Arg := argsUpTo cmdline.length (skipSpaces cmdline)

/-- An argument as `add_dtbo_index` prints it. -/
def printArg : Arg → CStr
  | (param, none) => param ++ [32]
  | (param, some value) =>
    if 32 ∈ value then param ++ [61, 34] ++ value ++ [34, 32] else param ++ [61] ++ value ++ [32]

/-! ## The order of the overlays -/

/-- `ustrtoul`, base 10: the number and what follows it. -/
def ustrtoul (cp : CStr) : UInt64 × CStr :=
  let result := simpleStrtoul cp 10
  let unit (s : CStr) : CStr :=
    let s := if s.head? = some 105 then s.tail else s
    if s.head? = some 66 then s.tail else s
  match cp.drop (numeral cp 10).length with
  | [] => (result, [])
  | c :: rest =>
    if c = 103 ∨ c = 71 then (result * 1024 * 1024 * 1024, unit rest)
    else if c = 109 ∨ c = 77 then (result * 1024 * 1024, unit rest)
    else if c = 107 ∨ c = 75 then (result * 1024, unit rest)
    else (result, c :: rest)

/-- The loop of `get_overlay_order`, with room for `n` more indexes. -/
def readOrder (maxSize : ℕ) : ℕ → CStr → List ℕ
  | 0, _ => []
  | n + 1, iter =>
    if (iter.head?.any isdigit) = false then []
    else
      let r := ustrtoul iter
      if maxSize ≤ r.1.toNat then []
      else r.1.toNat :: match r.2 with
        | 44 :: iter => readOrder maxSize n iter
        | _ => []

/-- `strstr`: the text behind the first occurrence. -/
def behind (s sub : CStr) : Option CStr := (s.tails.find? sub.isPrefixOf).map (·.drop sub.length)

def DTBO_IDX : CStr := ascii "androidboot.dtbo_idx"

/-- Of a variable that is not set, the text at address 0 is read. -/
def getOverlayOrder (nullText : CStr) (bootargs : Option CStr) (maxSize : ℕ) : List ℕ :=
  match behind (bootargs.getD nullText) DTBO_IDX with
  | some (61 :: iter) => readOrder maxSize maxSize iter
  | _ => []

/-! ## Overlays -/

/-- An entry of a table of trees, and the tree that it stands for. -/
structure DtTableEntry (T : Type) where
  id : UInt32
  dtSize : ℕ
  tree : T

structure DeviceTreeInfo (T : Type) where
  entry : DtTableEntry T
  idx : ℕ

/-- `get_dt_info` -/
def getDtInfo {T : Type} (entries : List (DtTableEntry T)) : List (DeviceTreeInfo T) :=
  entries.mapIdx fun i entry => ⟨entry, i⟩

/-- The entries of the table, and the overlays that are to be applied: `order_idx` has room for as many
as there are entries. -/
structure DtOverlays (T : Type) where
  entries : List (DtTableEntry T)
  orderIdx : List ℕ
  order_lt : ∀ i ∈ orderIdx, i < entries.length
  order_le : orderIdx.length ≤ entries.length

namespace DtOverlays

variable {T : Type}

def info (o : DtOverlays T) : List (DeviceTreeInfo T) := getDtInfo o.entries

def size (o : DtOverlays T) : ℕ := o.entries.length

/-- `info[order_idx[i]].idx` of every overlay that is to be applied. -/
def idxs (o : DtOverlays T) : List ℕ := o.orderIdx.filterMap fun i => (o.info[i]?).map (·.idx)

end DtOverlays

def MAX_OVERLAYS : ℕ := 100

/-- Numbers with commas between them. -/
def indexList (idxs : List ℕ) : CStr := [44].intercalate (idxs.map (numberText 10))

variable {T : Type}

/-- The outer value is missing when the buffer is left, the inner one when no string is made. -/
def assembleDtboIdxString (o : DtOverlays T) : Option (Option CStr) :=
  let bufSize := o.size * 3 + (DTBO_IDX ++ [61]).length
  let newstr := DTBO_IDX ++ [61] ++ indexList o.idxs
  if o.orderIdx = [] then some none
  else if o.idxs.any (MAX_OVERLAYS ≤ ·) then some none
  else if bufSize < newstr.length + 1 then none
  else some (some newstr)

/-- The variable `bootargs` after `add_dtbo_index`; nothing when a buffer is left. -/
def addDtboIndex (o : DtOverlays T) (bootargs : Option CStr) : Option (Option CStr) := do
  match bootargs with
  | none => assembleDtboIdxString o
  | some bootargs =>
    let cmdlineSize := o.size * 3 + DTBO_IDX.length + bootargs.length
    let args := parseArgs bootargs
    let newBootargs := (args.filter (·.1 ≠ DTBO_IDX)).flatMap printArg
    if cmdlineSize < newBootargs.length + 1 then none
    let dtboVals := (args.filter (·.1 = DTBO_IDX)).getLast?.bind (·.2)
    match dtboVals, ← assembleDtboIdxString o with
    | _, none => return some bootargs
    | none, some value =>
      if cmdlineSize < (newBootargs ++ value).length + 1 then none
      return some (newBootargs ++ value)
    | some vals, some value =>
      -- the merged text is made in the buffers and thrown away
      let merged := value ++ [44] ++ vals
      if o.size * 3 + (DTBO_IDX ++ [61]).length < merged.length + 1 then none
      if cmdlineSize < (newBootargs ++ merged).length + 1 then none
      return some bootargs

/-! ## Application -/

/-- What libfdt does to a tree: whether it succeeds, and what it leaves in the buffer. -/
structure Libfdt (T : Type) where
  totalsize : T → ℕ
  openInto : T → ℕ → Bool × T
  overlayApply : T → T → Bool × T
  totalsize_openInto : ∀ fdt n, (openInto fdt n).1 = true → totalsize (openInto fdt n).2 = n
  totalsize_overlayApply : ∀ fdt fdto, (overlayApply fdt fdto).1 = true →
    totalsize (overlayApply fdt fdto).2 = totalsize fdt

def RCAR_GENERIC_PLAT_ID : UInt32 := 0x00779000

section

variable (lib : Libfdt T) (o : DtOverlays T) (platId : UInt32)

def calculateMaxDtSize (base : DtTableEntry T) (order : List ℕ) : ℕ :=
  order.foldl (fun size dtNum => size + ((o.info[dtNum]?).map (·.entry.dtSize)).getD 0) base.dtSize

/-- The loop of `apply_all_overlays`: what stands at the load address and in `result_dt_buf`, and the count.
Nothing when a buffer is left, or when an overlay is longer than its entry says. -/
def applyLoop (maxDtSize : ℕ) : List ℕ → T → T → ℕ → Option (T × ℕ)
  | [], loadAddr, _, overlayCount => some (loadAddr, overlayCount)
  | dtNum :: order, loadAddr, resultDtBuf, overlayCount =>
    if o.size < dtNum then some (loadAddr, overlayCount)
    else match o.info[dtNum]? with
      | none => none
      | some info =>
        if info.entry.id ≠ platId ∧ info.entry.id ≠ RCAR_GENERIC_PLAT_ID then some (loadAddr, overlayCount)
        else
          let overlayBuf := info.entry.tree
          let bufsize := lib.totalsize resultDtBuf + lib.totalsize overlayBuf
          if info.entry.dtSize < lib.totalsize overlayBuf ∨ maxDtSize < bufsize then none
          else
            let opened := lib.openInto resultDtBuf bufsize
            if !opened.1 then some (loadAddr, overlayCount)
            else
              let applied := lib.overlayApply opened.2 overlayBuf
              -- a tree that is damaged stays in the buffer
              if !applied.1 then some (loadAddr, overlayCount)
              else applyLoop maxDtSize order applied.2 applied.2 (overlayCount + 1)

/-- The tree at the load address and the number of overlays. -/
def applyAllOverlays (nullText : CStr) (bootargs : Option CStr) (base : DtTableEntry T) (loadAddr : T) :
    Option (T × ℕ) :=
  let order := getOverlayOrder nullText bootargs o.size
  if order = [] then some (loadAddr, 0)
  else
    let maxDtSize := calculateMaxDtSize o base order
    if maxDtSize < lib.totalsize loadAddr then none
    else applyLoop lib o platId maxDtSize order loadAddr loadAddr 0

/-- What `load_dt_with_overlays` leaves and prints. -/
structure Loaded (T : Type) where
  loadAddr : T
  bootargs : Option CStr
  appliedOverlays : ℕ
  /-- the indexes in the list of applied overlays -/
  printed : List ℕ

/-- `load_dt_with_overlays` from the base tree at the load address on. The entries of `order_idx` behind
the last overlay are never written. -/
def loadOverlays (nullText : CStr) (bootargs : Option CStr) (base : DtTableEntry T) (loadAddr : T) :
    Option (Loaded T) := do
  let bootargs ← addDtboIndex o bootargs
  let (loadAddr, appliedOverlays) ← applyAllOverlays lib o platId nullText bootargs base loadAddr
  if o.orderIdx.length < appliedOverlays then none
  return ⟨loadAddr, bootargs, appliedOverlays, o.idxs.take appliedOverlays⟩

end

end RCar.DeviceTree
