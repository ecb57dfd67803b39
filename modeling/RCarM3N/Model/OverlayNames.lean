import RCarM3N.Lib.Bytes
import RCarM3N.Lib.Text
import RCarM3N.Model.FbCommand

/-! How the overlays to apply are collected: the names of the entries of the `dtbo` table, the names that the
build and the board ask for, and those of the variable `dtbo_names`. Memory is always there when it is asked
for; an index that is stored behind `order_idx` stops the model. -/

namespace RCar.DeviceTree

open Fastboot (CStr ascii cstrOf)

/-! ## The names of the entries -/

/-- The four custom words of an entry, as a little-endian processor reads them. -/
abbrev Custom := Fin 4 → UInt32

def fieldText (field : UInt32) : CStr := [byte32 field 0, byte32 field 1, byte32 field 2, byte32 field 3]

/-- `custom_to_str`: a hyphen behind each field up to the first that is 0, the last hyphen replaced by the end. -/
def customToStr (custom : Custom) : CStr :=
  cstrOf (((List.ofFn custom).takeWhile (· ≠ 0)).flatMap fun field => fieldText field ++ [45]).dropLast

/-- What `get_dt_info` keeps of an entry for the search. -/
structure NameInfo where
  name : CStr
  idx : ℕ

def getNameInfo (table : List Custom) : List NameInfo := table.mapIdx fun i custom => ⟨customToStr custom, i⟩

/-- `order_idx` has room for as many indexes as there are entries; `applied_cnt` is the length of the list. -/
structure Collected where
  info : List NameInfo
  orderIdx : List ℕ

def Collected.size (o : Collected) : ℕ := o.info.length

def initOverlays (table : List Custom) : Collected := ⟨getNameInfo table, []⟩

/-! ## The search -/

/-- `!strncmp(a, b, n)` -/
def strncmpSame : ℕ → CStr → CStr → Bool
  | 0, _, _ => true
  | _ + 1, [], [] => true
  | n + 1, c :: a, d :: b => c = d && strncmpSame n a b
  | _ + 1, [], _ :: _ => false
  | _ + 1, _ :: _, [] => false

def findOverlayByName (o : Collected) (name : CStr) : Option ℕ :=
  o.info.findIdx? fun info => strncmpSame info.name.length name info.name

/-- The store at `order_idx[applied_cnt]`. -/
def storeIndex (o : Collected) (idx : ℕ) : Option Collected :=
  if o.orderIdx.length < o.size then some { o with orderIdx := o.orderIdx ++ [idx] } else none

/-- The body of both loops: a name that is not found is only printed. -/
def addOverlay (o : Collected) (name : CStr) : Option Collected :=
  match findOverlayByName o name with
  | none => some o
  | some i => ((o.info[i]?).map (·.idx)).bind (storeIndex o)

/-! ## Names from the variable -/

def maxNameLen : ℕ := 4 * 4 + 3

/-- What the calls of `strtok` with blank and comma return. Of a text without names, the text at address 0 is
looked at. -/
def userNames (nullText envVal : CStr) : List CStr :=
  match tokens 32 (envVal.map fun c => if c = 44 then 32 else c) with
  | [] => [nullText]
  | names => names

def addUserOverlays (nullText : CStr) (dtboNames : Option CStr) (o : Collected) : Option Collected :=
  match dtboNames with
  | none => some o
  | some envVal => (userNames nullText envVal).foldlM
      (fun o name => if maxNameLen < name.length then some o else addOverlay o name) o

/-! ## Names from the build -/

inductive Target where
  | ulcb
  | salvatorX

inductive DramMap where
  | auto
  | map4_2
  | other

/-- What the build sets. The header has names for these two targets alone. -/
structure Build where
  r8a7795 : Bool
  dram : DramMap
  target : Target
  adsp : Bool
  cms : Bool

def H3v3_PLAT_ID : Target → UInt32
  | .ulcb => 0x0b779530
  | .salvatorX => 0x04779530

def H3v2_PLAT_ID : Target → UInt32
  | .ulcb => 0x0b779520
  | .salvatorX => 0x04779520

/-- The names for a revision of the H3: of its memory, and of itself. -/
def h3Names (target : Target) (platId : UInt32) : List CStr :=
  if platId = H3v3_PLAT_ID target then
    match target with
    | .ulcb => [ascii "skkf-4x2g-30", ascii "skkf-v3"]
    | .salvatorX => [ascii "salv-4x2g-30", ascii "salv-v3"]
  else if platId = H3v2_PLAT_ID target then
    match target with
    | .ulcb => [ascii "skkf-4x2g-20", ascii "skkf-v2"]
    | .salvatorX => [ascii "salv-4x2g-20", ascii "salv-v2"]
  else []

def MAX_DEFAULT_OVERLAYS : ℕ := 10

/-- `default_dtbo`; the size of the DRAM banks is asked for in an automatic build. -/
def defaultDtbo (build : Build) (bank4G : Bool) (platId : UInt32) : List CStr :=
  (if build.r8a7795 then
    match build.dram with
    | .auto => if bank4G then h3Names build.target platId else []
    | .map4_2 => h3Names build.target platId
    | .other => []
  else []) ++
  (if build.adsp then
    match build.target with
    | .ulcb => [ascii "skkf-adsp"]
    | .salvatorX => [ascii "salv-adsp"]
  else []) ++
  (if build.cms then [ascii "rcar-cms"] else []) ++ [ascii "rcar-avb"]

def addDefaultOverlays (build : Build) (bank4G : Bool) (platId : UInt32) (o : Collected) : Option Collected :=
  (defaultDtbo build bank4G platId).foldlM addOverlay o

/-- The two collectors, as `load_dt_with_overlays` calls them. -/
def collectOverlays (build : Build) (bank4G : Bool) (platId : UInt32) (nullText : CStr) (dtboNames : Option CStr)
    (table : List Custom) : Option Collected := do
  let o ← addDefaultOverlays build bank4G platId (initOverlays table)
  addUserOverlays nullText dtboNames o

end RCar.DeviceTree
