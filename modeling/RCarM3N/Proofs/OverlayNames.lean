import RCarM3N.Model.OverlayNames

/-! When the collected overlays fit their array and are the ones that were asked for. The search takes the first
entry whose name the requested name starts with, so a shorter name in front hides the right one; and nothing
counts the requests. -/

namespace RCar.DeviceTree

open Fastboot (CStr ascii cstrOf)

/-! ## The search -/

/-- With the length of the second text for a limit, the comparison asks for a prefix. -/
theorem strncmpSame_iff (a b : CStr) : strncmpSame b.length a b = true ↔ b <+: a := by
  induction b generalizing a with
  | nil => simp [strncmpSame]
  | cons d b ih =>
    cases a with
    | nil => simp [strncmpSame]
    | cons c a =>
      rw [List.length_cons, strncmpSame, Bool.and_eq_true, ih, decide_eq_true_iff, List.cons_prefix_cons]
      exact and_congr_left' eq_comm

/-- A name fits the buffer that it is made in. -/
theorem length_customToStr_le (custom : Custom) : (customToStr custom).length ≤ maxNameLen := by
  have hfields : ∀ l : List UInt32, (l.flatMap fun field => fieldText field ++ [45]).length = 5 * l.length := by
    intro l
    induction l with
    | nil => rfl
    | cons field l ih =>
      rw [List.flatMap_cons, List.length_append, ih, List.length_cons]
      simp only [fieldText, List.cons_append, List.nil_append, List.length_cons, List.length_nil]
      omega
  have hcount : ((List.ofFn custom).takeWhile (· ≠ 0)).length ≤ 4 := by
    refine (List.takeWhile_prefix _).length_le.trans ?_
    rw [List.length_ofFn]
  have hstr : (customToStr custom).length ≤
      (((List.ofFn custom).takeWhile (· ≠ 0)).flatMap fun field => fieldText field ++ [45]).dropLast.length :=
    (List.takeWhile_prefix _).length_le
  rw [List.length_dropLast, hfields] at hstr
  unfold maxNameLen
  omega

/-! ## The entries -/

def names (table : List Custom) : List CStr := table.map customToStr

variable {table : List Custom}

theorem length_info : (getNameInfo table).length = table.length := List.length_mapIdx

theorem length_names : (names table).length = table.length := List.length_map _

theorem names_eq : names table = (getNameInfo table).map (·.name) := by
  apply List.ext_getElem <;> simp [getNameInfo, names]

/-- The index in an entry is its place. -/
theorem info_idx {i : ℕ} (hi : i < table.length) : ((getNameInfo table)[i]?).map (·.idx) = some i := by
  simp [getNameInfo, hi]

variable {o : Collected} {name : CStr} {i : ℕ}

theorem findOverlayByName_eq (ho : o.info = getNameInfo table) (name : CStr) :
    findOverlayByName o name = (names table).findIdx? fun stored => strncmpSame stored.length name stored := by
  rw [findOverlayByName, ho, names_eq, List.findIdx?_map]
  rfl

/-- The search ends at the first entry whose name the requested one starts with. -/
theorem findOverlayByName_some (ho : o.info = getNameInfo table) (h : findOverlayByName o name = some i) :
    ∃ hi : i < (names table).length, (names table)[i] <+: name ∧
      ∀ j (hj : j < i), ¬ (names table)[j] <+: name := by
  rw [findOverlayByName_eq ho, List.findIdx?_eq_some_iff_getElem] at h
  obtain ⟨hi, hfound, hbefore⟩ := h
  refine ⟨hi, (strncmpSame_iff _ _).mp hfound, fun j hj hprefix => ?_⟩
  exact hbefore j hj ((strncmpSame_iff _ _).mpr hprefix)

theorem findOverlayByName_isSome (ho : o.info = getNameInfo table) :
    (findOverlayByName o name).isSome = true ↔ ∃ stored ∈ names table, stored <+: name := by
  rw [findOverlayByName_eq ho, List.findIdx?_isSome, List.any_eq_true]
  exact exists_congr fun stored => and_congr_right fun _ => strncmpSame_iff _ _

/-! ## The run -/

/-- The names that are searched for: those of the build, and those of the variable that are short enough. -/
def requests (build : Build) (bank4G : Bool) (platId : UInt32) (nullText : CStr) (dtboNames : Option CStr) : List CStr :=
  defaultDtbo build bank4G platId ++
    (dtboNames.elim [] (userNames nullText)).filter fun name => name.length ≤ maxNameLen

/-- Adding one name: what is found is stored if there is room. -/
theorem addOverlay_eq (ho : o.info = getNameInfo table) (name : CStr) :
    addOverlay o name = match findOverlayByName o name with
      | none => some o
      | some i => if o.orderIdx.length < table.length then some { o with orderIdx := o.orderIdx ++ [i] } else none := by
  unfold addOverlay
  cases hfind : findOverlayByName o name with
  | none => rfl
  | some i =>
    obtain ⟨hi, -⟩ := findOverlayByName_some ho hfind
    rw [length_names] at hi
    simp only [ho, info_idx hi, Option.bind_some, storeIndex, Collected.size, length_info]

/-- A run over names stores what is found, in this order, as long as there is room for all of it. -/
theorem foldlM_addOverlay (ho : o.info = getNameInfo table) (hroom : o.orderIdx.length ≤ table.length)
    (requested : List CStr) :
    requested.foldlM addOverlay o =
      if o.orderIdx.length + (requested.filterMap (findOverlayByName o)).length ≤ table.length then
        some { o with orderIdx := o.orderIdx ++ requested.filterMap (findOverlayByName o) }
      else none := by
  induction requested generalizing o with
  | nil => simp [hroom]
  | cons name requested ih =>
    rw [List.foldlM_cons, addOverlay_eq ho]
    cases hfind : findOverlayByName o name with
    | none =>
      rw [List.filterMap_cons_none hfind]
      exact ih ho hroom
    | some i =>
      rw [List.filterMap_cons_some hfind, List.length_cons]
      by_cases hfull : o.orderIdx.length < table.length
      · simp only [if_pos hfull, Option.bind_eq_bind, Option.bind_some]
        have hsame : ∀ x, findOverlayByName { o with orderIdx := o.orderIdx ++ [i] } x = findOverlayByName o x :=
          fun _ => rfl
        rw [ih (o := { o with orderIdx := o.orderIdx ++ [i] }) ho (by simpa using hfull)]
        simp only [funext hsame, List.length_append, List.length_singleton, List.append_assoc, List.singleton_append]
        rw [Nat.add_assoc, Nat.add_comm 1]
      · simp only [if_neg hfull, Option.bind_eq_bind, Option.bind_none]
        rw [if_neg (by omega)]

/-- The check of the length leaves the names that are searched for. -/
theorem foldlM_user (l : List CStr) :
    l.foldlM (fun o name => if maxNameLen < name.length then some o else addOverlay o name) o =
      (l.filter fun name => name.length ≤ maxNameLen).foldlM addOverlay o := by
  induction l generalizing o with
  | nil => rfl
  | cons name l ih =>
    rw [List.foldlM_cons, List.filter_cons]
    by_cases hlong : maxNameLen < name.length
    · rw [if_pos hlong, if_neg (by simpa using hlong)]
      exact ih
    · rw [if_neg hlong, if_pos (by simpa using hlong), List.foldlM_cons]
      exact congrArg _ (funext fun o => ih)

variable (build : Build) (bank4G : Bool) (platId : UInt32) (nullText : CStr) (dtboNames : Option CStr)

/-- Both collectors are one run over the names that are searched for. -/
theorem collectOverlays_eq (table : List Custom) :
    collectOverlays build bank4G platId nullText dtboNames table =
      let requested := requests build bank4G platId nullText dtboNames
      let found := requested.filterMap (findOverlayByName (initOverlays table))
      if found.length ≤ table.length then some ⟨getNameInfo table, found⟩ else none := by
  have hrun : collectOverlays build bank4G platId nullText dtboNames table =
      (requests build bank4G platId nullText dtboNames).foldlM addOverlay (initOverlays table) := by
    unfold collectOverlays requests addDefaultOverlays
    rw [List.foldlM_append]
    refine congrArg _ (funext fun o => ?_)
    cases dtboNames with
    | none => rfl
    | some envVal => exact foldlM_user (userNames nullText envVal)
  rw [hrun, foldlM_addOverlay (o := initOverlays table) rfl (Nat.zero_le _)]
  have hnil : (initOverlays table).orderIdx = [] := rfl
  rw [hnil, List.length_nil, Nat.zero_add, List.nil_append]
  rfl

/-! ## The right overlays -/

/-- All that is found has room, is an entry, and has exactly the name that was asked for. -/
def CollectsExactly (table : List Custom) : Prop :=
  ∃ o, collectOverlays build bank4G platId nullText dtboNames table = some o ∧
    o.orderIdx.length ≤ table.length ∧ (∀ i ∈ o.orderIdx, i < table.length) ∧
    ∀ name ∈ requests build bank4G platId nullText dtboNames, ∀ i,
      findOverlayByName (initOverlays table) name = some i → (names table)[i]? = some name

/-- Before an entry whose name a requested one only starts with, there is one with exactly the requested name. -/
def ExactFirst (table : List Custom) (name : CStr) : Prop :=
  ∀ (i : ℕ) (stored : CStr), (names table)[i]? = some stored → stored <+: name → stored ≠ name →
    ∃ j < i, (names table)[j]? = some name

theorem exactFirst_iff (table : List Custom) (name : CStr) :
    ExactFirst table name ↔
      ∀ i, findOverlayByName (initOverlays table) name = some i → (names table)[i]? = some name := by
  constructor
  · intro h i hfind
    obtain ⟨hi, hprefix, hbefore⟩ := findOverlayByName_some (o := initOverlays table) rfl hfind
    rw [List.getElem?_eq_getElem hi, Option.some.injEq]
    by_contra hne
    obtain ⟨j, hj, hother⟩ := h i _ (List.getElem?_eq_getElem hi) hprefix hne
    obtain ⟨hlt, heq⟩ := List.getElem?_eq_some_iff.mp hother
    exact hbefore j hj (heq ▸ List.prefix_rfl)
  · intro h i stored hstored hprefix hne
    have hmem : ∃ stored ∈ names table, stored <+: name := ⟨stored, List.mem_of_getElem? hstored, hprefix⟩
    obtain ⟨j, hfind⟩ := Option.isSome_iff_exists.mp ((findOverlayByName_isSome (o := initOverlays table) rfl).mpr hmem)
    obtain ⟨hj, -, hbefore⟩ := findOverlayByName_some (o := initOverlays table) rfl hfind
    have hexact := h j hfind
    obtain ⟨hi, rfl⟩ := List.getElem?_eq_some_iff.mp hstored
    refine ⟨j, ?_, hexact⟩
    rcases lt_trichotomy j i with hlt | rfl | hgt
    · exact hlt
    · exact absurd (Option.some.inj (hstored.symm.trans hexact)) hne
    · exact absurd hprefix (hbefore i hgt)

/-- Then a name that is found is the name of an entry. -/
theorem ExactFirst.found_iff {table : List Custom} {name : CStr} (h : ExactFirst table name) :
    (findOverlayByName (initOverlays table) name).isSome = true ↔ name ∈ names table := by
  constructor
  · intro hsome
    obtain ⟨i, hfind⟩ := Option.isSome_iff_exists.mp hsome
    exact List.mem_of_getElem? ((exactFirst_iff table name).mp h i hfind)
  · intro hmem
    exact (findOverlayByName_isSome (o := initOverlays table) rfl).mpr ⟨name, hmem, List.prefix_rfl⟩

theorem length_filterMap_find {α β : Type} (f : α → Option β) (l : List α) :
    (l.filterMap f).length = (l.filter fun a => (f a).isSome).length := by
  rw [List.length_filterMap_eq_countP, List.countP_eq_length_filter]

/-- The overlays are the ones that were asked for exactly if no name is taken for a longer one, and no more of the
requested names are names of entries than there are entries. -/
theorem collectsExactly_iff (table : List Custom) :
    CollectsExactly build bank4G platId nullText dtboNames table ↔
      (∀ name ∈ requests build bank4G platId nullText dtboNames, ExactFirst table name) ∧
        ((requests build bank4G platId nullText dtboNames).filter (· ∈ names table)).length ≤ table.length := by
  unfold CollectsExactly
  rw [collectOverlays_eq]
  simp only [← exactFirst_iff]
  have hcount : (∀ name ∈ requests build bank4G platId nullText dtboNames, ExactFirst table name) →
      ((requests build bank4G platId nullText dtboNames).filterMap (findOverlayByName (initOverlays table))).length =
        ((requests build bank4G platId nullText dtboNames).filter (· ∈ names table)).length := by
    intro hexact
    rw [length_filterMap_find, List.filter_congr]
    intro name hname
    rw [Bool.eq_iff_iff, (hexact name hname).found_iff, decide_eq_true_iff]
  constructor
  · rintro ⟨o, hrun, -, -, hexact⟩
    split_ifs at hrun with hroom
    exact ⟨hexact, (hcount hexact) ▸ hroom⟩
  · rintro ⟨hexact, hroom⟩
    rw [← hcount hexact] at hroom
    rw [if_pos hroom]
    refine ⟨_, rfl, hroom, fun i hi => ?_, hexact⟩
    obtain ⟨name, -, hfind⟩ := List.mem_filterMap.mp hi
    obtain ⟨hlt, -⟩ := findOverlayByName_some (o := initOverlays table) rfl hfind
    rwa [length_names] at hlt

/-- A build for the Salvator-X that adds no overlays of its own but the one that every build asks for. -/
def plainBuild : Build := ⟨false, .other, .salvatorX, false, false⟩

/-- A table with one entry, `rcar-avb`. -/
def avbTable : List Custom := [![0x72616372, 0x00627661, 0, 0]]

/-- A table with one entry that has no name. -/
def blankTable : List Custom := [![0, 0, 0, 0]]

/-- The entry is asked for by the build and by the user, and the second index has no room; and an entry without a
name is taken for any. -/
theorem asked_twice_overruns :
    ¬ CollectsExactly plainBuild false 0 [] (some (ascii "rcar-avb")) avbTable ∧
      ¬ CollectsExactly plainBuild false 0 [] none blankTable := by
  constructor
  · rintro ⟨o, hrun, -⟩
    have hnone : (collectOverlays plainBuild false 0 [] (some (ascii "rcar-avb")) avbTable).isNone = true := by
      decide +kernel
    rw [hrun] at hnone
    exact absurd hnone Bool.false_ne_true
  · rintro ⟨-, -, -, -, hexact⟩
    have hname := hexact (ascii "rcar-avb") (by decide +kernel) 0 (by decide +kernel)
    exact absurd hname (by decide +kernel)

/-! ## The array of names -/

/-- The names that the build asks for fit `default_dtbo`. -/
theorem length_defaultDtbo_le : (defaultDtbo build bank4G platId).length ≤ MAX_DEFAULT_OVERLAYS := by
  have hnames : ∀ target, (h3Names target platId).length ≤ 2 := fun target => by
    unfold h3Names
    split_ifs <;> cases target <;> simp
  have hlen := hnames build.target
  unfold defaultDtbo MAX_DEFAULT_OVERLAYS
  rcases build with ⟨_ | _, _ | _ | _, _ | _, _ | _, _ | _⟩ <;> cases bank4G <;> simp at hlen ⊢ <;> omega

end RCar.DeviceTree
