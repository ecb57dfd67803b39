import RCarM3N.Model.BootArgs

/-! When the kernel's command line is extended in full. The counted sizes leave room for one character
less than the longest argument needs in three of the five functions. -/

namespace RCar.Boota

open Fastboot (CStr ascii cstrOf)

/-! ## What a call should do -/

/-- The argument of a call, in full. -/
def newArgument (s : BoardState) : Call → Option CStr
  | .boardId => some (ascii "androidboot.board_id=0x" ++ numberText 16 s.platId.toNat)
  | .cpuRevision => some (ascii "androidboot.revision=" ++ numberText 10 (cpuRevision s.prr).1.toNat ++ ascii "." ++
      numberText 10 (cpuRevision s.prr).2.toNat)
  | .blkdevparts => if s.iplLocked = some false then some (otaCriticalPart s.blSize) else none
  | .fakertc => some (ascii "init_time=" ++ numberText 10 (rtcSeconds s.rtcTime).toNat)
  | .bootreason => some (ascii "androidboot.bootreason=" ++ bootReason s.ramReason s.bcbReason)

/-- The new value is the argument and the old value, both in full, and fits its buffer; without an old value it begins with
the argument. -/
structure Extends (bootargs : Option CStr) (arg : CStr) (u : Update) : Prop where
  inside : u.written ≤ u.allocated
  value : match bootargs with
    | some old => u.value = arg ++ ascii " " ++ old
    | none => arg <+: u.value

/-- A call that has something to add, and the memory for it, adds it; any other leaves the value as it is. -/
def AddsAll (s : BoardState) (bootargs : Option CStr) (c : Call) : Prop :=
  match newArgument s c with
  | none => call s bootargs c = bootargs
  | some arg => if s.allocated then ∃ u, setArgs s bootargs c = some u ∧ call s bootargs c = some u.value ∧
      Extends bootargs arg u else call s bootargs c = bootargs

/-- The values that fit the counted sizes. -/
def Fits (s : BoardState) (bootargs : Option CStr) : Call → Prop
  | .boardId => s.platId.toNat < 16 ^ (if bootargs.isSome then 9 else 10)
  | .cpuRevision => bootargs.isSome → (cpuRevision s.prr).1.toNat < 10 ∨ (cpuRevision s.prr).2.toNat < 10
  | .blkdevparts => True
  | .fakertc => bootargs.isSome → (rtcSeconds s.rtcTime).toNat < 10 ^ 9
  | .bootreason => (bootReason s.ramReason s.bcbReason).length ≤ if bootargs.isSome then 103 else 104

/-! ## Formatting -/

/-- What the text takes of its buffer beside the old value: a blank, and the terminator. -/
def margin (bootargs : Option CStr) : ℕ := if bootargs.isSome then 2 else 1

/-- The argument is there in full if it is no longer than the part of the buffer that is counted for it. -/
theorem extends_formatArgs_iff {bootargs : Option CStr} {arg : CStr} {extra : ℕ} (hextra : 0 < extra) :
    Extends bootargs arg (formatArgs extra arg bootargs) ↔ arg.length + margin bootargs ≤ extra := by
  have hinside : (formatArgs extra arg bootargs).written ≤ (formatArgs extra arg bootargs).allocated := min_le_left _ _
  cases bootargs with
  | none =>
    have hvalue : arg <+: (formatArgs extra arg none).value ↔ arg.length ≤ 0 + extra - 1 := by
      unfold formatArgs Update.value
      rw [List.append_assoc]
      exact prefix_snprintf_append_iff
    constructor
    · intro h
      have hle := hvalue.mp h.value
      simp only [margin, Option.isSome_none, Bool.false_eq_true, if_false]
      omega
    · intro h
      refine ⟨hinside, hvalue.mpr ?_⟩
      simp only [margin, Option.isSome_none, Bool.false_eq_true, if_false] at h
      omega
  | some old =>
    have hlen : (arg ++ ascii " " ++ old).length = arg.length + 1 + old.length := by
      rw [List.length_append, List.length_append]
      rfl
    have hvalue : (formatArgs extra arg (some old)).value = arg ++ ascii " " ++ old ↔
        arg.length + 1 + old.length ≤ old.length + extra - 1 := by
      rw [← hlen]
      exact snprintf_eq_self_iff
    constructor
    · intro h
      have hle := hvalue.mp h.value
      simp only [margin, Option.isSome_some, if_true]
      omega
    · intro h
      refine ⟨hinside, hvalue.mpr ?_⟩
      simp only [margin, Option.isSome_some, if_true] at h
      omega

/-- The reason is cut to its own buffer first. -/
theorem extends_bootreason_iff {bootargs : Option CStr} {reason : CStr} :
    Extends bootargs (ascii "androidboot.bootreason=" ++ reason) (setBootreasonArgs reason bootargs) ↔
      23 + reason.length + margin bootargs ≤ 128 := by
  have hlen : (ascii "androidboot.bootreason=" ++ reason).length = 23 + reason.length := by
    rw [List.length_append]
    rfl
  have hmargin : 1 ≤ margin bootargs := by
    unfold margin
    split <;> decide
  unfold setBootreasonArgs
  by_cases hfits : 23 + reason.length ≤ 127
  · rw [snprintf_eq_self_iff.mpr (by rw [hlen]; exact hfits), extends_formatArgs_iff (by decide), hlen]
    rfl
  · constructor
    · rintro ⟨-, hvalue⟩
      -- the value is shorter than the argument would make it
      have hcut : (snprintf REASON_MAX_LEN (ascii "androidboot.bootreason=" ++ reason)).length ≤ 127 :=
        (List.length_take_le _ _)
      have hshort : ∀ old : CStr, (formatArgs REASON_MAX_LEN
          (snprintf REASON_MAX_LEN (ascii "androidboot.bootreason=" ++ reason)) (some old)).value.length ≤
            128 + old.length := by
        intro old
        refine (List.length_take_le' _ _).trans ?_
        change (_ ++ ascii " " ++ stringArg (some old)).length ≤ _
        rw [List.length_append, List.length_append]
        have hblank : (ascii " ").length = 1 := rfl
        have hold : (stringArg (some old)).length = old.length := rfl
        omega
      cases bootargs with
      | none =>
        have hle := List.IsPrefix.length_le hvalue
        have hvalue127 : (formatArgs REASON_MAX_LEN
            (snprintf REASON_MAX_LEN (ascii "androidboot.bootreason=" ++ reason)) none).value.length ≤ 127 :=
          List.length_take_le _ _
        omega
      | some old =>
        have hle := hshort old
        rw [hvalue, List.length_append, List.length_append, hlen] at hle
        have hblank : (ascii " ").length = 1 := rfl
        omega
    · intro h
      omega

/-! ## Calls -/

theorem cpuRevision_lt (prr : UInt32) : (cpuRevision prr).1.toNat < 100 ∧ (cpuRevision prr).2.toNat < 100 := by
  have hint : (rmobileGetCpuRevInteger prr).toNat < 100 := by
    unfold rmobileGetCpuRevInteger
    split
    · decide
    · have hand : (prr &&& 0xF0).toNat ≤ 0xF0 := by
        rw [UInt32.toNat_and]
        exact Nat.and_le_right
      have hshift : ((prr &&& 0xF0) >>> 4).toNat ≤ 15 := by
        rw [UInt32.toNat_shiftRight, Nat.shiftRight_eq_div_pow]
        change (prr &&& 0xF0).toNat / 2 ^ 4 ≤ 15
        omega
      rw [UInt32.toNat_add]
      change (((prr &&& 0xF0) >>> 4).toNat + 1) % 2 ^ 32 < 100
      omega
  have hfrac : (rmobileGetCpuRevFraction prr).toNat < 100 := by
    unfold rmobileGetCpuRevFraction
    split
    · decide
    split
    · decide
    · rw [UInt32.toNat_and]
      exact lt_of_le_of_lt Nat.and_le_right (by decide)
  unfold cpuRevision
  dsimp only
  split
  · exact ⟨by decide, by decide⟩
  · exact ⟨hint, hfrac⟩

/-- The part of the value that a call with enough memory sets. -/
theorem addsAll_iff {s : BoardState} {bootargs : Option CStr} {c : Call} {arg : CStr} {u : Update}
    (hnew : newArgument s c = some arg) (hset : setArgs s bootargs c = some u) (halloc : s.allocated = true) :
    AddsAll s bootargs c ↔ Extends bootargs arg u := by
  have hcall : call s bootargs c = some u.value := by
    unfold call
    rw [halloc, if_pos rfl, hset]
  unfold AddsAll
  rw [hnew, halloc]
  simp only [if_true]
  constructor
  · rintro ⟨u', hu', -, hextends⟩
    rw [hset] at hu'
    rwa [Option.some.inj hu']
  · exact fun h => ⟨u, hset, hcall, h⟩

theorem digits_two {n : ℕ} (h : n < 100) : (numberText 10 n).length = if n < 10 then 1 else 2 := by
  have hpos := length_numberText_pos 10 n
  have hone := @length_numberText_le_iff 10 n 1 (by decide) (by decide)
  have htwo := (@length_numberText_le_iff 10 n 2 (by decide) (by decide)).mpr (by omega)
  split
  · have := hone.mpr (by omega)
    omega
  · have : ¬ (numberText 10 n).length ≤ 1 := fun hle => absurd (hone.mp hle) (by omega)
    omega

theorem addsAll_iff_fits (s : BoardState) (bootargs : Option CStr) (c : Call) :
    AddsAll s bootargs c ↔ (s.allocated = true → Fits s bootargs c) := by
  cases halloc : s.allocated with
  | false =>
    have hcall : call s bootargs c = bootargs := by
      unfold call
      rw [halloc, if_neg (by decide)]
    refine iff_of_true ?_ (fun h => Bool.noConfusion h)
    unfold AddsAll
    rw [halloc]
    cases newArgument s c with
    | none => exact hcall
    | some arg => exact hcall
  | true =>
    suffices h : AddsAll s bootargs c ↔ Fits s bootargs c by
      rw [h]
      exact ⟨fun hfits _ => hfits, fun hfits => hfits rfl⟩
    have hsome : ∀ o : Option CStr, margin o = if o.isSome then 2 else 1 := fun _ => rfl
    cases c with
    | boardId =>
      rw [addsAll_iff rfl rfl halloc]
      refine (extends_formatArgs_iff (by decide)).trans ?_
      have hlen : (ascii "androidboot.board_id=0x" ++ numberText 16 s.platId.toNat).length =
          23 + (numberText 16 s.platId.toNat).length := by
        rw [List.length_append]
        rfl
      rw [hlen, hsome]
      unfold Fits
      cases bootargs with
      | none =>
        simp only [Option.isSome_none, Bool.false_eq_true, if_false]
        rw [← length_numberText_le_iff (by decide) (by decide)]
        omega
      | some old =>
        simp only [Option.isSome_some, if_true]
        rw [← length_numberText_le_iff (by decide) (by decide)]
        omega
    | cpuRevision =>
      rw [addsAll_iff rfl rfl halloc]
      refine (extends_formatArgs_iff (by decide)).trans ?_
      obtain ⟨hint, hfrac⟩ := cpuRevision_lt s.prr
      have hlen : (ascii "androidboot.revision=" ++ numberText 10 (cpuRevision s.prr).1.toNat ++ ascii "." ++
          numberText 10 (cpuRevision s.prr).2.toNat).length =
          22 + (if (cpuRevision s.prr).1.toNat < 10 then 1 else 2) + (if (cpuRevision s.prr).2.toNat < 10 then 1 else 2) := by
        rw [List.length_append, List.length_append, List.length_append, digits_two hint, digits_two hfrac,
          show (ascii "androidboot.revision=").length = 21 from rfl, show (ascii ".").length = 1 from rfl]
        omega
      rw [hlen, hsome]
      unfold Fits
      cases bootargs with
      | none =>
        simp only [Option.isSome_none, Bool.false_eq_true, if_false, false_imp_iff, iff_true]
        split_ifs <;> decide
      | some old =>
        simp only [Option.isSome_some, if_true, true_imp_iff]
        split_ifs <;> omega
    | blkdevparts =>
      refine iff_of_true ?_ trivial
      by_cases hlock : s.iplLocked = some false
      · have hset : setArgs s bootargs .blkdevparts =
            some (formatArgs ((otaCriticalPart s.blSize).length + 2) (otaCriticalPart s.blSize) bootargs) := by
          unfold setArgs setBlkdevpartsArgs
          rw [hlock]
        rw [addsAll_iff (by rw [newArgument, if_pos hlock]) hset halloc, extends_formatArgs_iff (by omega), hsome]
        split <;> omega
      · unfold AddsAll
        rw [newArgument, if_neg hlock]
        have hset : setArgs s bootargs .blkdevparts = none := by
          unfold setArgs setBlkdevpartsArgs
          rcases hl : s.iplLocked with _ | _ | _
          · rfl
          · exact absurd hl hlock
          · rfl
        change call s bootargs .blkdevparts = bootargs
        unfold call
        rw [halloc, if_pos rfl, hset]
    | fakertc =>
      rw [addsAll_iff rfl rfl halloc]
      refine (extends_formatArgs_iff (by decide)).trans ?_
      have hlen : (ascii "init_time=" ++ numberText 10 (rtcSeconds s.rtcTime).toNat).length =
          10 + (numberText 10 (rtcSeconds s.rtcTime).toNat).length := by
        rw [List.length_append]
        rfl
      rw [hlen, hsome]
      unfold Fits
      cases bootargs with
      | none =>
        have hten := (@length_numberText_le_iff 10 (rtcSeconds s.rtcTime).toNat 10 (by decide)
          (by decide)).mpr ((UInt32.toNat_lt _).trans (by decide))
        simp only [Option.isSome_none, Bool.false_eq_true, if_false, false_imp_iff, iff_true]
        omega
      | some old =>
        simp only [Option.isSome_some, if_true, true_imp_iff]
        rw [← length_numberText_le_iff (by decide) (by decide)]
        omega
    | bootreason =>
      rw [addsAll_iff rfl rfl halloc]
      refine extends_bootreason_iff.trans ?_
      rw [hsome]
      unfold Fits
      cases bootargs with
      | none =>
        simp only [Option.isSome_none, Bool.false_eq_true, if_false]
        omega
      | some old =>
        simp only [Option.isSome_some, if_true]
        omega

/-! ## Sequences of calls -/

/-- The text stands in the command line. -/
def Present (text : CStr) (bootargs : Option CStr) : Prop := ∃ v, bootargs = some v ∧ text <:+: v

/-- Each call finds a value to which it can add. -/
def AllFit : Option CStr → List (BoardState × Call) → Prop
  | _, [] => True
  | bootargs, (s, c) :: l => (s.allocated = true → Fits s bootargs c) ∧ AllFit (call s bootargs c) l

theorem calls_append (bootargs : Option CStr) (l m : List (BoardState × Call)) :
    calls bootargs (l ++ m) = calls (calls bootargs l) m := List.foldl_append

theorem allFit_append {bootargs : Option CStr} {l m : List (BoardState × Call)} (h : AllFit bootargs (l ++ m)) :
    AllFit (calls bootargs l) m := by
  induction l generalizing bootargs with
  | nil => exact h
  | cons x l ih => exact ih h.2

/-- One call keeps what is there. -/
theorem Present.call {text : CStr} {bootargs : Option CStr} {s : BoardState} {c : Call} (h : Present text bootargs)
    (hfits : s.allocated = true → Fits s bootargs c) : Present text (call s bootargs c) := by
  have hadds := (addsAll_iff_fits s bootargs c).mpr hfits
  unfold AddsAll at hadds
  cases hnew : newArgument s c with
  | none =>
    rw [hnew] at hadds
    rwa [hadds]
  | some arg =>
    rw [hnew] at hadds
    cases halloc : s.allocated with
    | false =>
      simp only [halloc, Bool.false_eq_true, if_false] at hadds
      rwa [hadds]
    | true =>
      simp only [halloc, if_true] at hadds
      obtain ⟨u, -, hcall, hextends⟩ := hadds
      obtain ⟨old, rfl, hinfix⟩ := h
      refine ⟨u.value, hcall, ?_⟩
      rw [hextends.value]
      exact hinfix.trans (List.suffix_append _ _).isInfix

/-- A call with memory puts its argument there. -/
theorem present_new {bootargs : Option CStr} {s : BoardState} {c : Call} {arg : CStr} (halloc : s.allocated = true)
    (hnew : newArgument s c = some arg) (hfits : s.allocated = true → Fits s bootargs c) :
    Present arg (call s bootargs c) := by
  have hadds := (addsAll_iff_fits s bootargs c).mpr hfits
  unfold AddsAll at hadds
  simp only [hnew, halloc, if_true] at hadds
  obtain ⟨u, -, hcall, hextends⟩ := hadds
  refine ⟨u.value, hcall, ?_⟩
  cases bootargs with
  | none => exact hextends.value.isInfix
  | some old =>
    rw [hextends.value, List.append_assoc]
    exact (List.prefix_append _ _).isInfix

theorem Present.calls {text : CStr} {bootargs : Option CStr} {l : List (BoardState × Call)} (h : Present text bootargs)
    (hfits : AllFit bootargs l) : Present text (calls bootargs l) := by
  induction l generalizing bootargs with
  | nil => exact h
  | cons x l ih => exact ih (h.call hfits.1) hfits.2

/-- The first value and all arguments of the calls stand in the last value. -/
structure Kept (bootargs : Option CStr) (l : List (BoardState × Call)) : Prop where
  old : ∀ v, bootargs = some v → Present v (calls bootargs l)
  added : ∀ before s c after arg, l = before ++ (s, c) :: after → s.allocated = true → newArgument s c = some arg →
    Present arg (calls bootargs l)

theorem kept_of_allFit {bootargs : Option CStr} {l : List (BoardState × Call)} (h : AllFit bootargs l) :
    Kept bootargs l := by
  constructor
  · rintro v rfl
    exact Present.calls ⟨v, rfl, List.infix_rfl⟩ h
  · rintro before s c after arg rfl halloc hnew
    obtain ⟨hfits, hafter⟩ := allFit_append h
    rw [calls_append]
    have hnow := present_new halloc hnew hfits
    exact hnow.calls hafter

/-- Each call adds its argument in full for exactly the values that fit its counted size, and after calls that all do,
nothing is lost. -/
theorem bootargs_extended (s : BoardState) (bootargs : Option CStr) (c : Call) (l : List (BoardState × Call)) :
    (AddsAll s bootargs c ↔ (s.allocated = true → Fits s bootargs c)) ∧ (AllFit bootargs l → Kept bootargs l) :=
  ⟨addsAll_iff_fits s bootargs c, kept_of_allFit⟩

/-- A board without messages, whose time was never set. -/
def plainState : BoardState := ⟨true, 0x779650, 0x5511, 4194304, some true, none, none, none⟩

/-- The time takes the last character of the old value. -/
theorem fakertc_truncates : ¬ AddsAll plainState (some (ascii "quiet")) .fakertc ∧
    call plainState (some (ascii "quiet")) .fakertc = some (ascii "init_time=1563524000 quie") := by
  refine ⟨?_, by decide +kernel⟩
  rintro ⟨u, hu, -, hextends⟩
  have hvalue : u.value = ascii "init_time=1563524000 quie" := by
    have hcall : (setArgs plainState (some (ascii "quiet")) .fakertc).map Update.value =
        some (ascii "init_time=1563524000 quie") := by decide +kernel
    rw [hu] at hcall
    exact Option.some.inj hcall
  have hlen := congrArg List.length (hvalue.symm.trans hextends.value)
  revert hlen
  decide +kernel

theorem board_args_kept :
    (AddsAll plainState (some (ascii "quiet")) .boardId ↔ (plainState.allocated = true →
      Fits plainState (some (ascii "quiet")) .boardId)) ∧
    Kept (some (ascii "quiet")) [(plainState, .boardId), (plainState, .cpuRevision)] :=
  ⟨(bootargs_extended _ _ _ []).1, (bootargs_extended plainState _ .boardId _).2 ⟨fun _ => by unfold Fits; decide,
    fun _ => by unfold Fits; decide +kernel, trivial⟩⟩

end RCar.Boota
