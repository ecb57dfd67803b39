import RCarM3N.Model.AndroidImage

/-! When the new command line is made of its parts with one blank between them, in the memory that was allocated
for it. Two blanks and the end of the string need one byte more than there is. -/

namespace RCar.AndroidImage

open Fastboot (CStr cstrOf)

/-! ## The buffer -/

/-- Pieces that are appended in turn fit exactly if all of them do. -/
theorem foldlM_strcat (b : Buffer) (hb : b.str.length + 1 ≤ b.size) (pieces : List CStr) :
    pieces.foldlM strcat b =
      if (b.str ++ pieces.flatten).length + 1 ≤ b.size then some { b with str := b.str ++ pieces.flatten } else none := by
  induction pieces generalizing b with
  | nil => simp [hb]
  | cons s pieces ih =>
    rw [List.foldlM_cons, strcat, List.flatten_cons, ← List.append_assoc]
    by_cases hs : (b.str ++ s).length + 1 ≤ b.size
    · rw [if_pos hs]
      exact ih { b with str := b.str ++ s } hs
    · rw [if_neg hs, if_neg (by rw [List.length_append]; omega)]
      rfl

variable (hdr : BootImgHdr) (vhdr : Option VendorBootImgHdr) (bootargs : Option CStr)

/-- What is appended: each of the first two with a blank behind it. -/
def pieces : List CStr :=
  (bootargs.elim [] fun old => [old, [32]]) ++
    (if hdr.cmdline.text ≠ [] then [hdr.cmdline.text, [32]] else []) ++
    (if vendorText vhdr ≠ [] then [vendorText vhdr] else [])

/-- Into an empty buffer a copy is an append. -/
theorem strcpy_empty (size : ℕ) (s : CStr) : strcpy ⟨size, []⟩ s = strcat ⟨size, []⟩ s := by
  simp [strcpy, strcat]

theorem newBootargs_eq : newBootargs hdr vhdr bootargs =
    if (pieces hdr vhdr bootargs).flatten.length ≤ cmdlineLength hdr vhdr bootargs + 1 then
      some (pieces hdr vhdr bootargs).flatten else none := by
  have hrun : newBootargs hdr vhdr bootargs =
      ((pieces hdr vhdr bootargs).foldlM strcat ⟨cmdlineLength hdr vhdr bootargs + 2, []⟩).bind fun b => some b.str := by
    unfold newBootargs pieces
    cases bootargs <;> by_cases hh : hdr.cmdline.text = [] <;> by_cases hv : vendorText vhdr = [] <;>
      simp [hh, hv, strcpy_empty, Option.bind_assoc]
  rw [hrun, foldlM_strcat _ (by simp), List.nil_append]
  by_cases hfits : (pieces hdr vhdr bootargs).flatten.length ≤ cmdlineLength hdr vhdr bootargs + 1
  · rw [if_pos hfits, if_pos (Nat.succ_le_succ hfits)]
    rfl
  · rw [if_neg hfits, if_neg (mt Nat.le_of_succ_le_succ hfits)]
    rfl

/-! ## Room -/

/-- One byte is missing exactly if both blanks are needed. -/
theorem overruns_iff : newBootargs hdr vhdr bootargs = none ↔ bootargs.isSome = true ∧ hdr.cmdline.text ≠ [] := by
  rw [newBootargs_eq]
  unfold pieces cmdlineLength
  cases bootargs <;> by_cases hh : hdr.cmdline.text = [] <;> by_cases hv : vendorText vhdr = [] <;>
    simp [hh, hv] <;> omega

/-! ## The parts -/

/-- What stands behind a full field is read as a part of it. -/
def Cmdline.extra {size : ℕ} (c : Cmdline size) : CStr := if 0 ∈ c.field then [] else c.behind

theorem Cmdline.text_eq {size : ℕ} (c : Cmdline size) : c.text = c.part ++ c.extra := by
  unfold Cmdline.text Cmdline.part Cmdline.extra
  split_ifs with h
  · rw [List.append_nil]
  · have hfull : cstrOf c.field = c.field := by
      unfold cstrOf
      rw [List.takeWhile_eq_self_iff]
      intro x hx
      have hne : x ≠ 0 := fun hzero => h (hzero ▸ hx)
      simpa using hne
    rw [hfull]

/-- A field with an empty command line is not full. -/
theorem Cmdline.extra_of_part {size : ℕ} (c : Cmdline size) (hsize : 0 < size) (h : c.part = []) : c.extra = [] := by
  unfold Cmdline.extra
  rw [if_pos]
  unfold Cmdline.part cstrOf at h
  have hlen := c.length_eq
  cases hfield : c.field with
  | nil =>
    rw [hfield] at hlen
    exact absurd hlen (by simpa using hsize.ne)
  | cons x field =>
    rw [hfield, List.takeWhile_cons] at h
    by_cases hx : x = 0
    · rw [hx]
      exact List.mem_cons_self
    · simp [hx] at h

def vendorPart (vhdr : Option VendorBootImgHdr) : CStr := vhdr.elim [] (·.cmdline.part)

def vendorExtra (vhdr : Option VendorBootImgHdr) : CStr := vhdr.elim [] (·.cmdline.extra)

theorem vendorText_eq : vendorText vhdr = vendorPart vhdr ++ vendorExtra vhdr := by
  cases vhdr with
  | none => rfl
  | some vhdr => exact vhdr.cmdline.text_eq

/-- The parts that are not empty, with one blank between them. -/
def spaced (parts : List CStr) : CStr := [32].intercalate (parts.filter (· ≠ []))

/-- The command line as it is meant. -/
def joined : CStr := spaced [bootargs.getD [], hdr.cmdline.part, vendorPart vhdr]

/-- A return with success leaves the joined parts in the variable, and nothing is written behind the buffer. -/
def Composes (malloc : ℕ → Bool) : Prop :=
  ∃ info, androidImageGetKernel malloc hdr vhdr bootargs = some info ∧
    (info.ret = 0 → info.bootargs = envSet (joined hdr vhdr bootargs))

/-- No field is read beyond its end. -/
def Ended : Prop := hdr.cmdline.extra = [] ∧ vendorExtra vhdr = []

/-- The shapes with as many blanks as it takes: a part of the vendor last, behind one other part; or this part alone. -/
def Shaped : Prop :=
  (bootargs = none ∧ hdr.cmdline.part = []) ∨
    (vendorPart vhdr ≠ [] ∧ ((bootargs = none ∧ hdr.cmdline.part ≠ []) ∨
      (bootargs.getD [] ≠ [] ∧ hdr.cmdline.part = [])))

theorem envSet_inj {a b : CStr} : envSet a = envSet b ↔ a = b := by
  unfold envSet
  split_ifs with ha hb <;> simp [*, eq_comm]

theorem text_eq_nil_iff : hdr.cmdline.text = [] ↔ hdr.cmdline.part = [] := by
  rw [Cmdline.text_eq, List.append_eq_nil_iff]
  exact and_iff_left_of_imp (hdr.cmdline.extra_of_part (by decide))

theorem vendorText_eq_nil_iff : vendorText vhdr = [] ↔ vendorPart vhdr = [] := by
  rw [vendorText_eq, List.append_eq_nil_iff]
  refine and_iff_left_of_imp fun h => ?_
  cases vhdr with
  | none => rfl
  | some vhdr => exact vhdr.cmdline.extra_of_part (by decide) h

/-- Behind the blanks that are written there has to be something. -/
theorem flatten_pieces_iff (hroom : ¬ (bootargs.isSome = true ∧ hdr.cmdline.text ≠ [])) :
    (pieces hdr vhdr bootargs).flatten = joined hdr vhdr bootargs ↔ Ended hdr vhdr ∧ Shaped hdr vhdr bootargs := by
  have hhdr := text_eq_nil_iff hdr
  have hvendor := vendorText_eq_nil_iff vhdr
  have hnone : hdr.cmdline.part = [] → hdr.cmdline.extra = [] := hdr.cmdline.extra_of_part (by decide)
  have hvnone : vendorPart vhdr = [] → vendorExtra vhdr = [] := fun h => by
    have htext := hvendor.mpr h
    rw [vendorText_eq, List.append_eq_nil_iff] at htext
    exact htext.2
  unfold pieces joined spaced Ended Shaped
  rw [vendorText_eq, hdr.cmdline.text_eq] at *
  by_cases hh : hdr.cmdline.part = []
  · by_cases hv : vendorPart vhdr = []
    · cases bootargs with
      | none => simp [hh, hv, hnone hh, hvnone hv, List.intercalate]
      | some old => by_cases ho : old = [] <;> simp [hh, hv, ho, hnone hh, hvnone hv, List.intercalate]
    · cases bootargs with
      | none => simp [hh, hv, hnone hh, List.intercalate]
      | some old =>
        by_cases ho : old = []
        · -- the blank stands before the only part
          have hlonger : 32 :: (vendorPart vhdr ++ vendorExtra vhdr) ≠ vendorPart vhdr := fun h => by
            have hlen := congrArg List.length h
            rw [List.length_cons, List.length_append] at hlen
            omega
          simpa [hh, hv, ho, hnone hh, List.intercalate] using hlonger
        · simp [hh, hv, ho, hnone hh, List.intercalate]
  · cases bootargs with
    | some old => exact absurd ⟨rfl, by simp [hh]⟩ hroom
    | none =>
      by_cases hv : vendorPart vhdr = []
      · simp [hh, hv, hvnone hv, List.intercalate]
      · have hextra : hdr.cmdline.extra ++ 32 :: (vendorPart vhdr ++ vendorExtra vhdr) = 32 :: vendorPart vhdr ↔
            hdr.cmdline.extra = [] ∧ vendorExtra vhdr = [] := by
          refine ⟨fun h => ?_, fun ⟨h, hvendorEnd⟩ => by rw [h, hvendorEnd, List.append_nil, List.nil_append]⟩
          have hlen := congrArg List.length h
          simp only [List.length_append, List.length_cons] at hlen
          exact ⟨List.length_eq_zero_iff.mp (by omega), List.length_eq_zero_iff.mp (by omega)⟩
        simpa [hh, hv, List.intercalate] using hextra

/-- The command line is composed as it is meant, in its buffer, exactly if no command line fills its field and at
most one other part stands before a part of the vendor; or there is no memory. -/
theorem composes_iff (malloc : ℕ → Bool) :
    Composes hdr vhdr bootargs malloc ↔
      malloc (cmdlineLength hdr vhdr bootargs + 2) = false ∨ (Ended hdr vhdr ∧ Shaped hdr vhdr bootargs) := by
  unfold Composes androidImageGetKernel
  by_cases hheap : malloc (cmdlineLength hdr vhdr bootargs + 2) = false
  · rw [if_pos (by simp [hheap])]
    exact iff_of_true ⟨_, rfl, fun h => absurd h (show (-ENOMEM : ℤ) ≠ 0 by decide)⟩ (.inl hheap)
  · rw [if_neg (by simp [hheap]), or_iff_right hheap]
    by_cases hroom : bootargs.isSome = true ∧ hdr.cmdline.text ≠ []
    · rw [(overruns_iff hdr vhdr bootargs).mpr hroom]
      refine iff_of_false (fun ⟨_, hrun, _⟩ => absurd hrun (Option.some_ne_none _).symm) fun ⟨_, hshape⟩ => ?_
      have hpart : hdr.cmdline.part ≠ [] := fun h => hroom.2 ((text_eq_nil_iff hdr).mpr h)
      rcases hshape with ⟨-, hnone⟩ | ⟨-, ⟨hnone, -⟩ | ⟨-, hnone⟩⟩
      · exact hpart hnone
      · rw [hnone] at hroom
        exact Bool.false_ne_true hroom.1
      · exact hpart hnone
    · have hvalue : newBootargs hdr vhdr bootargs = some (pieces hdr vhdr bootargs).flatten := by
        have hsome := mt (overruns_iff hdr vhdr bootargs).mp hroom
        rw [newBootargs_eq] at hsome ⊢
        split_ifs at hsome ⊢ with hfits
        · rfl
        · exact absurd rfl hsome
      rw [hvalue, ← flatten_pieces_iff hdr vhdr bootargs hroom, ← envSet_inj]
      simp only [Option.bind_eq_bind, Option.bind_some]
      split_ifs <;>
        exact ⟨fun ⟨_, hrun, hset⟩ => by rw [← hset (by rw [← Option.some.inj hrun]), ← Option.some.inj hrun],
          fun hset => ⟨_, rfl, fun _ => hset⟩⟩

/-- A header whose command line is a text, and zeros behind it. -/
def textLine {size : ℕ} (text : CStr) (h : text.length ≤ size) : Cmdline size :=
  ⟨text ++ List.replicate (size - text.length) 0, by rw [List.length_append, List.length_replicate]; omega, []⟩

def quietHdr : BootImgHdr := ⟨0, 4096, textLine (Fastboot.ascii "quiet") (by decide), 0, 0⟩

def loopVendor : VendorBootImgHdr := ⟨textLine (Fastboot.ascii "loop.max_part=7") (by decide)⟩

/-- With all three parts, the end of the string is written behind the buffer; with a command line in the header of
the boot image alone, a blank stays at its end. -/
theorem three_parts_overrun :
    ¬ Composes quietHdr (some loopVendor) (some (Fastboot.ascii "root=/dev/ram0")) (fun _ => true) ∧
      ¬ Composes quietHdr none none fun _ => true := by
  constructor
  · rintro ⟨info, hrun, -⟩
    have hnone : (androidImageGetKernel (fun _ => true) quietHdr (some loopVendor)
        (some (Fastboot.ascii "root=/dev/ram0"))).isNone = true := by decide +kernel
    rw [hrun] at hnone
    exact absurd hnone Bool.false_ne_true
  · rintro ⟨info, hrun, hset⟩
    have hblank : (androidImageGetKernel (fun _ => true) quietHdr none none).map (fun info => (info.ret, info.bootargs)) =
        some (0, some (Fastboot.ascii "quiet ")) := by decide +kernel
    rw [hrun] at hblank
    obtain ⟨hret, hbootargs⟩ := Prod.mk.inj (Option.some.inj hblank)
    have hquiet : envSet (joined quietHdr none none) = some (Fastboot.ascii "quiet") := by decide +kernel
    rw [hset hret, hquiet] at hbootargs
    exact absurd hbootargs (by decide)

end RCar.AndroidImage
