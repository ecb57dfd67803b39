import RCarM3N.Proofs.SrecRoundTrip
import RCarM3N.Proofs.SrecSafety

/-! The same records in other texts: with other line ends, with empty lines, and in smaller pieces. What the
decoder makes of a text in records is compared with what it makes of the records themselves. -/

namespace RCar.Srec

/-! ## Lines of valid records -/

/-- A line that holds one record, and nothing else. -/
inductive IsLine : List UInt8 → Record → Prop
  | mk {cs field data : List UInt8} {v count : UInt8} {type : SrecType} {width : ℕ}
      (hv : recordType v = some (type, width))
      (hcs : HexOf cs (count :: (field ++ data ++ [checksum count field data])))
      (hwidth : field.length = width) (hcount : count.toNat = width + data.length + 1)
      (hnone : type = .count → data = []) :
      IsLine (0x53 :: v :: cs) ⟨type, data.length, address field, data⟩

structure Line where
  text : List UInt8
  record : Record
  valid : IsLine text record

variable {line rest : List UInt8} {r : Record} {maxbin : UInt32} {l l' : Loop} {k : ℕ}

theorem IsLine.isRecord (h : IsLine line r) (rest : List UInt8) : IsRecord (line ++ rest) r := by
  cases h with
  | @mk cs field data v count type width hv hcs hwidth hcount hnone =>
    have hdata : dataCount type width count = data.length := by
      unfold dataCount
      split_ifs with htype
      · rw [hnone htype]
        rfl
      · omega
    have hrec := @IsRecord.mk [] cs rest field data v count type width
      (fun c hc => absurd hc List.not_mem_nil) hv hcs hwidth
      (by rw [hdata, Int.toNat_natCast])
    rwa [hdata] at hrec

theorem hex1Bin_plain {c : UInt8} (h : (hex1Bin c).isSome = true) : LineChar c ∧ c ≠ 0x53 := by
  have hrange : ∀ n < 256, (hex1Bin (UInt8.ofNat n)).isSome = true → LineChar (UInt8.ofNat n) ∧ UInt8.ofNat n ≠ 0x53 := by
    unfold LineChar
    decide +kernel
  have := hrange c.toNat c.toNat_lt
  rw [UInt8.ofNat_toNat] at this
  exact this h

theorem recordType_plain {v : UInt8} {x : SrecType × ℕ} (h : recordType v = some x) : v ≠ 0x53 := by
  rintro rfl
  cases h

/-- Its characters, of which only the first is an `S`. -/
theorem IsLine.chars (h : IsLine line r) :
    ∃ tail, line = 0x53 :: tail ∧ (∀ c ∈ tail, LineChar c ∧ c ≠ 0x53) ∧ tail ≠ [] ∧ line.length < SREC_MAXRECLEN := by
  cases h with
  | @mk cs field data v count type width hv hcs hwidth hcount hnone =>
    refine ⟨v :: cs, rfl, ?_, by simp, ?_⟩
    · exact List.forall_mem_cons.mpr ⟨⟨recordType_lineChar hv, recordType_plain hv⟩,
        fun c hc => hex1Bin_plain (hcs.digits c hc)⟩
    · have hlen := hcs.length_eq
      have := count.toNat_lt
      simp only [List.length_cons, List.length_append, List.length_nil] at hlen ⊢
      unfold SREC_MAXRECLEN
      omega

theorem IsLine.lineChar (h : IsLine line r) : ∀ c ∈ line, LineChar c := by
  obtain ⟨tail, rfl, htail, -, -⟩ := h.chars
  exact List.forall_mem_cons.mpr ⟨by unfold LineChar; decide, fun c hc => (htail c hc).1⟩

theorem IsLine.decodes (h : IsLine line r) (rest : List UInt8) : srecDecode (line ++ rest) = .ok r := by
  have hrec := h.isRecord rest
  exact (srecDecode_record hrec.type_ne).mpr hrec

/-! ## The records alone -/

/-- What an iteration does with its record. -/
def act (maxbin : UInt32) (l : Loop) (r : Record) : Iteration :=
  match r.type with
  | .data2 | .data3 | .data4 => storeData maxbin l r
  | .end2 | .end3 | .end4 => .done l.outSize l.out
  | .start | .count => .next l
  | .empty => .done 0 l.out

/-- The records one after the other; their end is the end of the text. -/
def decodeRecords (maxbin : UInt32) : Loop → List Record → Iteration
  | l, [] => .done 0 l.out
  | l, r :: rs =>
    match act maxbin l r with
    | .next l => decodeRecords maxbin l rs
    | i => i

/-- The loop without its text. -/
def Loop.bare (l : Loop) : Loop := { l with inbuf := [], record := [] }

theorem iterate_act {record : List UInt8} (hread : readRecord l.record l.inbuf = .ok (some (k, record)))
    (hdec : srecDecode record = .ok r) :
    iterate maxbin l = act maxbin { l with inbuf := l.inbuf.drop k, record := record } r := by
  unfold iterate act
  rw [hread]
  cases htype : r.type <;> simp only [hdec, htype]

/-- The text plays no part in what is done with a record. -/
theorem act_bare (maxbin : UInt32) (l : Loop) (r : Record) : act maxbin l.bare r =
    match act maxbin l r with
    | .next l' => .next l'.bare
    | i => i := by
  have hstore : storeData maxbin l.bare r = match storeData maxbin l r with | .next l' => .next l'.bare | i => i := by
    unfold storeData
    split_ifs with hcount
    · rfl
    · have hgap : gap l.bare r.addr = gap l r.addr := rfl
      simp only [hgap]
      have hsize : l.bare.outSize = l.outSize := rfl
      rw [hsize]
      split_ifs <;> rfl
  unfold act
  cases r.type
  all_goals first | exact hstore | rfl

/-- A record that is not stored leaves the text alone, and so does one that is. -/
theorem act_next_text (h : act maxbin l r = .next l') : l'.inbuf = l.inbuf ∧ l'.record = l.record := by
  have hstore : storeData maxbin l r = .next l' → l'.inbuf = l.inbuf ∧ l'.record = l.record := by
    intro h
    obtain ⟨-, rfl, -⟩ := storeData_next h
    exact ⟨rfl, rfl⟩
  unfold act at h
  split at h
  all_goals first
    | exact hstore h
    | cases h
  all_goals exact ⟨rfl, rfl⟩

/-- The loop ends as given. -/
def RunsTo (maxbin : UInt32) (l : Loop) (i : Iteration) : Prop := ∃ l', Reaches maxbin l l' ∧ Ends maxbin l' i

theorem RunsTo.head {i : Iteration} (h : Next maxbin l l') (hrest : RunsTo maxbin l' i) : RunsTo maxbin l i := by
  obtain ⟨d, hreach, hends⟩ := hrest
  exact ⟨d, hreach.head h, hends⟩

/-- An iteration whose record is acted upon, and what follows it. -/
theorem runsTo_act {record : List UInt8} {rs : List Record} (hread : readRecord l.record l.inbuf = .ok (some (k, record)))
    (hdec : srecDecode record = .ok r)
    (hrest : ∀ d, d.inbuf = l.inbuf.drop k → d.record = record → RunsTo maxbin d (decodeRecords maxbin d.bare rs)) :
    RunsTo maxbin l (decodeRecords maxbin l.bare (r :: rs)) := by
  have hiter : iterate maxbin l = act maxbin { l with inbuf := l.inbuf.drop k, record := record } r :=
    iterate_act hread hdec
  have hbare := act_bare maxbin { l with inbuf := l.inbuf.drop k, record := record } r
  have hsame : ({ l with inbuf := l.inbuf.drop k, record := record } : Loop).bare = l.bare := rfl
  rw [hsame] at hbare
  rw [decodeRecords]
  cases hact : act maxbin { l with inbuf := l.inbuf.drop k, record := record } r with
  | next d =>
    rw [hact] at hiter hbare
    rw [hbare]
    obtain ⟨hinbuf, hrecord⟩ := act_next_text hact
    exact .head hiter (hrest d hinbuf hrecord)
  | done size out =>
    rw [hact] at hiter hbare
    rw [hbare]
    exact ⟨l, .refl, hiter, fun _ h => nomatch h⟩
  | outside =>
    rw [hact] at hiter hbare
    rw [hbare]
    exact ⟨l, .refl, hiter, fun _ h => nomatch h⟩

/-! ## Texts -/

def CRLF : List UInt8 := [0x0D, 0x0A]

/-- A line, with what is to be done to it: the number of empty lines to follow it, and the number of bytes in
its first part. -/
structure Marked extends Line where
  empty : ℕ
  cut : ℕ

/-- The file with each line ended by the characters given. -/
def text (lineEnd : List UInt8) (file : List Line) : List UInt8 := file.flatMap (fun x => x.text ++ lineEnd) ++ [0]

/-- The file with its empty lines. -/
def emptyText (file : List Marked) : List UInt8 :=
  file.flatMap (fun x => x.text ++ CRLF ++ (List.replicate x.empty CRLF).flatten) ++ [0]

/-- A record is decoded again for each empty line. -/
def repeated (file : List Marked) : List Record := file.flatMap fun x => List.replicate (x.empty + 1) x.record

/-- An empty line leaves the record of the line before in the buffer. -/
theorem runsTo_empty {rs : List Record} {n : ℕ} (hrecord : srecDecode l.record = .ok r)
    (hl : l.inbuf = (List.replicate n CRLF).flatten ++ rest)
    (hrest : ∀ d : Loop, d.inbuf = rest → RunsTo maxbin d (decodeRecords maxbin d.bare rs)) :
    RunsTo maxbin l (decodeRecords maxbin l.bare (List.replicate n r ++ rs)) := by
  induction n generalizing l with
  | zero => exact hrest l hl
  | succ n ih =>
    have hl' : l.inbuf = [] ++ 0x0D :: (0x0A :: ((List.replicate n CRLF).flatten ++ rest)) := by
      rw [hl, List.replicate_succ]
      rfl
    have hread := @readRecord_line [] (fun c hc => absurd hc List.not_mem_nil) (by decide) _ (.inl rfl) l.record
      (0x0A :: ((List.replicate n CRLF).flatten ++ rest))
    rw [← hl'] at hread
    rw [List.replicate_succ, List.cons_append]
    refine runsTo_act hread hrecord fun d hinbuf hd => ih (hd ▸ hrecord) ?_
    rw [hinbuf, hl']
    rfl

theorem runsTo_emptyText (maxbin : UInt32) (file : List Marked) (l : Loop) (h : l.inbuf = emptyText file) :
    RunsTo maxbin l (decodeRecords maxbin l.bare (repeated file)) := by
  induction file generalizing l with
  | nil =>
    have hend : iterate maxbin l = .done 0 l.out := by
      unfold iterate
      rw [h]
      rfl
    exact ⟨l, .refl, hend, fun _ h => nomatch h⟩
  | cons x file ih =>
    have hl : l.inbuf = x.text ++ 0x0D :: (0x0A :: ((List.replicate x.empty CRLF).flatten ++ emptyText file)) := by
      rw [h]
      simp [emptyText, CRLF]
    obtain ⟨-, -, -, -, hshort⟩ := x.valid.chars
    have hread := readRecord_line x.valid.lineChar hshort (.inl rfl) l.record
      (0x0A :: ((List.replicate x.empty CRLF).flatten ++ emptyText file))
    rw [← hl] at hread
    have hdec := x.valid.decodes (l.record.drop x.text.length)
    rw [repeated, List.flatMap_cons, List.replicate_succ, List.cons_append]
    refine runsTo_act hread hdec fun d hinbuf hd => ?_
    have hdrop : d.inbuf = (List.replicate x.empty CRLF).flatten ++ emptyText file := by
      rw [hinbuf, hl, ← List.drop_drop, List.drop_left]
      rfl
    exact runsTo_empty (hd ▸ hdec) hdrop fun d' hd' => ih d' hd'

/-- A text with empty lines decodes to its records, each once more for each empty line that follows it. -/
theorem srecToBin_emptyText (maxbin : UInt32) (record : List UInt8) (file : List Marked) :
    srecToBin maxbin record (emptyText file) = some (decodeRecords maxbin (start [] []) (repeated file)) :=
  (srecToBin_eq _ _ _ _).mpr (runsTo_emptyText maxbin file (start record (emptyText file)) rfl)

/-- A text without empty lines decodes to its records. -/
theorem srecToBin_text (maxbin : UInt32) (record : List UInt8) (file : List Line) :
    srecToBin maxbin record (text CRLF file) = some (decodeRecords maxbin (start [] []) (file.map Line.record)) := by
  have h := srecToBin_emptyText maxbin record (file.map fun x => { x with empty := 0, cut := 0 })
  have htext : emptyText (file.map fun x => { x with empty := 0, cut := 0 }) = text CRLF file := by
    simp [emptyText, text, List.flatMap_map]
  have hrecords : repeated (file.map fun x => { x with empty := 0, cut := 0 }) = file.map Line.record := by
    rw [repeated, List.flatMap_map, List.map_eq_flatMap]
    rfl
  rwa [htext, hrecords] at h

/-! ## Files that are decoded -/

/-- The types that end a file. -/
def IsEnd (type : SrecType) : Prop := type = .end2 ∨ type = .end3 ∨ type = .end4

instance (type : SrecType) : Decidable (IsEnd type) := inferInstanceAs (Decidable (_ ∨ _))

instance (type : SrecType) : Decidable (IsData type) := inferInstanceAs (Decidable (_ ∨ _))

/-- The records are taken one after the other, within `maxbin` bytes. -/
inductive Stores (maxbin : UInt32) : Loop → List Record → Loop → Prop
  | nil (l : Loop) : Stores maxbin l [] l
  | cons {l d l' : Loop} {r : Record} {rs : List Record} (hact : act maxbin l r = .next d)
      (hroom : d.out.length ≤ maxbin.toNat) (hrest : Stores maxbin d rs l') : Stores maxbin l (r :: rs) l'

/-- The lines in front of the end record. -/
def body (file : List Marked) : List Marked := file.takeWhile fun x => ¬ IsEnd x.record.type

/-- The file is decoded: its records are taken up to an end record. -/
structure Decoded (maxbin : UInt32) (file : List Marked) : Prop where
  ended : ∃ x ∈ file, IsEnd x.record.type
  stored : ∃ l, Stores maxbin (start [] []) ((body file).map (·.record)) l

theorem body_split {file : List Marked} (h : ∃ x ∈ file, IsEnd x.record.type) :
    ∃ x post, file = body file ++ x :: post ∧ IsEnd x.record.type := by
  induction file with
  | nil => simp at h
  | cons y file ih =>
    by_cases hy : IsEnd y.record.type
    · exact ⟨y, file, by simp [body, hy], hy⟩
    · obtain ⟨x, post, hfile, hx⟩ := ih (by simpa [hy] using h)
      refine ⟨x, post, ?_, hx⟩
      have hbody : body (y :: file) = y :: body file := by simp [body, hy]
      rw [hbody, List.cons_append, ← hfile]

theorem act_end (h : IsEnd r.type) : act maxbin l r = .done l.outSize l.out := by
  unfold act
  rcases h with h | h | h <;> rw [h]

theorem act_data (h : IsData r.type) : act maxbin l r = storeData maxbin l r := by
  unfold act
  rcases h with h | h | h <;> rw [h]

/-- What is decoded from records that are taken up to an end record. -/
theorem Stores.decode {rs post : List Record} {e : Record} (h : Stores maxbin l rs l') (he : IsEnd e.type) :
    decodeRecords maxbin l (rs ++ e :: post) = .done l'.outSize l'.out := by
  induction h with
  | nil l =>
    rw [List.nil_append, decodeRecords, act_end he]
  | cons hact hroom hrest ih =>
    rw [List.cons_append, decodeRecords, hact]
    exact ih

/-! ## Line ends -/

/-- The text of a record without its first character leaves nothing to decode. -/
theorem iterate_tail {x y : Line} {blank : List UInt8} (hblank : Plain blank) (hrecord : l.record = x.text ++ blank)
    (hl : l.inbuf = y.text.tail ++ 0x0A :: rest) : iterate maxbin l = .outside := by
  obtain ⟨xs, hx, hxchars, -, -⟩ := x.valid.chars
  obtain ⟨ys, hy, hychars, hne, hshort⟩ := y.valid.chars
  obtain ⟨n, hn⟩ : ∃ n, ys.length = n + 1 := Nat.exists_eq_succ_of_ne_zero fun h => hne (List.length_eq_zero_iff.mp h)
  rw [hy, List.tail_cons] at hl
  have hread := @readRecord_line ys (fun c hc => (hychars c hc).1)
    (lt_of_le_of_lt (by rw [hy, List.length_cons]; omega) hshort) _ (.inr rfl) l.record rest
  rw [← hl, hrecord, hx, hn, List.cons_append, List.drop_succ_cons] at hread
  have hplain : Plain (ys ++ (xs ++ blank).drop n) := by
    intro c hc
    rcases List.mem_append.mp hc with hc | hc
    · exact ⟨(hychars c hc).1.2.2, (hychars c hc).2⟩
    · rcases List.mem_append.mp (List.mem_of_mem_drop hc) with hc | hc
      · exact ⟨(hxchars c hc).1.2.2, (hxchars c hc).2⟩
      · exact hblank c hc
  unfold iterate
  rw [hrecord, hx, List.cons_append, hread]
  simp only [srecDecode_plain hplain]

/-- A line buffer of spaces. -/
def spaces : List UInt8 := List.replicate (SREC_MAXRECLEN + 1) 0x20

/-- With line feeds alone the second line is read without its first character. -/
theorem srecToBin_lf {x y : Line} {file : List Line} (hact : ∃ d, act maxbin (start [] []) x.record = .next d) :
    srecToBin maxbin spaces (text [0x0A] (x :: y :: file)) = some .outside := by
  obtain ⟨d, hact⟩ := hact
  let l := start spaces (text [0x0A] (x :: y :: file))
  have hl : l.inbuf = x.text ++ 0x0A :: (y.text ++ 0x0A :: text [0x0A] file) := by
    simp [l, start, text]
  obtain ⟨-, -, -, -, hshort⟩ := x.valid.chars
  obtain ⟨ys, hy, -, -, -⟩ := y.valid.chars
  have hread := readRecord_line x.valid.lineChar hshort (.inr rfl) l.record (y.text ++ 0x0A :: text [0x0A] file)
  rw [← hl] at hread
  have hdec := x.valid.decodes (l.record.drop x.text.length)
  let m : Loop := { l with inbuf := l.inbuf.drop (x.text.length + 2), record := x.text ++ l.record.drop x.text.length }
  have hiter : iterate maxbin l = act maxbin m x.record := iterate_act hread hdec
  have hbare : act maxbin (start [] []) x.record = _ := act_bare maxbin m x.record
  rw [hact] at hbare
  cases hm : act maxbin m x.record with
  | next d' =>
    obtain ⟨hinbuf, hrecord⟩ := act_next_text hm
    have hplain : Plain (l.record.drop x.text.length) := fun c hc => by
      obtain rfl := List.eq_of_mem_replicate (List.mem_of_mem_drop hc)
      decide
    have hrest : d'.inbuf = y.text.tail ++ 0x0A :: text [0x0A] file := by
      rw [hinbuf]
      change l.inbuf.drop (x.text.length + 2) = _
      rw [hl, ← List.drop_drop, List.drop_left, hy]
      rfl
    have hend : Ends maxbin d' .outside := ⟨iterate_tail hplain hrecord hrest, fun _ h => by cases h⟩
    exact (srecToBin_eq _ _ _ _).mpr ⟨d', .single (hiter.trans hm), hend⟩
  | done size out =>
    rw [hm] at hbare
    cases hbare
  | outside =>
    rw [hm] at hbare
    cases hbare

/-! ## Storing -/

/-- What holds of the record of a line. -/
structure Sound (r : Record) : Prop where
  count : r.count = r.data.length
  short : r.data.length ≤ SREC_MAXBINLEN
  addr : r.addr.toNat < 2 ^ 32

theorem address_lt (field : List UInt8) (h : field.length ≤ 4) : (address field).toNat < 256 ^ field.length := by
  induction field using List.reverseRecOn with
  | nil => decide
  | append_singleton field v ih =>
    rw [List.length_append, List.length_singleton] at h ⊢
    have ih := ih (by omega)
    have hfold : address (field ++ [v]) = address field <<< 8 + v.toUInt64 := by
      rw [address, List.foldl_append]
      rfl
    have hle : 256 ^ field.length ≤ 256 ^ 3 := Nat.pow_le_pow_right (by decide) (by omega)
    have hv := v.toNat_lt
    have hshift : (address field).toNat <<< ((8 : UInt64).toNat % 64) = (address field).toNat * 256 := Nat.shiftLeft_eq _ _
    have hbyte : v.toUInt64.toNat = v.toNat := by simp
    rw [hfold, UInt64.toNat_add, UInt64.toNat_shiftLeft, hshift, hbyte, pow_succ]
    omega

theorem recordType_width {v : UInt8} {type : SrecType} {width : ℕ} (h : recordType v = some (type, width)) : width ≤ 4 := by
  unfold recordType at h
  split_ifs at h <;> cases h <;> decide

theorem IsLine.sound (h : IsLine line r) : Sound r := by
  cases h with
  | @mk cs field data v count type width hv hcs hwidth hcount hnone =>
    have hfield : field.length ≤ 4 := hwidth.trans_le (recordType_width hv)
    refine ⟨rfl, ?_, ?_⟩
    · have := count.toNat_lt
      change data.length ≤ 255
      omega
    · exact (address_lt field hfield).trans_le ((Nat.pow_le_pow_right (by decide) hfield).trans (by decide))

/-- The size counts the bytes, the last record among them. -/
structure Filled (l : Loop) : Prop where
  size : l.outSize.toNat = l.out.length
  last : l.firstDataLine = false → l.prevBinlen.toNat ≤ l.out.length

theorem filled_start : Filled (start [] []) := ⟨rfl, fun h => nomatch h⟩

theorem length_stored (l : Loop) (r : Record) :
    (stored l r).out.length = l.out.length + (gap l r.addr).toNat + r.data.length := by
  simp [stored, Nat.add_assoc]

theorem Sound.count_toNat (h : Sound r) : (UInt32.ofInt r.count).toNat = r.data.length := by
  have hshort : r.data.length ≤ 255 := h.short
  rw [h.count, ofInt_natCast, UInt32.toNat_ofNat', Nat.mod_eq_of_lt (by omega)]

theorem Sound.addr_eq (h : Sound r) : r.addr.toUInt32.toUInt64 = r.addr := by
  apply UInt64.toNat_inj.mp
  rw [UInt32.toNat_toUInt64, UInt64.toNat_toUInt32, Nat.mod_eq_of_lt h.addr]

theorem size_stored (h : l.outSize.toNat = l.out.length) (hr : Sound r) (hroom : (stored l r).out.length < 2 ^ 32) :
    (stored l r).outSize.toNat = (stored l r).out.length := by
  rw [length_stored] at hroom ⊢
  change (l.outSize + gap l r.addr + UInt32.ofInt r.count).toNat = _
  rw [UInt32.toNat_add, UInt32.toNat_add, hr.count_toNat, h]
  omega

theorem Filled.next (h : Filled l) (hr : Sound r) (hroom : (stored l r).out.length < 2 ^ 32) : Filled (stored l r) := by
  refine ⟨size_stored h.size hr hroom, fun _ => ?_⟩
  rw [length_stored]
  change (UInt32.ofInt r.count).toNat ≤ _
  rw [hr.count_toNat]
  omega

/-- A record that is taken is stored, or leaves all as it is. -/
theorem act_next (h : act maxbin l r = .next l') :
    (IsData r.type ∧ l' = stored l r ∧ l'.outSize ≤ maxbin) ∨ (¬ IsData r.type ∧ ¬ IsEnd r.type ∧ l' = l) := by
  by_cases hdata : IsData r.type
  · rw [act_data hdata] at h
    obtain ⟨-, hl', hsize⟩ := storeData_next h
    exact .inl ⟨hdata, hl', hsize⟩
  · by_cases hend : IsEnd r.type
    · rw [act_end hend] at h
      cases h
    · refine .inr ⟨hdata, hend, ?_⟩
      unfold act at h
      unfold IsData at hdata
      unfold IsEnd at hend
      split at h <;> simp_all

theorem act_other (hdata : ¬ IsData r.type) (hend : ¬ IsEnd r.type) (hr : r.type ≠ .empty) : act maxbin l r = .next l := by
  unfold act
  unfold IsData at hdata
  unfold IsEnd at hend
  split <;> simp_all

theorem act_stored (hdata : IsData r.type) (hr : Sound r) : act maxbin l r =
    if maxbin < (stored l r).outSize then .done 0 (stored l r).out else .next (stored l r) := by
  rw [act_data hdata, storeData_eq (hr.count ▸ Int.natCast_nonneg _)]

/-- A record right after itself has no gap. -/
theorem gap_again (hr : Sound r) (l : Loop) : gap (stored l r) r.addr = 0 := by
  have hprev : (stored l r).prevAddr.toUInt64 = r.addr := hr.addr_eq
  unfold gap
  rw [hprev, if_neg]
  rintro ⟨h, -⟩
  rw [UInt64.sub_self, UInt64.lt_iff_toNat_lt] at h
  exact absurd h (Nat.not_lt_zero _)

/-! ## Empty lines -/

/-- The empty lines after a line do not store its bytes again. -/
def Harmless (x : Marked) : Prop := x.empty = 0 ∨ ¬ IsData x.record.type ∨ x.record.data = []

def EmptyLinesFit (file : List Marked) : Prop := ∀ x ∈ body file, Harmless x

theorem decode_next {rs : List Record} {d : Loop} (h : act maxbin l r = .next d) :
    decodeRecords maxbin l (r :: rs) = decodeRecords maxbin d rs := by
  rw [decodeRecords, h]

theorem decode_replicate {rs : List Record} (n : ℕ) (h : act maxbin l r = .next l) :
    decodeRecords maxbin l (List.replicate n r ++ rs) = decodeRecords maxbin l rs := by
  induction n with
  | zero => rfl
  | succ n ih => rw [List.replicate_succ, List.cons_append, decode_next h, ih]

/-- A record without bytes changes nothing the second time. -/
theorem act_again {d : Loop} (hr : Sound r) (h : act maxbin l r = .next d) (hno : ¬ IsData r.type ∨ r.data = []) :
    act maxbin d r = .next d := by
  rcases act_next h with ⟨hdata, rfl, hsize⟩ | ⟨-, -, rfl⟩
  · have hempty : r.data = [] := hno.resolve_left (not_not_intro hdata)
    have hcount : UInt32.ofInt r.count = 0 := by
      rw [hr.count, hempty]
      rfl
    have hsame : stored (stored l r) r = stored l r := by
      have hgap := gap_again hr l
      have hout : (stored (stored l r) r).out = (stored l r).out := by
        change (stored l r).out ++ List.replicate (gap (stored l r) r.addr).toNat 0 ++ r.data = _
        rw [hgap, hempty, UInt32.toNat_zero, List.replicate_zero, List.append_nil, List.append_nil]
      have hsize : (stored (stored l r) r).outSize = (stored l r).outSize := by
        change (stored l r).outSize + gap (stored l r) r.addr + UInt32.ofInt r.count = _
        rw [hgap, hcount, UInt32.add_zero, UInt32.add_zero]
      rw [stored, Loop.mk.injEq]
      exact ⟨rfl, rfl, hout, hsize, rfl, rfl, rfl⟩
    rw [act_stored hdata hr, hsame, if_neg (UInt32.not_lt.mpr hsize)]
  · exact h

theorem decode_harmless {file : List Marked} {rs : List Record} (h : Stores maxbin l (file.map (·.record)) l')
    (hfit : ∀ x ∈ file, Harmless x) : decodeRecords maxbin l (repeated file ++ rs) = decodeRecords maxbin l' rs := by
  induction file generalizing l with
  | nil =>
    cases h
    rfl
  | cons x file ih =>
    rw [List.map_cons] at h
    cases h with
    | @cons _ d _ _ _ hact hroom hrest =>
      obtain ⟨hx, hfile⟩ := List.forall_mem_cons.mp hfit
      rw [repeated, List.flatMap_cons, List.replicate_succ, List.cons_append, List.cons_append, decode_next hact,
        List.append_assoc]
      rcases hx with hx | hx
      · rw [hx]
        exact ih hrest hfile
      · rw [decode_replicate _ (act_again x.valid.sound hact hx)]
        exact ih hrest hfile

/-- The second loop is in the same place of the records with more bytes stored. -/
structure Ahead (l l' : Loop) : Prop where
  first : l'.firstDataLine = l.firstDataLine
  prevAddr : l'.prevAddr = l.prevAddr
  prevBinlen : l'.prevBinlen = l.prevBinlen
  less : l.out.length < l'.out.length

theorem Ahead.gap_eq (h : Ahead l l') (addr : UInt64) : gap l' addr = gap l addr := by
  unfold gap
  rw [h.first, h.prevAddr, h.prevBinlen]

/-- A record takes the second loop along, or past its limit. -/
theorem Ahead.taken {d : Loop} (h : Ahead l l') (hr : Sound r) (hact : act maxbin l r = .next d) (hne : r.type ≠ .empty) :
    (∃ d', act maxbin l' r = .next d' ∧ Ahead d d') ∨ ∃ out, act maxbin l' r = .done 0 out := by
  rcases act_next hact with ⟨hdata, rfl, -⟩ | ⟨hdata, hend, rfl⟩
  · rw [act_stored hdata hr]
    split_ifs with hsize
    · exact .inr ⟨_, rfl⟩
    · refine .inl ⟨_, rfl, rfl, rfl, rfl, ?_⟩
      rw [length_stored, length_stored, h.gap_eq]
      have := h.less
      omega
  · exact .inl ⟨l', act_other hdata hend hne, h⟩

/-- The record that the second loop has just taken takes it further ahead, or past its limit. -/
theorem Ahead.again {l0 : Loop} (h : Ahead l l') (hr : Sound r) (hl : act maxbin l0 r = .next l) (hne : r.type ≠ .empty) :
    (∃ d', act maxbin l' r = .next d' ∧ Ahead l d') ∨ ∃ out, act maxbin l' r = .done 0 out := by
  rcases act_next hl with ⟨hdata, rfl, -⟩ | ⟨hdata, hend, rfl⟩
  · rw [act_stored hdata hr]
    split_ifs with hsize
    · exact .inr ⟨_, rfl⟩
    · refine .inl ⟨_, rfl, rfl, rfl, rfl, ?_⟩
      rw [length_stored l']
      have := h.less
      omega
  · exact .inl ⟨l', act_other hdata hend hne, h⟩

/-- An end that is not that of a loop that has stored something: a failure, or one with more bytes. -/
def Differs (l : Loop) (i : Iteration) : Prop := (∃ out, i = .done 0 out) ∨ ∃ size out, i = .done size out ∧ l.out.length < out.length

theorem Differs.ne {i : Iteration} (h : Differs l i) (hsize : l.outSize ≠ 0) : i ≠ .done l.outSize l.out := by
  rintro rfl
  rcases h with ⟨out, h⟩ | ⟨size, out, h, hless⟩
  · obtain ⟨hzero, -⟩ := Iteration.done.inj h
    exact hsize hzero
  · obtain ⟨-, rfl⟩ := Iteration.done.inj h
    exact lt_irrefl _ hless

/-- Copies of a record, then the rest. -/
theorem Ahead.replicate {l0 lf : Loop} {rs : List Record} (n : ℕ) (h : Ahead l l') (hr : Sound r) (hl : act maxbin l0 r = .next l)
    (hne : r.type ≠ .empty) (hrest : ∀ d, Ahead l d → Differs lf (decodeRecords maxbin d rs)) :
    Differs lf (decodeRecords maxbin l' (List.replicate n r ++ rs)) := by
  induction n generalizing l' with
  | zero => exact hrest l' h
  | succ n ih =>
    rw [List.replicate_succ, List.cons_append]
    rcases h.again hr hl hne with ⟨d, hact, hahead⟩ | ⟨out, hact⟩
    · rw [decode_next hact]
      exact ih hahead
    · rw [decodeRecords, hact]
      exact .inl ⟨out, rfl⟩

theorem Line.type_ne (x : Line) : x.record.type ≠ .empty := (x.valid.isRecord []).type_ne

/-- A loop that is ahead stays ahead to the end. -/
theorem Ahead.decode {file : List Marked} {e : Record} {rs : List Record} {lf : Loop} (h : Ahead l l')
    (hstores : Stores maxbin l (file.map (·.record)) lf) (he : IsEnd e.type) :
    Differs lf (decodeRecords maxbin l' (repeated file ++ e :: rs)) := by
  induction file generalizing l l' with
  | nil =>
    cases hstores
    rw [repeated, List.flatMap_nil, List.nil_append, decodeRecords, act_end he]
    exact .inr ⟨_, _, rfl, h.less⟩
  | cons x file ih =>
    rw [List.map_cons] at hstores
    cases hstores with
    | @cons _ d _ _ _ hact hroom hrest =>
      rw [repeated, List.flatMap_cons, List.replicate_succ, List.cons_append, List.cons_append, List.append_assoc]
      rcases h.taken x.valid.sound hact x.type_ne with ⟨d', hact', hahead⟩ | ⟨out, hact'⟩
      · rw [decode_next hact']
        exact hahead.replicate _ x.valid.sound hact x.type_ne fun d'' hd'' => ih hd'' hrest
      · rw [decodeRecords, hact']
        exact .inl ⟨out, rfl⟩

/-- The first line whose bytes are stored again decides. -/
theorem decode_harmful {file : List Marked} {e : Record} {rs : List Record} (h : Stores maxbin l (file.map (·.record)) l')
    (he : IsEnd e.type) (hfit : ¬ ∀ x ∈ file, Harmless x) : Differs l' (decodeRecords maxbin l (repeated file ++ e :: rs)) := by
  induction file generalizing l with
  | nil => simp at hfit
  | cons x file ih =>
    rw [List.map_cons] at h
    cases h with
    | @cons _ d _ _ _ hact hroom hrest =>
      rw [repeated, List.flatMap_cons, List.replicate_succ, List.cons_append, List.cons_append, decode_next hact,
        List.append_assoc]
      by_cases hx : Harmless x
      · have hfile : ¬ ∀ x ∈ file, Harmless x := fun hall => hfit (List.forall_mem_cons.mpr ⟨hx, hall⟩)
        have hsame : decodeRecords maxbin d (List.replicate x.empty x.record ++ (repeated file ++ e :: rs)) =
            decodeRecords maxbin d (repeated file ++ e :: rs) := by
          rcases hx with hx | hx
          · rw [hx]
            rfl
          · exact decode_replicate _ (act_again x.valid.sound hact hx)
        exact hsame ▸ ih hrest hfile
      · unfold Harmless at hx
        push Not at hx
        obtain ⟨hempty, hdata, hne⟩ := hx
        obtain ⟨n, hn⟩ := Nat.exists_eq_succ_of_ne_zero hempty
        rw [hn, List.replicate_succ, List.cons_append]
        -- the record is stored a second time, right behind the first
        obtain ⟨-, rfl, -⟩ | ⟨hno, -⟩ := act_next hact
        · have hagain := @act_stored x.record maxbin (stored l x.record) hdata x.valid.sound
          split_ifs at hagain with hsize
          · rw [decodeRecords, hagain]
            exact .inl ⟨_, rfl⟩
          · have hahead : Ahead (stored l x.record) (stored (stored l x.record) x.record) := by
              refine ⟨rfl, rfl, rfl, ?_⟩
              have := List.length_pos_of_ne_nil hne
              rw [length_stored (stored l x.record)]
              omega
            rw [decode_next hagain]
            exact hahead.replicate n x.valid.sound hact x.type_ne fun d hd => hd.decode hrest he
        · exact absurd hdata hno

/-! ## Pieces -/

/-- The number of bytes in the first part. -/
def Marked.first (x : Marked) : ℕ := min x.cut x.record.data.length

/-- The record in two, at adjacent addresses; one that is not data stays. -/
def Marked.parts (x : Marked) : List Record :=
  if IsData x.record.type then
    [⟨x.record.type, x.first, x.record.addr, x.record.data.take x.first⟩,
      ⟨x.record.type, ↑(x.record.data.length - x.first), x.record.addr + UInt64.ofNat x.first, x.record.data.drop x.first⟩]
  else [x.record]

/-- The data record does not begin in the first part of the one before. -/
def Follows (x y : Marked) : Prop :=
  ¬ (x.record.addr.toNat ≤ y.record.addr.toNat ∧ y.record.addr.toNat < x.record.addr.toNat + x.first)

instance (x y : Marked) : Decidable (Follows x y) := inferInstanceAs (Decidable (¬ _))

def CutsFit (file : List Marked) : Prop := ((body file).filter fun x => IsData x.record.type).IsChain Follows

/-- The gap in front of an address, from the record before. -/
theorem gap_toNat {addr : UInt64} {a n : ℕ} (hfirst : l.firstDataLine = false) (ha : l.prevAddr.toNat = a)
    (hn : l.prevBinlen.toNat = n) (haddr : addr.toNat < 2 ^ 32) :
    (gap l addr).toNat = if a ≤ addr.toNat ∧ addr.toNat ≤ a + n then 0 else (addr.toNat + 2 ^ 33 - a - n) % 2 ^ 32 := by
  have hp := l.prevAddr.toNat_lt
  have hb := l.prevBinlen.toNat_lt
  have hsub : (addr - l.prevAddr.toUInt64).toNat = (2 ^ 64 - a + addr.toNat) % 2 ^ 64 := by
    rw [UInt64.toNat_sub, UInt32.toNat_toUInt64, ha]
  unfold gap
  by_cases hgt : l.prevBinlen.toUInt64 < addr - l.prevAddr.toUInt64
  · rw [if_pos ⟨hgt, hfirst⟩, UInt64.toNat_toUInt32, UInt64.toNat_sub_of_le _ _ (UInt64.le_of_lt hgt), hsub,
      UInt32.toNat_toUInt64, hn]
    rw [UInt64.lt_iff_toNat_lt, hsub, UInt32.toNat_toUInt64, hn] at hgt
    split_ifs with h
    · omega
    · omega
  · rw [if_neg fun h => hgt h.1]
    rw [UInt64.lt_iff_toNat_lt, hsub, UInt32.toNat_toUInt64, hn] at hgt
    change 0 = _
    split_ifs with h
    · rfl
    · omega

theorem gap_first (h : l.firstDataLine = true) (addr : UInt64) : gap l addr = 0 := by
  refine if_neg fun hc => ?_
  rw [h] at hc
  cases hc.2

/-- The second loop has taken the same records in parts, the data record `last` at the end. -/
structure Halved (last : Option Marked) (l l' : Loop) : Prop where
  out : l'.out = l.out
  size : l'.outSize = l.outSize
  first : l'.firstDataLine = l.firstDataLine
  begins : last = none → l.firstDataLine = true
  later : ∀ x ∈ last, l.firstDataLine = false
  prevAddr : ∀ x ∈ last, l.prevAddr.toNat = x.record.addr.toNat ∧ l'.prevAddr.toNat = x.record.addr.toNat + x.first
  prevBinlen : ∀ x ∈ last, l.prevBinlen.toNat = x.record.data.length ∧ l'.prevBinlen.toNat = x.record.data.length - x.first

theorem Marked.first_le (x : Marked) : x.first ≤ x.record.data.length := Nat.min_le_right _ _

theorem Marked.parts_data {x : Marked} (h : IsData x.record.type) : x.parts =
    [⟨x.record.type, x.first, x.record.addr, x.record.data.take x.first⟩,
      ⟨x.record.type, ↑(x.record.data.length - x.first), x.record.addr + UInt64.ofNat x.first, x.record.data.drop x.first⟩] := if_pos h

theorem Marked.parts_other {x : Marked} (h : ¬ IsData x.record.type) : x.parts = [x.record] := if_neg h

/-- The gaps of the two loops agree unless the record begins in the first part of the last one. -/
theorem Halved.gap_eq {last : Option Marked} {x : Marked} (h : Halved last l l') (hfollows : ∀ y ∈ last, Follows y x) :
    gap l' x.record.addr = gap l x.record.addr := by
  have hx := x.valid.sound.addr
  cases last with
  | none =>
    have hfirst := h.begins rfl
    rw [gap_first hfirst, gap_first (h.first.trans hfirst)]
  | some y =>
    have hlater := h.later y rfl
    have hfollows := hfollows y rfl
    unfold Follows at hfollows
    have hle := y.first_le
    apply UInt32.toNat_inj.mp
    rw [gap_toNat hlater (h.prevAddr y rfl).1 (h.prevBinlen y rfl).1 hx,
      gap_toNat (h.first.trans hlater) (h.prevAddr y rfl).2 (h.prevBinlen y rfl).2 hx]
    split_ifs <;> omega

/-- A record that begins in the first part of the last one makes the second loop clear almost the whole range
of the size. -/
theorem Halved.gap_huge {x y : Marked} (h : Halved (some y) l l') (hno : ¬ Follows y x) :
    2 ^ 32 ≤ (gap l' x.record.addr).toNat + y.record.data.length ∧ 0 < y.record.data.length := by
  have hx := x.valid.sound.addr
  unfold Follows at hno
  have hle := y.first_le
  have hshort : y.record.data.length ≤ 255 := y.valid.sound.short
  rw [gap_toNat (h.first.trans (h.later y rfl)) (h.prevAddr y rfl).2 (h.prevBinlen y rfl).2 hx]
  split_ifs <;> omega

/-- A data record that is taken in parts, with no gap between them. -/
theorem Halved.data {last : Option Marked} {x : Marked} {d : Loop} (h : Halved last l l') (hfill : Filled l)
    (hfollows : ∀ y ∈ last, Follows y x) (hdata : IsData x.record.type) (hsound : ∀ q ∈ x.parts, Sound q)
    (hact : act maxbin l x.record = .next d) (hroom : d.out.length ≤ maxbin.toNat) :
    ∃ d', Halved (some x) d d' ∧ ∀ rs, decodeRecords maxbin l' (x.parts ++ rs) = decodeRecords maxbin d' rs := by
  obtain ⟨-, rfl, -⟩ | ⟨hno, -⟩ := act_next hact
  swap
  · exact absurd hdata hno
  rw [Marked.parts_data hdata] at hsound ⊢
  obtain ⟨hs1, hs2⟩ : Sound _ ∧ Sound _ := by simpa using hsound
  set r1 : Record := ⟨x.record.type, x.first, x.record.addr, x.record.data.take x.first⟩ with hr1
  set r2 : Record := ⟨x.record.type, ↑(x.record.data.length - x.first), x.record.addr + UInt64.ofNat x.first,
    x.record.data.drop x.first⟩ with hr2
  have hx := x.valid.sound
  have hle := x.first_le
  have hmax := maxbin.toNat_lt
  have hshort : x.record.data.length ≤ 255 := hx.short
  have hlen1 : r1.data.length = x.first := by rw [hr1, List.length_take, Nat.min_eq_left hle]
  have hlen2 : r2.data.length = x.record.data.length - x.first := by rw [hr2, List.length_drop]
  have haddr2 : r2.addr.toNat = x.record.addr.toNat + x.first := by
    have := hx.addr
    rw [hr2, UInt64.toNat_add, UInt64.toNat_ofNat', Nat.mod_eq_of_lt (a := x.first) (by omega)]
    omega
  have hgap1 : gap l' r1.addr = gap l x.record.addr := h.gap_eq hfollows
  have hsize' : l'.outSize.toNat = l'.out.length := by rw [h.size, h.out, hfill.size]
  have hword : ∀ q : Record, Sound q → q.addr.toUInt32.toNat = q.addr.toNat := fun q hq => by
    rw [UInt64.toNat_toUInt32, Nat.mod_eq_of_lt hq.addr]
  have hlen := length_stored l x.record
  -- the first part, behind the same gap
  have hlen1' : (stored l' r1).out.length = l.out.length + (gap l x.record.addr).toNat + x.first := by
    rw [length_stored, hgap1, h.out, hlen1]
  have hsize1 := size_stored hsize' hs1 (by omega)
  have hact1 : act maxbin l' r1 = .next (stored l' r1) := by
    rw [act_stored (r := r1) hdata hs1, if_neg]
    rw [UInt32.lt_iff_toNat_lt, hsize1]
    omega
  -- and the second one without a gap
  have hgap2 : gap (stored l' r1) r2.addr = 0 := by
    apply UInt32.toNat_inj.mp
    rw [gap_toNat rfl (hword r1 hs1) hs1.count_toNat hs2.addr, if_pos, UInt32.toNat_zero]
    rw [haddr2, hlen1]
    exact ⟨Nat.le_add_right _ _, le_refl _⟩
  have hlen2' : (stored (stored l' r1) r2).out.length = (stored l x.record).out.length := by
    rw [length_stored, hgap2, hlen1', hlen2, hlen, UInt32.toNat_zero]
    omega
  have hsize2 := size_stored hsize1 hs2 (by omega)
  have hact2 : act maxbin (stored l' r1) r2 = .next (stored (stored l' r1) r2) := by
    rw [act_stored (r := r2) hdata hs2, if_neg]
    rw [UInt32.lt_iff_toNat_lt, hsize2]
    omega
  refine ⟨stored (stored l' r1) r2, ⟨?_, ?_, rfl, fun h => (nomatch h), fun _ _ => rfl, ?_, ?_⟩, fun rs => ?_⟩
  · change l'.out ++ List.replicate (gap l' r1.addr).toNat 0 ++ r1.data ++
      List.replicate (gap (stored l' r1) r2.addr).toNat 0 ++ r2.data = _
    rw [hgap1, hgap2, h.out, UInt32.toNat_zero, List.replicate_zero, List.append_nil, List.append_assoc]
    change _ ++ (x.record.data.take x.first ++ x.record.data.drop x.first) = _
    rw [List.take_append_drop]
    rfl
  · apply UInt32.toNat_inj.mp
    rw [hsize2, hlen2', size_stored hfill.size hx (by omega)]
  · rintro y ⟨⟩
    exact ⟨hword _ hx, (hword r2 hs2).trans haddr2⟩
  · rintro y ⟨⟩
    exact ⟨hx.count_toNat, hs2.count_toNat.trans hlen2⟩
  · rw [List.cons_append, List.cons_append, List.nil_append, decode_next hact1, decode_next hact2]

theorem act_done_le {size : UInt32} {out : List UInt8} (h : act maxbin l r = .done size out) : l.out.length ≤ out.length := by
  have hstore : storeData maxbin l r = .done size out → l.out.length ≤ out.length := by
    intro h
    by_cases hcount : r.count < 0
    · rw [storeData, if_pos hcount] at h
      cases h
    · rw [storeData_eq (not_lt.mp hcount)] at h
      split_ifs at h
      obtain ⟨-, rfl⟩ := Iteration.done.inj h
      rw [length_stored]
      omega
  unfold act at h
  split at h
  all_goals first
    | exact hstore h
    | cases h
  all_goals exact le_rfl

theorem decode_out_le {rs : List Record} {size : UInt32} {out : List UInt8} (h : decodeRecords maxbin l rs = .done size out) :
    l.out.length ≤ out.length := by
  induction rs generalizing l with
  | nil =>
    obtain ⟨-, rfl⟩ := Iteration.done.inj h
    exact le_rfl
  | cons r rs ih =>
    rw [decodeRecords] at h
    cases hact : act maxbin l r with
    | next d =>
      rw [hact] at h
      rcases act_next hact with ⟨-, rfl, -⟩ | ⟨-, -, rfl⟩
      · have := ih h
        rw [length_stored] at this
        omega
      · exact ih h
    | done size' out' =>
      rw [hact] at h
      obtain ⟨-, rfl⟩ := Iteration.done.inj h
      exact act_done_le hact
    | outside =>
      rw [hact] at h
      cases h

/-- A data record that begins in the first part of the last one does not end as the whole ones do. -/
theorem Halved.overlap {x y : Marked} {rs : List Record} {size : UInt32} {out : List UInt8} (h : Halved (some y) l l')
    (hfill : Filled l) (hno : ¬ Follows y x) (hdata : IsData x.record.type) (hsound : ∀ q ∈ x.parts, Sound q)
    (hrun : decodeRecords maxbin l' (x.parts ++ rs) = .done size out) : size = 0 ∨ 2 ^ 32 ≤ out.length := by
  obtain ⟨hhuge, hpos⟩ := h.gap_huge hno
  rw [Marked.parts_data hdata] at hsound hrun
  obtain ⟨hs1, -⟩ : Sound _ ∧ Sound _ := by simpa using hsound
  rw [List.cons_append, decodeRecords,
    act_stored (r := ⟨x.record.type, x.first, x.record.addr, x.record.data.take x.first⟩) hdata hs1] at hrun
  split_ifs at hrun with hsize
  · exact .inl (Iteration.done.inj hrun).1.symm
  · right
    have hout := decode_out_le hrun
    rw [length_stored, h.out] at hout
    have hlast := hfill.last (h.later y rfl)
    rw [(h.prevBinlen y rfl).1] at hlast
    dsimp only at hout
    omega

theorem Stores.le {rs : List Record} (h : Stores maxbin l rs l') : l.out.length ≤ l'.out.length := by
  induction h with
  | nil => exact le_rfl
  | cons hact hroom hrest ih =>
    rcases act_next hact with ⟨-, rfl, -⟩ | ⟨-, -, rfl⟩
    · rw [length_stored] at ih
      omega
    · exact ih

theorem Filled.act {d : Loop} (h : Filled l) (hr : Sound r) (hact : act maxbin l r = .next d) (hroom : d.out.length ≤ maxbin.toNat) :
    Filled d := by
  have hmax := maxbin.toNat_lt
  rcases act_next hact with ⟨-, rfl, -⟩ | ⟨-, -, rfl⟩
  · exact h.next hr (by omega)
  · exact h

/-- What is stored in the end fits, and its size counts it. -/
theorem Stores.filled {file : List Marked} (h : Stores maxbin l (file.map (·.record)) l') (hfill : Filled l)
    (hroom : l.out.length ≤ maxbin.toNat) : Filled l' ∧ l'.out.length ≤ maxbin.toNat := by
  induction file generalizing l with
  | nil =>
    cases h
    exact ⟨hfill, hroom⟩
  | cons x file ih =>
    rw [List.map_cons] at h
    cases h with
    | @cons _ d _ _ _ hact hroom' hrest => exact ih hrest (hfill.act x.valid.sound hact hroom') hroom'

/-- The parts decode to what the whole records decode to if and only if no record begins in the first part of
the one before. -/
theorem Halved.decode {file : List Marked} {e : Record} {rs : List Record} {last : Option Marked} {lf : Loop}
    (h : Halved last l l') (hfill : Filled l) (hroom : l.out.length ≤ maxbin.toNat)
    (hstores : Stores maxbin l (file.map (·.record)) lf) (hsound : ∀ x ∈ file, ∀ q ∈ x.parts, Sound q) (he : IsEnd e.type) :
    decodeRecords maxbin l' (file.flatMap Marked.parts ++ e :: rs) = .done lf.outSize lf.out ↔
      (last.toList ++ file.filter fun x => IsData x.record.type).IsChain Follows := by
  induction file generalizing l l' last with
  | nil =>
    cases hstores
    rw [List.flatMap_nil, List.nil_append, decodeRecords, act_end he, h.out, h.size]
    cases last <;> simp
  | cons x file ih =>
    obtain ⟨hfilled, hfits⟩ := hstores.filled hfill hroom
    have hle := hstores.le
    rw [List.map_cons] at hstores
    have hmax := maxbin.toNat_lt
    obtain ⟨hsx, hsfile⟩ := List.forall_mem_cons.mp hsound
    cases hstores with
    | @cons _ d _ _ _ hact hroom' hrest =>
      have hfill' := hfill.act x.valid.sound hact hroom'
      rw [List.flatMap_cons, List.append_assoc]
      by_cases hdata : IsData x.record.type
      · rw [List.filter_cons_of_pos (by simpa using hdata)]
        by_cases hfollows : ∀ y ∈ last, Follows y x
        · obtain ⟨d', hd', hrun⟩ := h.data hfill hfollows hdata hsx hact hroom'
          rw [hrun, ih hd' hfill' hroom' hrest hsfile]
          cases last with
          | none => rfl
          | some y =>
            simp only [Option.toList_some, List.singleton_append, List.isChain_cons_cons]
            exact ⟨fun hc => ⟨hfollows y rfl, hc⟩, fun hc => hc.2⟩
        · push Not at hfollows
          obtain ⟨y, rfl, hno⟩ := hfollows
          constructor
          · intro hrun
            exfalso
            have hpos := (h.gap_huge hno).2
            have hlast := hfill.last (h.later y rfl)
            rw [(h.prevBinlen y rfl).1] at hlast
            rcases h.overlap hfill hno hdata hsx hrun with hsize | hlen
            · have := hfilled.size
              rw [hsize] at this
              simp at this
              omega
            · omega
          · intro hc
            simp only [Option.toList_some, List.singleton_append, List.isChain_cons_cons] at hc
            exact absurd hc.1 hno
      · rw [List.filter_cons_of_neg (by simpa using hdata), Marked.parts_other hdata]
        rcases act_next hact with ⟨hyes, -⟩ | ⟨-, hend, rfl⟩
        · exact absurd hyes hdata
        · rw [List.singleton_append, decode_next (act_other hdata hend x.type_ne)]
          exact ih h hfill' hroom' hrest hsfile

/-! ## The same records -/

/-- The two texts give the same bytes and the same size, whatever the line buffer holds before. -/
def SameResult (maxbin : UInt32) (text text' : List UInt8) : Prop :=
  ∀ record : List UInt8, record.length = SREC_MAXRECLEN + 1 → srecToBin maxbin record text' = srecToBin maxbin record text

/-- A text that does not look at the line buffer before it has filled it. -/
theorem sameResult_iff_eq {text' : List UInt8} {i j : Iteration} {text : List UInt8}
    (h : ∀ record, srecToBin maxbin record text = some i) (h' : ∀ record, srecToBin maxbin record text' = some j) :
    SameResult maxbin text text' ↔ j = i := by
  constructor
  · intro hsame
    have := hsame spaces List.length_replicate
    rw [h, h'] at this
    exact Option.some.inj this
  · rintro rfl record -
    rw [h, h']

/-- The file as it is, with lines that end in carriage return and line feed. -/
def crlfText (file : List Marked) : List UInt8 := text CRLF (file.map (·.toLine))

variable {file : List Marked}

theorem decoded_run (h : Decoded maxbin file) : ∃ l x post, file = body file ++ x :: post ∧ IsEnd x.record.type ∧
    Stores maxbin (start [] []) ((body file).map (·.record)) l ∧
    ∀ record, srecToBin maxbin record (crlfText file) = some (.done l.outSize l.out) := by
  obtain ⟨l, hl⟩ := h.stored
  obtain ⟨x, post, hfile, hx⟩ := body_split h.ended
  refine ⟨l, x, post, hfile, hx, hl, fun record => ?_⟩
  rw [crlfText, srecToBin_text, List.map_map]
  change some (decodeRecords maxbin (start [] []) (file.map (·.record))) = _
  conv_lhs => rw [hfile]
  rw [List.map_append, List.map_cons, hl.decode hx]

theorem Stores.pos {file : List Marked} {x : Marked} (h : Stores maxbin l (file.map (·.record)) l') (hx : x ∈ file)
    (hdata : IsData x.record.type) (hne : x.record.data ≠ []) : 0 < l'.out.length := by
  induction file generalizing l with
  | nil => exact absurd hx List.not_mem_nil
  | cons y file ih =>
    rw [List.map_cons] at h
    cases h with
    | @cons _ d _ _ _ hact hroom hrest =>
      rcases List.mem_cons.mp hx with rfl | hx
      · obtain ⟨-, rfl, -⟩ | ⟨hno, -⟩ := act_next hact
        · have hle := hrest.le
          have hpos := List.length_pos_of_ne_nil hne
          rw [length_stored] at hle
          omega
        · exact absurd hdata hno
      · exact ih hrest hx

theorem sameResult_lf (h : Decoded maxbin file) :
    SameResult maxbin (crlfText file) (text [0x0A] (file.map (·.toLine))) ↔ body file = [] := by
  obtain ⟨l, x, post, hfile, hx, hl, hrun⟩ := decoded_run h
  constructor
  · intro hsame
    by_contra hne
    obtain ⟨y, ys, hbody⟩ := List.exists_cons_of_ne_nil hne
    rw [hbody, List.map_cons] at hl
    -- there is a second line, at the latest the end record
    obtain ⟨z, zs, hz⟩ : ∃ z zs, file = y :: z :: zs := by
      rw [hfile, hbody]
      cases ys with
      | nil => exact ⟨x, post, rfl⟩
      | cons z zs => exact ⟨z, zs ++ x :: post, rfl⟩
    cases hl with
    | cons hact hroom hrest =>
      have hlf : srecToBin maxbin spaces (text [0x0A] (y.toLine :: z.toLine :: zs.map (·.toLine))) = some .outside :=
        srecToBin_lf ⟨_, hact⟩
      have hcr := hsame spaces List.length_replicate
      rw [hrun, hz] at hcr
      rw [List.map_cons, List.map_cons, hlf] at hcr
      cases hcr
  · intro hbody record _
    rw [hrun]
    rw [hbody, List.nil_append] at hfile
    rw [hbody, List.map_nil] at hl
    cases hl
    let d := start record (text [0x0A] (file.map (·.toLine)))
    have hlf : d.inbuf = x.text ++ 0x0A :: text [0x0A] (post.map (·.toLine)) := by
      change text [0x0A] (file.map (·.toLine)) = _
      rw [hfile]
      simp [text]
    obtain ⟨-, -, -, -, hshort⟩ := x.valid.chars
    have hread := readRecord_line x.valid.lineChar hshort (.inr rfl) d.record (text [0x0A] (post.map (·.toLine)))
    rw [← hlf] at hread
    have hiter := @iterate_act _ maxbin _ _ _ hread (x.valid.decodes _)
    rw [act_end hx] at hiter
    exact (srecToBin_eq _ _ _ _).mpr ⟨d, .refl, hiter, fun _ h => nomatch h⟩

theorem sameResult_empty (h : Decoded maxbin file) : SameResult maxbin (crlfText file) (emptyText file) ↔ EmptyLinesFit file := by
  obtain ⟨l, x, post, hfile, hx, hl, hrun⟩ := decoded_run h
  obtain ⟨hfilled, -⟩ := hl.filled filled_start (Nat.zero_le _)
  rw [sameResult_iff_eq hrun fun record => srecToBin_emptyText maxbin record file]
  have hrepeated : repeated file = repeated (body file) ++ x.record :: (List.replicate x.empty x.record ++ repeated post) := by
    conv_lhs => rw [hfile]
    simp [repeated, List.replicate_succ]
  rw [hrepeated]
  constructor
  · intro heq
    by_contra hno
    have hpos : 0 < l.out.length := by
      unfold EmptyLinesFit Harmless at hno
      push Not at hno
      obtain ⟨y, hy, -, hdata, hne⟩ := hno
      exact hl.pos hy hdata hne
    refine (decode_harmful hl hx hno).ne (fun hzero => ?_) heq
    have := hfilled.size
    rw [hzero, UInt32.toNat_zero] at this
    omega
  · intro hfit
    rw [decode_harmless hl hfit, decodeRecords, act_end hx]

theorem sameResult_parts (h : Decoded maxbin file) {parts : List Line} (hparts : parts.map (·.record) = file.flatMap Marked.parts) :
    SameResult maxbin (crlfText file) (text CRLF parts) ↔ CutsFit file := by
  obtain ⟨l, x, post, hfile, hx, hl, hrun⟩ := decoded_run h
  rw [sameResult_iff_eq hrun fun record => srecToBin_text maxbin record parts, hparts]
  have hsound : ∀ y ∈ file, ∀ q ∈ y.parts, Sound q := by
    intro y hy q hq
    have hmem : q ∈ parts.map (·.record) := hparts ▸ List.mem_flatMap.mpr ⟨y, hy, hq⟩
    obtain ⟨line, -, rfl⟩ := List.mem_map.mp hmem
    exact line.valid.sound
  have hsplit : file.flatMap Marked.parts = (body file).flatMap Marked.parts ++ x.record :: post.flatMap Marked.parts := by
    have hend : ¬ IsData x.record.type := by
      unfold IsData
      rcases hx with h | h | h <;> rw [h] <;> decide
    conv_lhs => rw [hfile]
    rw [List.flatMap_append, List.flatMap_cons, Marked.parts_other hend]
    rfl
  have hhalved : Halved none (start [] []) (start [] []) :=
    ⟨rfl, rfl, rfl, fun _ => rfl, fun _ h => (nomatch h), fun _ h => (nomatch h), fun _ h => (nomatch h)⟩
  rw [hsplit]
  refine hhalved.decode filled_start (Nat.zero_le _) hl (fun y hy => hsound y ?_) hx
  rw [hfile]
  exact List.mem_append_left _ hy

/-- When the same records in another text give the same result: with line feeds alone if the end record comes
first, with empty lines if none follows a record with bytes, and in parts if none begins in the first part of
the record before it. -/
theorem sameResult_iff (h : Decoded maxbin file) :
    (SameResult maxbin (crlfText file) (text [0x0A] (file.map (·.toLine))) ↔ body file = []) ∧
      (SameResult maxbin (crlfText file) (emptyText file) ↔ EmptyLinesFit file) ∧
        ∀ parts : List Line, parts.map (·.record) = file.flatMap Marked.parts →
          (SameResult maxbin (crlfText file) (text CRLF parts) ↔ CutsFit file) :=
  ⟨sameResult_lf h, sameResult_empty h, fun _ hparts => sameResult_parts h hparts⟩

/-! ## Two lines -/

/-- The line that is written for a record. -/
def Line.encode (v : UInt8) (type : SrecType) (width addr : ℕ) (data : List UInt8) (hv : recordType v = some (type, width))
    (htype : type ≠ .count) (hlen : width + data.length + 1 ≤ 255) : Line where
  text := encodeRecord false v width addr data
  record := ⟨type, data.length, address (addrField width addr), data⟩
  valid := by
    refine .mk hv (hexOf_hexDigits false _) (length_addrField width addr) ?_ fun h => absurd h htype
    rw [UInt8.toNat_ofNat', Nat.mod_eq_of_lt (by omega)]

/-- Two bytes and the end, an empty line after each, the bytes to be stored one by one. -/
def twoLines : List Marked :=
  [{ Line.encode 0x31 .data2 2 0x10 [1, 2] rfl (by decide) (by decide) with empty := 1, cut := 1 },
    { Line.encode 0x39 .end2 2 0 [] rfl (by decide) (by decide) with empty := 1, cut := 1 }]

theorem twoLines_decoded : Decoded 0x40000 twoLines := by
  refine ⟨⟨_, List.mem_cons_of_mem _ (List.mem_singleton_self _), by decide⟩, _, .cons (d := ?_) ?_ ?_ (.nil _)⟩
  · exact stored (start [] []) ⟨.data2, 2, 0x10, [1, 2]⟩
  · decide +kernel
  · decide +kernel

/-- Line feeds in place of the line ends leave nothing of the file. -/
theorem lineFeeds_differ : ¬ ∀ maxbin file, Decoded maxbin file →
    SameResult maxbin (crlfText file) (text [0x0A] (file.map (·.toLine))) := by
  intro h
  have := (sameResult_lf twoLines_decoded).mp (h _ _ twoLines_decoded)
  revert this
  decide

theorem twoLines_split : SameResult 0x40000 (crlfText twoLines) (text CRLF
    [Line.encode 0x31 .data2 2 0x10 [1] rfl (by decide) (by decide),
      Line.encode 0x31 .data2 2 0x11 [2] rfl (by decide) (by decide),
      Line.encode 0x39 .end2 2 0 [] rfl (by decide) (by decide)]) :=
  ((sameResult_iff twoLines_decoded).2.2 _ (by decide +kernel)).mpr (by
    unfold CutsFit
    decide)

end RCar.Srec
