import RCarM3N.Proofs.Srec

/-! S-records written and loaded: the text of a memory image gives back the image. -/

namespace RCar.Srec

/-! ## Writing -/

/-- The digit of a number below 16. -/
def digit (lower : Bool) (n : UInt8) : UInt8 :=
  if n < 10 then 0x30 + n else (if lower then 0x61 else 0x41) + (n - 10)

/-- Two digits for each byte. -/
def hexDigits (lower : Bool) (bs : List UInt8) : List UInt8 :=
  bs.flatMap fun b : UInt8 => [digit lower (b >>> 4), digit lower (b &&& 0xF)]

/-- An address in `width` bytes, the highest first. -/
def addrField : ℕ → ℕ → List UInt8
  | 0, _ => []
  | width + 1, addr => addrField width (addr / 256) ++ [UInt8.ofNat addr]

/-- The characters of a record. -/
def encodeRecord (lower : Bool) (v : UInt8) (width addr : ℕ) (data : List UInt8) : List UInt8 :=
  let count := UInt8.ofNat (width + data.length + 1)
  let field := addrField width addr
  0x53 :: v :: hexDigits lower (count :: (field ++ data ++ [checksum count field data]))

/-- A record and its line end. -/
def encodeLine (lower : Bool) (v : UInt8) (width addr : ℕ) (data : List UInt8) : List UInt8 :=
  encodeRecord lower v width addr data ++ [0x0D, 0x0A]

/-- S1, S2 and S3. -/
inductive DataType where
  | s1
  | s2
  | s3

namespace DataType

def char : DataType → UInt8
  | s1 => 0x31
  | s2 => 0x32
  | s3 => 0x33

def width : DataType → ℕ
  | s1 => 2
  | s2 => 3
  | s3 => 4

def srecType : DataType → SrecType
  | s1 => .data2
  | s2 => .data3
  | s3 => .data4

/-- S9, S8 and S7. -/
def endChar : DataType → UInt8
  | s1 => 0x39
  | s2 => 0x38
  | s3 => 0x37

end DataType

/-- A data record. -/
structure Chunk where
  type : DataType
  addr : ℕ
  data : List UInt8
  addr_lt : addr < 256 ^ type.width
  data_le : data.length + type.width + 1 ≤ 255

namespace Chunk

def next (c : Chunk) : ℕ := c.addr + c.data.length

def line (lower : Bool) (c : Chunk) : List UInt8 :=
  encodeLine lower c.type.char c.type.width c.addr c.data

end Chunk

/-- A start record: its address and the name of the module. -/
structure StartRecord where
  addr : ℕ
  data : List UInt8
  data_le : data.length + 3 ≤ 255

def StartRecord.line (lower : Bool) (s : StartRecord) : List UInt8 := encodeLine lower 0x30 2 s.addr s.data

def endLine (lower : Bool) (type : DataType) (addr : ℕ) : List UInt8 :=
  encodeLine lower type.endChar type.width addr []

/-- The file of a memory image. -/
def encodeFile (lower : Bool) (first : Option StartRecord) (image : List Chunk) (last : DataType)
    (entry : ℕ) : List UInt8 :=
  first.elim [] (·.line lower) ++ image.flatMap (·.line lower) ++ endLine lower last entry

/-! ## Images -/

/-- Ascending records that do not overlap. -/
def Ascending (image : List Chunk) : Prop := image.IsChain fun c d => c.next ≤ d.addr

/-- The address of the first record. -/
def base (image : List Chunk) : ℕ := (image.head?.map (·.addr)).getD 0

/-- The bytes from the first record to the end of the last one. -/
def extent (image : List Chunk) : ℕ := (image.getLast?.map (·.next)).getD 0 - base image

/-- The binary of an image. -/
structure IsBinary (image : List Chunk) (out : List UInt8) : Prop where
  length : out.length = extent image
  data : ∀ c ∈ image, ∀ i (h : i < c.data.length), out[c.addr - base image + i]? = some c.data[i]
  gap : ∀ j < out.length, (∀ c ∈ image, ¬ (c.addr ≤ base image + j ∧ base image + j < c.next)) →
    out[j]? = some 0

/-! ## Digits -/

theorem hex1Bin_digit (lower : Bool) {n : UInt8} (h : n.toNat < 16) :
    hex1Bin (digit lower n) = some n := by
  have hall : ∀ k < 16, hex1Bin (digit lower (UInt8.ofNat k)) = some (UInt8.ofNat k) := by
    cases lower <;> decide
  simpa using hall n.toNat h

theorem nibbles (b : UInt8) : (b >>> 4) <<< 4 + (b &&& 0xF) = b := by
  have hall : ∀ k < 256, ((UInt8.ofNat k) >>> 4) <<< 4 + (UInt8.ofNat k &&& 0xF) = UInt8.ofNat k := by
    decide +kernel
  simpa using hall b.toNat b.toNat_lt

theorem digit_lineChar (lower : Bool) {n : UInt8} (h : n.toNat < 16) : LineChar (digit lower n) := by
  have hall : ∀ k < 16, digit lower (UInt8.ofNat k) ≠ 0x0D ∧ digit lower (UInt8.ofNat k) ≠ 0x0A ∧
      digit lower (UInt8.ofNat k) ≠ 0 := by
    cases lower <;> decide
  simpa [LineChar] using hall n.toNat h

theorem nibble_lt (b : UInt8) : (b >>> 4).toNat < 16 ∧ (b &&& 0xF).toNat < 16 := by
  have hall : ∀ k < 256, ((UInt8.ofNat k) >>> 4).toNat < 16 ∧ (UInt8.ofNat k &&& 0xF).toNat < 16 := by
    decide +kernel
  simpa using hall b.toNat b.toNat_lt

theorem hexOf_hexDigits (lower : Bool) (bs : List UInt8) : HexOf (hexDigits lower bs) bs := by
  induction bs with
  | nil => exact .nil
  | cons b bs ih =>
    obtain ⟨hhigh, hlow⟩ := nibble_lt b
    have h := HexOf.cons (hex1Bin_digit lower hhigh) (hex1Bin_digit lower hlow) ih
    rwa [nibbles] at h

theorem hexDigits_lineChar (lower : Bool) (bs : List UInt8) : ∀ c ∈ hexDigits lower bs, LineChar c := by
  intro c hc
  obtain ⟨b, -, hc⟩ := List.mem_flatMap.mp hc
  obtain ⟨hhigh, hlow⟩ := nibble_lt b
  rcases List.mem_pair.mp hc with rfl | rfl
  · exact digit_lineChar lower hhigh
  · exact digit_lineChar lower hlow

/-! ## Records -/

@[simp] theorem length_addrField (width addr : ℕ) : (addrField width addr).length = width := by
  induction width generalizing addr with
  | zero => rfl
  | succ width ih => rw [addrField, List.length_append, ih]; rfl

/-- An address comes back from its field. -/
theorem address_addrField {width addr : ℕ} (hw : width ≤ 4) (h : addr < 256 ^ width) :
    (address (addrField width addr)).toNat = addr := by
  induction width generalizing addr with
  | zero =>
    obtain rfl : addr = 0 := by simpa using h
    rfl
  | succ width ih =>
    have hdiv : addr / 256 < 256 ^ width := by
      rw [Nat.div_lt_iff_lt_mul (by decide)]
      rwa [pow_succ] at h
    have hle : 256 ^ width ≤ 256 ^ 3 := Nat.pow_le_pow_right (by decide) (by omega)
    have ih := ih (by omega) hdiv
    have hfold : address (addrField (width + 1) addr) =
        address (addrField width (addr / 256)) <<< 8 + (UInt8.ofNat addr).toUInt64 := by
      rw [addrField, address, List.foldl_append]
      rfl
    rw [hfold, UInt64.toNat_add, UInt64.toNat_shiftLeft, ih]
    have hbyte : (UInt8.ofNat addr).toUInt64.toNat = addr % 256 := by simp
    have hshift : (addr / 256) <<< ((8 : UInt64).toNat % 64) = addr / 256 * 256 := Nat.shiftLeft_eq _ _
    rw [hbyte, hshift]
    omega

variable {lower : Bool} {v : UInt8} {width addr : ℕ} {data rest : List UInt8} {type : SrecType}
  {maxbin : UInt32} {l : Loop}

theorem length_hexDigits (lower : Bool) (bs : List UInt8) : (hexDigits lower bs).length = 2 * bs.length :=
  (hexOf_hexDigits lower bs).length_eq

/-- What is written for a record is one, whatever stands behind it. -/
theorem isRecord_encode (hv : recordType v = some (type, width)) (htype : type ≠ .count)
    (hlen : width + data.length + 1 ≤ 255) (rest : List UInt8) :
    IsRecord (encodeRecord lower v width addr data ++ rest)
      ⟨type, data.length, address (addrField width addr), data⟩ := by
  have hcount : dataCount type width (UInt8.ofNat (width + data.length + 1)) = data.length := by
    rw [dataCount, if_neg htype, UInt8.toNat_ofNat', Nat.mod_eq_of_lt (by omega)]
    omega
  have h : IsRecord ([] ++ encodeRecord lower v width addr data ++ rest)
      ⟨type, dataCount type width (UInt8.ofNat (width + data.length + 1)),
        address (addrField width addr), data⟩ :=
    .mk (fun c hc => absurd hc List.not_mem_nil) hv (hexOf_hexDigits lower _)
      (length_addrField width addr) (by rw [hcount]; rfl)
  rwa [hcount] at h

theorem encodeRecord_lineChar (hv : LineChar v) :
    ∀ c ∈ encodeRecord lower v width addr data, LineChar c := by
  refine List.forall_mem_cons.mpr ⟨by unfold LineChar; decide, List.forall_mem_cons.mpr ⟨hv, ?_⟩⟩
  exact hexDigits_lineChar lower _

theorem length_encodeRecord (lower : Bool) (v : UInt8) (width addr : ℕ) (data : List UInt8) :
    (encodeRecord lower v width addr data).length = 2 * (width + data.length) + 6 := by
  rw [encodeRecord, List.length_cons, List.length_cons, length_hexDigits]
  simp only [List.length_cons, List.length_append, length_addrField, List.length_nil]
  omega

theorem recordType_lineChar {x : SrecType × ℕ} (h : recordType v = some x) : LineChar v := by
  unfold recordType at h
  split_ifs at h with h0 h1 h2 h3 h5 h7 h8 h9 <;> subst v <;> unfold LineChar <;> decide

/-- A line is read and decoded, and the text goes on behind it. -/
theorem read_line (hv : recordType v = some (type, width)) (htype : type ≠ .count)
    (hlen : width + data.length + 1 ≤ 255) (hl : l.inbuf = encodeLine lower v width addr data ++ rest) :
    ∃ k record, readRecord l.record l.inbuf = .ok (some (k, record)) ∧ l.inbuf.drop k = rest ∧
      srecDecode record = .ok ⟨type, data.length, address (addrField width addr), data⟩ := by
  have htext : l.inbuf = encodeRecord lower v width addr data ++ 0x0D :: (0x0A :: rest) := by
    rw [hl, encodeLine, List.append_assoc]
    rfl
  have hshort : (encodeRecord lower v width addr data).length < SREC_MAXRECLEN := by
    rw [length_encodeRecord, SREC_MAXRECLEN]
    omega
  have hread := readRecord_line (encodeRecord_lineChar (recordType_lineChar hv)) hshort (.inl rfl)
    l.record (0x0A :: rest)
  rw [← htext] at hread
  refine ⟨_, _, hread, ?_, (srecDecode_record (recordType_ne hv).2).mpr (isRecord_encode hv htype hlen _)⟩
  rw [htext, ← List.drop_drop, List.drop_left]
  rfl

/-! ## The binary -/

/-- The bytes of an image from the address `e` on. -/
def layout : ℕ → List Chunk → List UInt8
  | _, [] => []
  | e, c :: image => List.replicate (c.addr - e) 0 ++ c.data ++ layout c.next image

/-- Where an image ends that follows the address `e`. -/
def endOf : ℕ → List Chunk → ℕ
  | e, [] => e
  | _, c :: image => endOf c.next image

/-- An ascending image that follows the address `e`. -/
def AscendingFrom : ℕ → List Chunk → Prop
  | _, [] => True
  | e, c :: image => e ≤ c.addr ∧ AscendingFrom c.next image

variable {e : ℕ} {image : List Chunk} {c : Chunk}

theorem ascendingFrom_of_isChain (he : e ≤ c.addr) (h : Ascending (c :: image)) :
    AscendingFrom e (c :: image) := by
  induction image generalizing c e with
  | nil => exact ⟨he, trivial⟩
  | cons d image ih =>
    obtain ⟨hcd, h⟩ := List.isChain_cons_cons.mp h
    exact ⟨he, ih hcd h⟩

theorem AscendingFrom.le_endOf (h : AscendingFrom e image) : e ≤ endOf e image := by
  induction image generalizing e with
  | nil => exact le_rfl
  | cons c image ih =>
    have := ih h.2
    have hnext : c.addr ≤ c.next := Nat.le_add_right _ _
    exact h.1.trans (hnext.trans this)

theorem AscendingFrom.le_addr (h : AscendingFrom e image) (hc : c ∈ image) : e ≤ c.addr := by
  induction image generalizing e with
  | nil => exact absurd hc List.not_mem_nil
  | cons d image ih =>
    rcases List.mem_cons.mp hc with rfl | hc
    · exact h.1
    · have hnext : d.addr ≤ d.next := Nat.le_add_right _ _
      exact h.1.trans (hnext.trans (ih h.2 hc))

theorem length_layout (h : AscendingFrom e image) : (layout e image).length = endOf e image - e := by
  induction image generalizing e with
  | nil => simp [layout, endOf]
  | cons c image ih =>
    have hend := h.2.le_endOf
    have he := h.1
    have hlen : c.next = c.addr + c.data.length := rfl
    simp only [layout, List.length_append, List.length_replicate, ih h.2, endOf]
    omega

/-- The bytes of a record stand at its address. -/
theorem layout_data (h : AscendingFrom e image) (hc : c ∈ image) {i : ℕ} (hi : i < c.data.length) :
    (layout e image)[c.addr - e + i]? = some c.data[i] := by
  induction image generalizing e with
  | nil => exact absurd hc List.not_mem_nil
  | cons d image ih =>
    have hlen : (List.replicate (d.addr - e) (0 : UInt8) ++ d.data).length = d.next - e := by
      have := h.1
      simp only [List.length_append, List.length_replicate, Chunk.next]
      omega
    rcases List.mem_cons.mp hc with rfl | hc
    · rw [layout, List.getElem?_append_left (by rw [hlen]; have := h.1; simp only [Chunk.next]; omega),
        List.getElem?_append_right (by simp), List.length_replicate, Nat.add_sub_cancel_left,
        List.getElem?_eq_getElem hi]
    · have hle := h.2.le_addr hc
      have hnext : d.addr ≤ d.next := Nat.le_add_right _ _
      have he := h.1
      rw [layout, List.getElem?_append_right (by rw [hlen]; omega), hlen, ← ih h.2 hc]
      congr 1
      omega

/-- What no record covers is zero. -/
theorem layout_gap (h : AscendingFrom e image) {j : ℕ} (hj : j < (layout e image).length)
    (hgap : ∀ c ∈ image, ¬ (c.addr ≤ e + j ∧ e + j < c.next)) : (layout e image)[j]? = some 0 := by
  induction image generalizing e j with
  | nil => exact absurd hj (Nat.not_lt_zero _)
  | cons d image ih =>
    have he := h.1
    have hlen : (List.replicate (d.addr - e) (0 : UInt8) ++ d.data).length = d.next - e := by
      simp only [List.length_append, List.length_replicate, Chunk.next]
      omega
    have hd := hgap d (.head _)
    by_cases hlt : j < d.addr - e
    · rw [layout, List.append_assoc, List.getElem?_append_left (by simpa using hlt),
        List.getElem?_replicate, if_pos hlt]
    · have hnext : d.next - e ≤ j := by omega
      have hnext' : d.addr ≤ d.next := Nat.le_add_right _ _
      rw [layout, List.length_append, hlen] at hj
      rw [layout, List.getElem?_append_right (by rw [hlen]; exact hnext), hlen]
      refine ih h.2 (by omega) fun c hc => ?_
      have := hgap c (List.mem_cons_of_mem _ hc)
      rwa [show d.next + (j - (d.next - e)) = e + j by omega]

theorem endOf_eq (e : ℕ) (image : List Chunk) (c : Chunk) :
    endOf e (c :: image) = ((c :: image).getLast (List.cons_ne_nil _ _)).next := by
  induction image generalizing e c with
  | nil => rfl
  | cons d image ih => rw [endOf, ih, List.getLast_cons_cons]

theorem isBinary_layout (h : Ascending image) : IsBinary image (layout (base image) image) := by
  cases image with
  | nil => exact ⟨rfl, fun c hc => absurd hc List.not_mem_nil, fun j hj => absurd hj (Nat.not_lt_zero _)⟩
  | cons c image =>
    have hasc : AscendingFrom (base (c :: image)) (c :: image) := ascendingFrom_of_isChain le_rfl h
    refine ⟨?_, fun d hd i hi => layout_data hasc hd hi, fun j hj => layout_gap hasc hj⟩
    rw [length_layout hasc, endOf_eq, extent, List.getLast?_eq_getLast_of_ne_nil (List.cons_ne_nil _ _)]
    rfl

/-! ## Loading -/

theorem next_start (s : StartRecord) (hl : l.inbuf = s.line lower ++ rest) :
    ∃ record, Next maxbin l { l with inbuf := rest, record := record } := by
  have hlen := s.data_le
  obtain ⟨k, record, hread, hdrop, hdec⟩ :=
    read_line (v := 0x30) rfl (by decide) (by omega) hl
  refine ⟨record, ?_⟩
  unfold Next iterate
  rw [hread]
  simp only [hdec, hdrop]

theorem ends_endLine {last : DataType} {entry : ℕ} (hl : l.inbuf = endLine lower last entry ++ rest) :
    Ends maxbin l (.done l.outSize l.out) := by
  refine ⟨?_, fun _ h => nomatch h⟩
  have hread : ∃ type, (type = .end2 ∨ type = .end3 ∨ type = .end4) ∧
      recordType last.endChar = some (type, last.width) := by
    cases last
    · exact ⟨_, .inl rfl, rfl⟩
    · exact ⟨_, .inr (.inl rfl), rfl⟩
    · exact ⟨_, .inr (.inr rfl), rfl⟩
  obtain ⟨type, htype, hv⟩ := hread
  have hne : type ≠ .count := by
    rcases htype with rfl | rfl | rfl <;> decide
  have hlen : last.width + ([] : List UInt8).length + 1 ≤ 255 := by
    cases last <;> decide
  obtain ⟨k, record, hread, hdrop, hdec⟩ := read_line hv hne hlen hl
  unfold iterate
  rw [hread]
  simp only [hdec]
  rcases htype with rfl | rfl | rfl <;> rfl

/-- The stored bytes end at the address `e`, where the first record has to start. -/
structure StoredTo (e : ℕ) (image : List Chunk) (l : Loop) : Prop where
  size : l.outSize.toNat = l.out.length
  first : l.firstDataLine = true → ∀ c ∈ image.head?, c.addr = e
  later : l.firstDataLine = false → l.prevAddr.toNat + l.prevBinlen.toNat = e

/-- What is cleared before a record is the gap in front of it. -/
theorem gap_eq (h : StoredTo e (c :: image) l) (he : e ≤ c.addr) {addr : UInt64}
    (haddr : addr.toNat = c.addr) (hlt : c.addr < 2 ^ 32) : (gap l addr).toNat = c.addr - e := by
  unfold gap
  cases hfirst : l.firstDataLine
  · have hlater := h.later hfirst
    have hp := l.prevAddr.toNat_lt
    have hb := l.prevBinlen.toNat_lt
    have hsub : (addr - l.prevAddr.toUInt64).toNat = c.addr - l.prevAddr.toNat := by
      rw [UInt64.toNat_sub_of_le _ _ (UInt64.le_iff_toNat_le.mpr (by simp [haddr]; omega)), haddr,
        UInt32.toNat_toUInt64]
    by_cases hgt : l.prevBinlen.toUInt64 < addr - l.prevAddr.toUInt64
    · rw [if_pos ⟨hgt, rfl⟩, UInt64.toNat_toUInt32,
        UInt64.toNat_sub_of_le _ _ (UInt64.le_of_lt hgt), hsub, UInt32.toNat_toUInt64]
      omega
    · rw [if_neg fun h => hgt h.1]
      rw [UInt64.lt_iff_toNat_lt, hsub, UInt32.toNat_toUInt64] at hgt
      change 0 = _
      omega
  · rw [if_neg fun h => by cases h.2]
    have := h.first hfirst c rfl
    change 0 = _
    omega

theorem DataType.recordType_char (t : DataType) : recordType t.char = some (t.srecType, t.width) := by
  cases t <;> rfl

theorem DataType.width_le (t : DataType) : t.width ≤ 4 := by
  cases t <;> decide

theorem Chunk.addr_lt' (c : Chunk) : c.addr < 2 ^ 32 :=
  c.addr_lt.trans_le (Nat.pow_le_pow_right (by decide) c.type.width_le)

/-- A record is stored behind its gap. -/
theorem next_chunk (h : StoredTo e (c :: image) l) (he : e ≤ c.addr)
    (hfits : l.out.length + (c.addr - e) + c.data.length ≤ maxbin.toNat)
    (hl : l.inbuf = c.line lower ++ rest) :
    ∃ l', Next maxbin l l' ∧ l'.inbuf = rest ∧
      l'.out = l.out ++ (List.replicate (c.addr - e) 0 ++ c.data) ∧ StoredTo c.next image l' := by
  have hdata := c.data_le
  have hmax := maxbin.toNat_lt
  have haddr := address_addrField c.type.width_le c.addr_lt
  obtain ⟨k, record, hread, hdrop, hdec⟩ := read_line c.type.recordType_char
    (by cases c.type <;> decide) (by omega) hl
  have hgap := gap_eq h he haddr c.addr_lt'
  have hcount : (UInt32.ofInt c.data.length).toNat = c.data.length := by
    rw [ofInt_natCast, UInt32.toNat_ofNat', Nat.mod_eq_of_lt (by omega)]
  have hsize : (l.outSize + gap l (address (addrField c.type.width c.addr)) +
      UInt32.ofInt c.data.length).toNat = l.out.length + (c.addr - e) + c.data.length := by
    rw [UInt32.toNat_add, UInt32.toNat_add, hgap, hcount, h.size]
    omega
  let r : Record := ⟨c.type.srecType, c.data.length, address (addrField c.type.width c.addr), c.data⟩
  let d : Loop := { l with inbuf := rest, record := record }
  have hstore : storeData maxbin d r = .next (stored d r) := by
    rw [storeData_eq (Int.natCast_nonneg _), if_neg]
    rw [UInt32.lt_iff_toNat_lt]
    exact not_lt.mpr (hsize.trans_le hfits)
  refine ⟨stored d r, ?_, rfl, ?_, ?_, fun h => (nomatch h), fun _ => ?_⟩
  · have htype : IsData c.type.srecType := by
      cases c.type <;> simp [IsData, DataType.srecType]
    rw [Next, iterate_data hread hdec htype, hdrop]
    exact hstore
  · rw [← List.append_assoc, ← hgap]
    rfl
  · refine hsize.trans ?_
    have hout : (stored d r).out = l.out ++
        List.replicate (gap l (address (addrField c.type.width c.addr))).toNat 0 ++ c.data := rfl
    rw [hout, List.length_append, List.length_append, List.length_replicate, hgap]
  · have hprev : (stored d r).prevAddr = (address (addrField c.type.width c.addr)).toUInt32 := rfl
    have hlen : (stored d r).prevBinlen = UInt32.ofInt c.data.length := rfl
    rw [hprev, hlen, hcount, UInt64.toNat_toUInt32, haddr, Nat.mod_eq_of_lt c.addr_lt']
    rfl

/-- The records are stored one after the other. -/
theorem run_chunks (h : StoredTo e image l) (hasc : AscendingFrom e image)
    (hfits : l.out.length + (layout e image).length ≤ maxbin.toNat)
    (hl : l.inbuf = image.flatMap (·.line lower) ++ rest) :
    ∃ l', Reaches maxbin l l' ∧ l'.inbuf = rest ∧ l'.out = l.out ++ layout e image ∧
      l'.outSize.toNat = l'.out.length := by
  induction image generalizing l e with
  | nil => exact ⟨l, .refl, hl, (List.append_nil _).symm, h.size⟩
  | cons c image ih =>
    rw [layout, List.length_append, List.length_append, List.length_replicate] at hfits
    rw [List.flatMap_cons, List.append_assoc] at hl
    have hfits' : l.out.length + (c.addr - e) + c.data.length ≤ maxbin.toNat := by omega
    obtain ⟨d, hnext, hinbuf, hout, hd⟩ := next_chunk h hasc.1 hfits' hl
    have hlen : d.out.length + (layout c.next image).length ≤ maxbin.toNat := by
      rw [hout, List.length_append, List.length_append, List.length_replicate]
      omega
    obtain ⟨l', hreach, hinbuf', hout', hsize⟩ := ih hd hasc.2 hlen hinbuf
    refine ⟨l', hreach.head hnext, hinbuf', ?_, hsize⟩
    rw [hout', hout, layout, List.append_assoc]

theorem storedTo_base (h : l.out = []) (hsize : l.outSize = 0) (hfirst : l.firstDataLine = true)
    (image : List Chunk) : StoredTo (base image) image l := by
  refine ⟨by rw [h, hsize]; rfl, fun _ c hc => ?_, fun h => ?_⟩
  · rw [base, Option.mem_def.mp hc]
    rfl
  · rw [hfirst] at h
    cases h

theorem ascendingFrom_base (h : Ascending image) : AscendingFrom (base image) image := by
  cases image with
  | nil => trivial
  | cons c image => exact ascendingFrom_of_isChain le_rfl h

/-- Loading undoes writing: the binary of the image, and its length up to the end of the last
record. -/
theorem srecToBin_encodeFile (maxbin : UInt32) (lower : Bool) (first : Option StartRecord)
    (image : List Chunk) (last : DataType) (entry : ℕ) (hasc : Ascending image)
    (hfits : extent image ≤ maxbin.toNat) (record rest : List UInt8) :
    ∃ out size, srecToBin maxbin record (encodeFile lower first image last entry ++ rest) =
        some (.done size out) ∧ IsBinary image out ∧ size.toNat = extent image := by
  have hbinary := isBinary_layout hasc
  set text := image.flatMap (·.line lower) ++ (endLine lower last entry ++ rest) with htext
  obtain ⟨d, hstart, hinbuf, hout, hsize, hfirst⟩ : ∃ d,
      Reaches maxbin (start record (encodeFile lower first image last entry ++ rest)) d ∧
        d.inbuf = text ∧ d.out = [] ∧ d.outSize = 0 ∧ d.firstDataLine = true := by
    cases first with
    | none =>
      refine ⟨_, .refl, ?_, rfl, rfl, rfl⟩
      simp only [start, encodeFile, Option.elim_none, List.nil_append, htext, List.append_assoc]
    | some s =>
      have hl : (start record (encodeFile lower (some s) image last entry ++ rest)).inbuf =
          s.line lower ++ text := by
        simp only [start, encodeFile, Option.elim_some, htext, List.append_assoc]
      obtain ⟨record', hnext⟩ := next_start s hl
      exact ⟨_, .single hnext, rfl, rfl, rfl, rfl⟩
  have hlen : d.out.length + (layout (base image) image).length ≤ maxbin.toNat := by
    rw [hout, hbinary.length, List.length_nil, Nat.zero_add]
    exact hfits
  obtain ⟨l', hreach, hinbuf', hout', hsize'⟩ :=
    run_chunks (storedTo_base hout hsize hfirst image) (ascendingFrom_base hasc) hlen hinbuf
  rw [hout, List.nil_append] at hout'
  refine ⟨l'.out, l'.outSize, (srecToBin_eq _ _ _ _).mpr ⟨l', hstart.trans hreach, ends_endLine hinbuf'⟩, ?_, ?_⟩
  · rw [hout']
    exact hbinary
  · rw [hsize', hout', hbinary.length]

/-- Two records with a gap of two bytes between them. -/
def twoRecords : List Chunk :=
  [⟨.s1, 0x10, [1, 2], by decide, by decide⟩, ⟨.s3, 0x14, [3], by decide, by decide⟩]

theorem twoRecords_loaded : Ascending twoRecords ∧ ∃ out size,
    srecToBin 5 [] (encodeFile true (some ⟨0, [0x6D], by decide⟩) twoRecords .s3 0 ++ [0]) =
      some (.done size out) ∧ IsBinary twoRecords out ∧ size.toNat = 5 := by
  have hasc : Ascending twoRecords := .cons_cons (by decide) (.singleton _)
  exact ⟨hasc, srecToBin_encodeFile 5 true _ twoRecords .s3 0 hasc (by decide) [] [0]⟩

/-- The bytes from the first record to the last data byte. -/
def dataExtent (image : List Chunk) : ℕ :=
  ((image.filter fun c => !c.data.isEmpty).getLast?.map (·.next)).getD 0 - base image

/-- A byte, and a record without data behind a gap. -/
def emptyLast : List Chunk :=
  [⟨.s1, 0, [0x11], by decide, by decide⟩, ⟨.s1, 0x10, [], by decide, by decide⟩]

/-- A last record without data counts as far as its address. -/
theorem emptyLast_counts :
    Ascending emptyLast ∧ extent emptyLast = 16 ∧ dataExtent emptyLast = 1 ∧
      srecToBin 100 (List.replicate 517 0) (encodeFile false none emptyLast .s1 0 ++ [0]) =
        some (.done 16 (0x11 :: List.replicate 15 0)) := by
  refine ⟨.cons_cons (by decide) (.singleton _), by decide, by decide, by decide +kernel⟩

end RCar.Srec
