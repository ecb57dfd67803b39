import RCarM3N.Lib.Bytes

/-! S-records: `srec_decode` over the line buffer and `srec_to_bin` over the text of a file. A
buffer is the list of its bytes, and an access behind its end stops the model: nothing is
said about what the code does then. -/

namespace RCar.Srec

def SREC_MAXRECLEN : ℕ := 512 + 4
def SREC_MAXBINLEN : ℕ := 255

/-! ## One record -/

/-- The types of records, `SREC_EMPTY` being the end of the text. -/
inductive SrecType where
  | start
  | data2
  | data3
  | data4
  | count
  | end4
  | end3
  | end2
  | empty
deriving DecidableEq

/-- `SREC_E_*`. -/
inductive SrecError where
  | badType
  | noSrec
  | badChks
deriving DecidableEq

/-- Why a function does not end with a record. -/
inductive Stop where
  | outside
  | error (e : SrecError)
deriving DecidableEq

/-- What `srec_decode` has filled in. -/
structure Record where
  type : SrecType
  count : ℤ
  addr : UInt64
  data : List UInt8
deriving DecidableEq

def hex1Bin (c : UInt8) : Option UInt8 :=
  if 0x30 ≤ c ∧ c ≤ 0x39 then some (c - 0x30)
  else if 0x61 ≤ c ∧ c ≤ 0x66 then some (c + 10 - 0x61)
  else if 0x41 ≤ c ∧ c ≤ 0x46 then some (c + 10 - 0x41)
  else none

/-- The byte that two digits stand for, and what follows them. -/
def hex2Bin : List UInt8 → Except Stop (UInt8 × List UInt8)
  | [] => .error .outside
  | c :: input =>
    match hex1Bin c with
    | none => .error (.error .noSrec)
    | some i =>
      match input with
      | [] => .error .outside
      | d :: input =>
        match hex1Bin d with
        | none => .error (.error .noSrec)
        | some j => .ok (i <<< 4 + j, input)

/-- `n` bytes, two digits each. -/
def hexBytes : ℕ → List UInt8 → Except Stop (List UInt8 × List UInt8)
  | 0, input => .ok ([], input)
  | n + 1, input => do
    let (v, input) ← hex2Bin input
    let (vs, input) ← hexBytes n input
    return (v :: vs, input)

/-- What follows the first `S`, or the text from its end on. -/
def skipToS : List UInt8 → Except Stop (List UInt8)
  | [] => .error .outside
  | c :: input => if c = 0 then .ok (c :: input) else if c = 0x53 then .ok input else skipToS input

/-- The type of a record, and the number of bytes in its address field. -/
def recordType (v : UInt8) : Option (SrecType × ℕ) :=
  if v = 0x30 then some (.start, 2)
  else if v = 0x31 then some (.data2, 2)
  else if v = 0x32 then some (.data3, 3)
  else if v = 0x33 then some (.data4, 4)
  else if v = 0x35 then some (.count, 2)
  else if v = 0x37 then some (.end4, 4)
  else if v = 0x38 then some (.end3, 3)
  else if v = 0x39 then some (.end2, 2)
  else none

/-- The count without the checksum and the address. -/
def dataCount (type : SrecType) (width : ℕ) (count : UInt8) : ℤ :=
  if type = .count then 0 else (count.toNat : ℤ) - (width + 1)

def address (field : List UInt8) : UInt64 := field.foldl (fun addr v => addr <<< 8 + v.toUInt64) 0

/-- What the text after the type says. -/
def decodeFields (type : SrecType) (width : ℕ) (count : UInt8) (input : List UInt8) :
    Except Stop Record := do
  let (field, input) ← hexBytes width input
  let (data, input) ← hexBytes (dataCount type width count).toNat input
  let (v, _) ← hex2Bin input
  let chksum := count + field.sum + data.sum
  if v = ~~~chksum then
    return ⟨type, dataCount type width count, address field, data⟩
  else
    throw (.error .badChks)

def srecDecode (input : List UInt8) : Except Stop Record := do
  match ← skipToS input with
  | [] => throw .outside
  | v :: input =>
    if v = 0 then return ⟨.empty, 0, 0, []⟩
    let (count, input) ← hex2Bin input
    match recordType v with
    | none => throw (.error .badType)
    | some (type, width) => decodeFields type width count input

/-! ## The file -/

/-- How the reading of a line ends. -/
inductive LineEnd where
  | newline
  | nul
  | full
  | outside
deriving DecidableEq

/-- The characters that `read_record` stores, at most `len`, and what ends them. -/
def readChars : ℕ → List UInt8 → List UInt8 × LineEnd
  | 0, _ => ([], .full)
  | _ + 1, [] => ([], .outside)
  | len + 1, c :: input =>
    if c = 0x0D ∨ c = 0x0A then ([], .newline)
    else if c = 0 then ([], .nul)
    else (c :: (readChars len input).1, (readChars len input).2)

/-- The characters that are to be skipped and the line buffer after a line; `none` is the end of
the file. -/
def readRecord (buf : List UInt8) (input : List UInt8) : Except Stop (Option (ℕ × List UInt8)) :=
  match readChars SREC_MAXRECLEN input with
  | (_, .outside) => .error .outside
  | (_, .nul) => .ok none
  -- 2 - to skip terminating symbols
  | (line, .newline) => .ok (some (line.length + 2, line ++ buf.drop line.length))
  -- line too long - truncate
  | (line, .full) => .ok (some (line.length, line ++ [0]))

/-- The variables of the loop: what is left of the text, the line buffer, and the bytes that have
been stored from the start of the destination on. -/
structure Loop where
  inbuf : List UInt8
  record : List UInt8
  out : List UInt8
  outSize : UInt32
  firstDataLine : Bool
  prevAddr : UInt32
  prevBinlen : UInt32
deriving DecidableEq

/-- What an iteration ends with. -/
inductive Iteration where
  | next (l : Loop)
  | done (outSize : UInt32) (out : List UInt8)
  | outside
deriving DecidableEq

/-- The number of bytes that are cleared before the data. -/
def gap (l : Loop) (addr : UInt64) : UInt32 :=
  if l.prevBinlen.toUInt64 < addr - l.prevAddr.toUInt64 ∧ l.firstDataLine = false then
    (addr - l.prevAddr.toUInt64 - l.prevBinlen.toUInt64).toUInt32
  else 0

/-- A data record; a count below zero makes `memcpy` leave both buffers. -/
def storeData (maxbin : UInt32) (l : Loop) (r : Record) : Iteration :=
  if r.count < 0 then .outside
  else
    let diff := gap l r.addr
    let out := l.out ++ List.replicate diff.toNat 0 ++ r.data
    let outSize := l.outSize + diff + UInt32.ofInt r.count
    if maxbin < outSize then .done 0 out
    else .next { l with
      out := out
      outSize := outSize
      firstDataLine := false
      prevAddr := r.addr.toUInt32
      prevBinlen := UInt32.ofInt r.count }

/-- One iteration of `srec_to_bin`. -/
def iterate (maxbin : UInt32) (l : Loop) : Iteration :=
  match readRecord l.record l.inbuf with
  | .error _ => .outside
  | .ok none => .done 0 l.out
  | .ok (some (bRead, record)) =>
    let l := { l with inbuf := l.inbuf.drop bRead, record := record }
    match srecDecode record with
    | .error .outside => .outside
    | .error (.error _) => .done 0 l.out
    | .ok r =>
      match r.type with
      | .data2 | .data3 | .data4 => storeData maxbin l r
      | .end2 | .end3 | .end4 => .done l.outSize l.out
      | .start | .count => .next l
      | .empty => .done 0 l.out

/-- At most `n` iterations; `none` when they do not suffice. -/
def iterations (maxbin : UInt32) : ℕ → Loop → Option Iteration
  | 0, _ => none
  | n + 1, l =>
    match iterate maxbin l with
    | .next l => iterations maxbin n l
    | i => some i

/-- The loop at its start; `record` is what the line buffer holds. -/
def start (record inbuf : List UInt8) : Loop where
  inbuf := inbuf
  record := record
  out := []
  outSize := 0
  firstDataLine := true
  prevAddr := 0
  prevBinlen := 0

/-- `srec_to_bin` over the accessible bytes of the text: an iteration takes at least one of them. -/
def srecToBin (maxbin : UInt32) (record inbuf : List UInt8) : Option Iteration :=
  iterations maxbin (inbuf.length + 1) (start record inbuf)

end RCar.Srec
