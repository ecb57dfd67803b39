import RCarM3N.Lib.Bytes

/-! The two formatters of the CR7 loader's `printf.c`: `tf_printf` to the console and `sprintf` to a buffer. The format is
read from a memory, and what is read of it is recorded; `none` is a run that goes wrong (no argument of the type, no room
in `num_buf`) or that needs more turns. -/

namespace RCar.Cr7Printf

/-- A variable argument: a word, or a pointer to a string. -/
inductive Arg where
  | word (w : UInt32)
  | str (s : List UInt8)

def char (c : Char) : UInt8 := c.toNat.toUInt8

/-- The first loop of `uint32_print` and of `uint32_sprint`, which fills `num_buf` from its start. -/
def numBuf : ℕ → UInt32 → Option (List UInt8)
  | 0, _ => none
  | room + 1, unum =>
    let digit := (48 + unum % 10).toUInt8
    if unum / 10 < 1 then some [digit] else (numBuf room (unum / 10)).map fun b => digit :: b

/-- The character for digit `i` of a hexadecimal number. -/
def hexChar (num : UInt32) (i : ℕ) : UInt8 :=
  let c := (num >>> UInt32.ofNat ((7 - i) * 4) &&& 0x0F).toUInt8
  if c ≥ 0x0A then c + (char 'a' - 0x0A) else c + char '0'

/-! ## tf_printf -/

/-- `console_putc`, with the count that follows it. -/
def putc (s : UInt32 × List UInt8) (c : UInt8) : UInt32 × List UInt8 := (s.1 + 1, s.2 ++ [c])

def uint32Print (num : UInt32) (console : List UInt8) : Option (UInt32 × List UInt8) :=
  (numBuf 10 num).map fun b => b.reverse.foldl putc (0, console)

def int32Print (num : Int32) (console : List UInt8) : Option (UInt32 × List UInt8) :=
  let (count, console, unum) :=
    if num < 0 then ((1 : UInt32), console ++ [char '-'], (-num).toUInt32) else (0, console, num.toUInt32)
  (uint32Print unum console).map fun r => (count + r.1, r.2)

def uint32HexPrint (num : UInt32) (console : List UInt8) : UInt32 × List UInt8 :=
  (List.range 8).foldl (fun s i => putc s (hexChar num i)) (0, console)

def strPrint (str : List UInt8) (console : List UInt8) : UInt32 × List UInt8 := str.foldl putc (0, console)

structure TfPrintf where
  fmt : ℕ
  args : List Arg
  count : UInt32
  console : List UInt8
  reads : List ℕ

namespace TfPrintf

/-- What a conversion has printed and counted, with the argument used up. -/
def printed (s : TfPrintf) (args : List Arg) (r : UInt32 × List UInt8) : TfPrintf :=
  { s with args := args, count := s.count + r.1, console := r.2 }

/-- The switch. -/
def convert (s : TfPrintf) (c : UInt8) : Option TfPrintf :=
  if c = char 'i' ∨ c = char 'd' then
    match s.args with
    | .word w :: args => (int32Print w.toInt32 s.console).map (s.printed args)
    | _ => none
  else if c = char 's' then
    match s.args with
    | .str str :: args => some (s.printed args (strPrint str s.console))
    | _ => none
  else if c = char 'x' then
    match s.args with
    | .word w :: args => some (s.printed args (uint32HexPrint w s.console))
    | _ => none
  else if c = char 'u' then
    match s.args with
    | .word w :: args => (uint32Print w s.console).map (s.printed args)
    | _ => none
  else some s

def loop (mem : Mem) : ℕ → TfPrintf → Option TfPrintf
  | 0, _ => none
  | turns + 1, s =>
    let s := { s with reads := s.reads ++ [s.fmt] }
    if mem s.fmt = 0 then some s
    else if mem s.fmt = char '%' then
      match convert { s with fmt := s.fmt + 1, reads := s.reads ++ [s.fmt + 1] } (mem (s.fmt + 1)) with
      | none => none
      | some s => loop mem turns { s with fmt := s.fmt + 1 }
    else
      loop mem turns { s with fmt := s.fmt + 1, count := s.count + 1, console := s.console ++ [mem s.fmt] }

end TfPrintf

def tfPrintf (fmt : Mem) (args : List Arg) (turns : ℕ) : Option TfPrintf :=
  TfPrintf.loop fmt turns ⟨0, args, 0, [], []⟩

/-! ## sprintf -/

/-- A character at `buf[count]`, for a buffer at `dst`. -/
def put (dst : ℕ) (s : UInt32 × Mem) (c : UInt8) : UInt32 × Mem :=
  (s.1 + 1, Function.update s.2 (dst + s.1.toNat) c)

def uint32Sprint (num : UInt32) (dst : ℕ) (buf : Mem) : Option (UInt32 × Mem) :=
  (numBuf 10 num).map fun b => b.reverse.foldl (put dst) (0, buf)

def int32Sprint (num : Int32) (dst : ℕ) (buf : Mem) : Option (UInt32 × Mem) :=
  let (count, buf, unum) :=
    if num < 0 then ((1 : UInt32), Function.update buf dst (char '-'), (-num).toUInt32) else (0, buf, num.toUInt32)
  (uint32Sprint unum (dst + count.toNat) buf).map fun r => (count + r.1, r.2)

def uint32HexSprint (num : UInt32) (dst : ℕ) (buf : Mem) : UInt32 × Mem :=
  (List.range 8).foldl (fun s i => put dst s (hexChar num i)) (0, buf)

def strSprint (str : List UInt8) (dst : ℕ) (buf : Mem) : UInt32 × Mem := str.foldl (put dst) (0, buf)

structure Sprintf where
  fmt : ℕ
  args : List Arg
  count : UInt32
  buf : Mem
  reads : List ℕ

namespace Sprintf

/-- What a conversion has written and counted, with the argument used up. -/
def written (s : Sprintf) (args : List Arg) (r : UInt32 × Mem) : Sprintf :=
  { s with args := args, count := s.count + r.1, buf := r.2 }

/-- The switch, for a buffer at `dst`. -/
def convert (dst : ℕ) (s : Sprintf) (c : UInt8) : Option Sprintf :=
  if c = char 'i' ∨ c = char 'd' then
    match s.args with
    | .word w :: args => (int32Sprint w.toInt32 (dst + s.count.toNat) s.buf).map (s.written args)
    | _ => none
  else if c = char 's' then
    match s.args with
    | .str str :: args => some (s.written args (strSprint str (dst + s.count.toNat) s.buf))
    | _ => none
  else if c = char 'x' then
    match s.args with
    | .word w :: args => some (s.written args (uint32HexSprint w (dst + s.count.toNat) s.buf))
    | _ => none
  else if c = char 'u' then
    match s.args with
    | .word w :: args => (uint32Sprint w (dst + s.count.toNat) s.buf).map (s.written args)
    | _ => none
  else some s

def loop (dst : ℕ) (mem : Mem) : ℕ → Sprintf → Option Sprintf
  | 0, _ => none
  | turns + 1, s =>
    let s := { s with reads := s.reads ++ [s.fmt] }
    if mem s.fmt = 0 then some s
    else if mem s.fmt = char '%' then
      match convert dst { s with fmt := s.fmt + 1, reads := s.reads ++ [s.fmt + 1] } (mem (s.fmt + 1)) with
      | none => none
      | some s => loop dst mem turns { s with fmt := s.fmt + 1 }
    else
      loop dst mem turns { s with
        fmt := s.fmt + 1, count := s.count + 1, buf := Function.update s.buf (dst + s.count.toNat) (mem s.fmt) }

end Sprintf

/-- What `sprintf` leaves and returns. -/
structure SprintfResult where
  buf : Mem
  reads : List ℕ
  ret : ℤ

/-- The format that stands for a null pointer. -/
def fmtNull : Mem := Mem.ofList ("(fmt null)\n".toList.map char)

def sprintf (dst : ℕ) (buf : Mem) (fmt : Option Mem) (args : List Arg) (turns : ℕ) : Option SprintfResult :=
  (Sprintf.loop dst (fmt.getD fmtNull) turns ⟨0, args, 0, buf, []⟩).map fun s =>
    ⟨Function.update s.buf (dst + s.count.toNat) 0, s.reads, s.count.toInt32.toInt⟩

end RCar.Cr7Printf
