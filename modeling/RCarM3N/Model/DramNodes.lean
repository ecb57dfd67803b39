import RCarM3N.Model.FbCommand

/-! The memory nodes that BL2 puts into the device tree for U-Boot: the table of the DRAM channels, the
name of a node in its buffer, and the operations of `libfdt` that add a node and its properties to a
tree in a buffer of one page. -/

namespace RCar.Bl2

open Fastboot (CStr ascii cstrOf)

/-! ## Tree -/

structure FdtNode where
  name : CStr
  props : List (CStr × List UInt8)

/-- A tree whose root has subnodes without subnodes: the names of the properties stand in a block of their
own, and `dataSize` is what all blocks take of the buffer. -/
structure Fdt where
  root : List (CStr × List UInt8)
  nodes : List FdtNode
  strings : List CStr
  dataSize : ℕ
  totalSize : ℕ

def FDT_TAGSIZE : ℕ := 4

def fdtTagalign (n : ℕ) : ℕ := (n + 3) / 4 * 4

/-- The node that an operation works on: the root, or its first subnode. -/
inductive FdtRef where
  | root
  | first

namespace Fdt

/-- `fdt_create_empty_tree`: header, one reservation entry and the tags of an empty root. -/
def empty (bufsize : ℕ) : Fdt := ⟨[], [], [], 72, bufsize⟩

/-- `fdt_splice_`, as far as it concerns the space. -/
def splice (fdt : Fdt) (oldlen newlen : ℕ) : Option Fdt :=
  if fdt.dataSize - oldlen + newlen > fdt.totalSize then none
  else some { fdt with dataSize := fdt.dataSize - oldlen + newlen }

/-- `fdt_nodename_eq_` -/
def nodenameEq (s name : CStr) : Bool := name = s || (!s.contains 64 && (s ++ [64]).isPrefixOf name)

/-- `fdt_add_subnode` below the root: the new node is the first one. -/
def addSubnode (fdt : Fdt) (name : CStr) : Option Fdt := do
  if fdt.nodes.any fun n => nodenameEq name n.name then none
  let fdt ← fdt.splice 0 (4 + fdtTagalign (name.length + 1) + FDT_TAGSIZE)
  return { fdt with nodes := ⟨name, []⟩ :: fdt.nodes }

/-- `fdt_find_add_string_`: a string that stands at the end of another one is found in it. -/
def findAddString (fdt : Fdt) (s : CStr) : Option Fdt := do
  if fdt.strings.any fun t => s.isSuffixOf t then return fdt
  let fdt ← fdt.splice 0 (s.length + 1)
  return { fdt with strings := fdt.strings ++ [s] }

def props (fdt : Fdt) : FdtRef → List (CStr × List UInt8)
  | .root => fdt.root
  | .first => (fdt.nodes.head?.map FdtNode.props).getD []

def setProps (fdt : Fdt) (props : List (CStr × List UInt8)) : FdtRef → Fdt
  | .root => { fdt with root := props }
  | .first => { fdt with nodes := fdt.nodes.modifyHead fun n => { n with props := props } }

/-- The property with a new value, or a new property before the others. -/
def writeProp (fdt : Fdt) (ref : FdtRef) (name : CStr) (val : List UInt8) : Option Fdt := do
  match (fdt.props ref).lookup name with
  | some old =>
    let fdt ← fdt.splice (fdtTagalign old.length) (fdtTagalign val.length)
    return fdt.setProps ((fdt.props ref).map fun p => if p.1 = name then (name, val) else p) ref
  | none =>
    let fdt ← fdt.findAddString name
    let fdt ← fdt.splice 0 (12 + fdtTagalign val.length)
    return fdt.setProps ((name, val) :: fdt.props ref) ref

/-- `fdt_setprop` -/
def setprop (fdt : Fdt) (ref : FdtRef) (name : CStr) (val : List UInt8) : Option Fdt := fdt.writeProp ref name val

/-- `fdt_appendprop` -/
def appendprop (fdt : Fdt) (ref : FdtRef) (name : CStr) (val : List UInt8) : Option Fdt :=
  fdt.writeProp ref name (((fdt.props ref).lookup name).getD [] ++ val)

def setpropString (fdt : Fdt) (ref : FdtRef) (name str : CStr) : Option Fdt := fdt.setprop ref name (str ++ [0])

def appendpropString (fdt : Fdt) (ref : FdtRef) (name str : CStr) : Option Fdt := fdt.appendprop ref name (str ++ [0])

end Fdt

/-- `cpu_to_fdt64`, as the bytes in the storage. -/
def cpuToFdt64 (x : UInt64) : List UInt8 := (List.range 8).map fun i => (x >>> (8 * UInt64.ofNat (7 - i))).toUInt8

def cpuToFdt32 (x : UInt32) : List UInt8 := (List.range 4).map fun i => (x >>> (8 * UInt32.ofNat (3 - i))).toUInt8

/-! ## Table -/

inductive Product where
  | H3
  | M3
  | M3N
  | V3M
  | E3
  | D3
  | other
deriving DecidableEq

/-- The build's choices and the registers that the table depends on. -/
structure DramBuild where
  lpddr4Memconf : ℕ
  dramChannel : ℕ
  dramSplit : ℕ
  ddr3lMemconf : ℕ
  cnfBoardtype : ℕ
  productPrrCut : UInt32

def PRR_PRODUCT_30 : UInt32 := 0x20

/-- `dram_config`: the start of each channel and its size. -/
structure DramConfig where
  start : Fin 4 → UInt64
  size : Fin 4 → UInt64

def dramStart : Fin 4 → UInt64 := ![0x400000000, 0x500000000, 0x600000000, 0x700000000]

/-- The sizes that `bl2_advertise_dram_size` puts into the table. -/
def dramSizes (build : DramBuild) : Product → Fin 4 → UInt64
  | .H3 =>
    if build.lpddr4Memconf = 0 then ![0x40000000, 0x40000000, 0x40000000, 0x40000000]
    else if build.lpddr4Memconf = 1 ∧ build.dramChannel = 5 ∧ build.dramSplit = 2 then ![0x80000000, 0x80000000, 0, 0]
    else if build.lpddr4Memconf = 1 ∧ build.dramChannel = 15 then ![0x80000000, 0x80000000, 0x80000000, 0x80000000]
    else if build.lpddr4Memconf = 3 then
      if build.cnfBoardtype = 7 then ![0x40000000, 0x40000000, 0x40000000, 0x40000000]
      else if build.cnfBoardtype = 8 then ![0x80000000, 0x80000000, 0x80000000, 0x80000000]
      else ![0, 0, 0, 0]
    else ![0, 0, 0, 0]
  | .M3 =>
    if build.productPrrCut = PRR_PRODUCT_30 then ![0x100000000, 0, 0x100000000, 0]
    else ![0x80000000, 0, 0x80000000, 0]
  | .M3N =>
    if build.lpddr4Memconf = 2 then ![0x100000000, 0, 0, 0]
    else if build.lpddr4Memconf = 1 then ![0x80000000, 0, 0, 0]
    else ![0, 0, 0, 0]
  | .V3M => ![0x40000000, 0, 0, 0]
  | .E3 =>
    if build.ddr3lMemconf = 0 then ![0x40000000, 0, 0, 0]
    else if build.ddr3lMemconf = 1 then ![0x80000000, 0, 0, 0]
    else if build.ddr3lMemconf = 2 then ![0x100000000, 0, 0, 0]
    else ![0, 0, 0, 0]
  | .D3 => ![0x20000000, 0, 0, 0]
  | .other => ![0, 0, 0, 0]

/-! ## Nodes -/

/-- The digits of a number, the last one first. -/
def numBuf (radix : ℕ) : ℕ → ℕ → List UInt8
  | 0, _ => []
  | fuel + 1, unum =>
    let rem := UInt8.ofNat (unum % radix)
    let digit := if rem < 10 then 48 + rem else 97 + (rem - 10)
    if unum / radix = 0 then [digit] else digit :: numBuf radix fuel (unum / radix)

/-- `unsigned_num_print`: the digits, without a terminator. -/
def unsignedNumPrint (unum : UInt64) (radix : ℕ) : List UInt8 := (numBuf radix 20 unum.toNat).reverse

/-- The bytes at a place of a buffer. -/
def overwrite (buf : List UInt8) (off : ℕ) (bytes : List UInt8) : List UInt8 :=
  buf.take off ++ bytes ++ buf.drop (off + bytes.length)

/-- The name of a node, in the buffer that held the one before. -/
def printNodename (nodename : List UInt8) (start : UInt64) : List UInt8 :=
  let nodename := overwrite nodename 0 (ascii "memory@" ++ [0])
  overwrite nodename (cstrOf nodename).length (unsignedNumPrint start 16)

/-- One populated channel. -/
def addMemoryNode (fdt : Fdt) (name : CStr) (start size : UInt64) : Option Fdt := do
  let fdt ← fdt.addSubnode name
  let fdt ← fdt.setpropString .first (ascii "device_type") (ascii "memory")
  let fdt ← fdt.setprop .first (ascii "reg") (cpuToFdt64 start)
  fdt.appendprop .first (ascii "reg") (cpuToFdt64 size)

def advertiseChannel (config : DramConfig) (s : Fdt × List UInt8) (chan : Fin 4) : Option (Fdt × List UInt8) := do
  if config.size chan = 0 then return s
  let start := if chan = 0 then 0x48000000 else config.start chan
  let size := if chan = 0 then config.size chan - 0x8000000 else config.size chan
  let nodename := printNodename s.2 start
  let fdt ← addMemoryNode s.1 (cstrOf nodename) start size
  return (fdt, nodename)

/-- `bl2_advertise_dram_entries`: the channels are taken in reverse order. -/
def bl2AdvertiseDramEntries (fdt : Fdt) (config : DramConfig) : Option Fdt :=
  (([3, 2, 1, 0] : List (Fin 4)).foldlM (advertiseChannel config) (fdt, List.replicate 32 0)).map Prod.fst

def bl2AdvertiseDramSize (fdt : Fdt) (build : DramBuild) (product : Product) : Option Fdt :=
  bl2AdvertiseDramEntries fdt ⟨dramStart, dramSizes build product⟩

/-! ## Tree before -/

inductive Board where
  | salvatorX
  | salvatorXs
  | starterKit
  | starterKitPre
  | eagle
  | ebisu
  | ebisu4d
  | draak

def Board.compatible : Board → CStr
  | .salvatorX => ascii "renesas,salvator-x"
  | .salvatorXs => ascii "renesas,salvator-xs"
  | .starterKit => ascii "renesas,m3ulcb"
  | .starterKitPre => ascii "renesas,h3ulcb"
  | .eagle => ascii "renesas,eagle"
  | .ebisu => ascii "renesas,ebisu"
  | .ebisu4d => ascii "renesas,ebisu"
  | .draak => ascii "renesas,draak"

def Product.compatible : Product → Option CStr
  | .H3 => some (ascii "renesas,r8a7795")
  | .M3 => some (ascii "renesas,r8a7796")
  | .M3N => some (ascii "renesas,r8a77965")
  | .V3M => some (ascii "renesas,r8a77970")
  | .E3 => some (ascii "renesas,r8a77990")
  | .D3 => some (ascii "renesas,r8a77995")
  | .other => none

/-- `bl2_populate_compatible_string`, on the empty tree; the results of the first two calls are not looked at. -/
def bl2PopulateCompatibleString (board : Board) (product : Product) (fdt : Fdt) : Option Fdt := do
  let fdt := (fdt.setprop .root (ascii "#address-cells") (cpuToFdt32 2)).getD fdt
  let fdt := (fdt.setprop .root (ascii "#size-cells") (cpuToFdt32 2)).getD fdt
  let fdt ← fdt.setpropString .root (ascii "compatible") board.compatible
  let compatible ← product.compatible
  fdt.appendpropString .root (ascii "compatible") compatible

def PAGE_SIZE_4KB : ℕ := 4096

/-- The part of `bl2_el3_early_platform_setup` that makes the tree; it panics on an unknown product. -/
def setUpFdt (board : Board) (build : DramBuild) (product : Product) : Option Fdt := do
  let fdt ← bl2PopulateCompatibleString board product (Fdt.empty PAGE_SIZE_4KB)
  bl2AdvertiseDramSize fdt build product

end RCar.Bl2
