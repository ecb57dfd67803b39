import RCarM3N.Lib.Bits

/-! `dram_dual_ecc.c` of the loader of the Cortex-R7: the tables that say which areas of the DRAM
have ECC and which of them are filled with 0, the registers of the AXI bus that are set from the
tables, and the fills that are started. An area is one eighth of each half of the DRAM, and one area
can be split into eight extra areas. -/

namespace RCar.DualEcc

def OFF_BIT : BitVec 32 := 0
def ON_BIT : BitVec 32 := 1
abbrev AREA_NUM : ℕ := 8

/-- A configuration table of `AREA_NUM` flags, area 7 first. -/
structure Flags where
  entry : Fin AREA_NUM → BitVec 32
  flag : ∀ i, entry i = OFF_BIT ∨ entry i = ON_BIT

/-- `REVERSE_SET`. -/
def reverseSet (i : Fin AREA_NUM) : Fin AREA_NUM := i.rev

/-- The entry of an area. -/
def Flags.area (t : Flags) (i : Fin AREA_NUM) : BitVec 32 := t.entry (reverseSet i)

/-- The table with the flags of the areas that `b` picks. -/
def Flags.of (b : Fin AREA_NUM → Bool) : Flags where
  entry i := if b (reverseSet i) then ON_BIT else OFF_BIT
  flag i := by
    split_ifs
    · exact .inr rfl
    · exact .inl rfl

/-- The tables at the top of the file. -/
structure Tables where
  areaEccEnableBit : Flags
  areaFillEnableBit : Flags
  extraSplitEnableBit : Flags
  extraAreaEccEnableBit : Flags
  extraAreaFillEnableBit : Flags
  extraArea : Fin AREA_NUM → BitVec 32

/-- The contents that the file has. -/
def tables : Tables where
  areaEccEnableBit := .of fun _ => false
  areaFillEnableBit := .of fun _ => true
  extraSplitEnableBit := .of (· = 0)
  extraAreaEccEnableBit := .of (· = 0)
  extraAreaFillEnableBit := .of fun _ => true
  extraArea _ := ON_BIT

/-- `RCAR_DRAM_SPLIT`. -/
inductive DramSplit where
  | linear
  | ch4
  | ch2
  | auto
deriving DecidableEq

/-- What the build chooses. -/
structure Config where
  split : DramSplit
  /-- `RCAR_DRAM_LPDDR4_MEMCONF == SDRAM_4GB`. -/
  sdram4GB : Bool

/-! ## Product -/

def RCAR_PRODUCT_MASK : BitVec 32 := 0x00007F00
def RCAR_CUT_MASK : BitVec 32 := 0x000000FF
def RCAR_PRODUCT_H3 : BitVec 32 := 0x00004F00
def RCAR_PRODUCT_M3 : BitVec 32 := 0x00005200
def RCAR_CUT_VER30 : BitVec 32 := 0x00000020
def RCAR_PRODUCT_H3_CUT20 : BitVec 32 := RCAR_PRODUCT_H3 ||| 0x10

/-- The exponents `area_size` and `extra_area_size`. -/
structure Sizes where
  areaSize : ℕ
  extraAreaSize : ℕ

def AREA_1GB : Sizes := ⟨0x1B, 0x18⟩
def AREA_2GB : Sizes := ⟨0x1C, 0x19⟩
def AREA_4GB : Sizes := ⟨0x1D, 0x1A⟩

/-- The switch on the product, without a value where it panics. -/
def sizes (cfg : Config) (prr : BitVec 32) : Option Sizes :=
  if prr &&& RCAR_PRODUCT_MASK = RCAR_PRODUCT_H3 then
    if RCAR_CUT_VER30 > prr &&& RCAR_CUT_MASK then some AREA_1GB
    else if cfg.sdram4GB then some AREA_1GB
    else some AREA_2GB
  else if prr &&& RCAR_PRODUCT_MASK = RCAR_PRODUCT_M3 then
    if RCAR_CUT_VER30 > prr &&& RCAR_CUT_MASK then some AREA_2GB
    else some AREA_4GB
  else none

def isH3 (prr : BitVec 32) : Bool := prr &&& RCAR_PRODUCT_MASK = RCAR_PRODUCT_H3

/-! ## Registers -/

/-- The registers that are written. -/
structure Regs where
  mfierrctlr4 : BitVec 32
  mfierrtgtr4 : BitVec 32
  edcen0 : BitVec 32
  edcinten1 : BitVec 32
  adsplcr0 : BitVec 32
  adsplcr1 : BitVec 32
  adsplcr3 : BitVec 32
  fusacr : BitVec 32
deriving DecidableEq

def Regs.initial : Regs := ⟨0, 0, 0, 0, 0, 0, 0, 0⟩

def MFI_BITSET : BitVec 32 := 1#32 <<< 24
def EDCEN_MEM : BitVec 32 := 1#32 <<< 15
def EDCINTEN1_DRAM : BitVec 32 := 0xE0000000

/-- The error detection. -/
def errorDetection (r : Regs) : Regs :=
  { r with
    mfierrctlr4 := r.mfierrctlr4 ||| MFI_BITSET
    mfierrtgtr4 := r.mfierrtgtr4 ||| MFI_BITSET
    edcen0 := r.edcen0 ||| EDCEN_MEM
    edcinten1 := r.edcinten1 ||| EDCINTEN1_DRAM }

def EFUSASEL (x : BitVec 32) : BitVec 32 := (x &&& 0xFF) <<< 24
def DFUSASEL (x : BitVec 32) : BitVec 32 := (x &&& 0xFF) <<< 16

def ADRMODE_DEFAULT : BitVec 32 := 0#32 <<< 31
def SPLITSEL (x : BitVec 32) : BitVec 32 := x <<< 16
def AREA (x : ℕ) : BitVec 32 := BitVec.ofNat 32 x <<< 8
def SWP : BitVec 32 := 0x0C

def EXTRA_AREA_CH_MASK : BitVec 32 := 0xFF

/-- The loop that or-s the entries of a table together, each at the bit of its area. -/
def registerParam (entry : Fin AREA_NUM → BitVec 32) : BitVec 32 :=
  Bits.pack entry fun i => (reverseSet i).val

def areaEccEnable (t : Tables) : BitVec 32 := registerParam t.areaEccEnableBit.entry
def extraAreaEccEnable (t : Tables) : BitVec 32 := registerParam t.extraAreaEccEnableBit.entry

/-- `extra_split_enable` after the check: the extra split enable area must be one. -/
def extraSplitEnable (t : Tables) : BitVec 32 :=
  Bits.keepLowest AREA_NUM (registerParam t.extraSplitEnableBit.entry)

/-- What is or-ed to a split register. -/
def adsplcr (sel : BitVec 32) (area : ℕ) : BitVec 32 :=
  ADRMODE_DEFAULT ||| SPLITSEL sel ||| AREA area ||| SWP

/-- The extra areas with a channel split; there is none on H3 Ver.2.0. -/
def extraAreaCh (prr : BitVec 32) (ch : BitVec 32) : BitVec 32 :=
  if RCAR_PRODUCT_H3_CUT20 = prr &&& (RCAR_PRODUCT_MASK ||| RCAR_CUT_MASK) then OFF_BIT else ch

def dualEccSetting4ch (t : Tables) (prr : BitVec 32) (s : Sizes) (r : Regs) : Regs :=
  { r with
    adsplcr1 := r.adsplcr1 ||| adsplcr (extraSplitEnable t) s.areaSize
    adsplcr3 := r.adsplcr3 ||| adsplcr (extraAreaCh prr (registerParam t.extraArea)) s.extraAreaSize }

/-- An extra area with ECC has no channel split here. -/
def dualEccSetting2ch (t : Tables) (prr : BitVec 32) (s : Sizes) (r : Regs) : Regs :=
  { r with
    adsplcr0 := r.adsplcr0 ||| adsplcr (extraSplitEnable t) s.areaSize
    adsplcr1 := (r.adsplcr1 ^^^ SPLITSEL (areaEccEnable t)) &&& r.adsplcr1
    adsplcr3 := r.adsplcr3 ||| adsplcr (extraAreaCh prr
      (registerParam t.extraArea &&& ~~~extraAreaEccEnable t &&& EXTRA_AREA_CH_MASK)) s.extraAreaSize }

def dualEccSettingLinear (t : Tables) (s : Sizes) (r : Regs) : Regs :=
  { r with
    adsplcr0 := r.adsplcr0 ||| adsplcr (extraSplitEnable t) s.areaSize
    adsplcr1 := r.adsplcr1 ||| adsplcr (extraSplitEnable t) s.areaSize
    adsplcr3 := r.adsplcr3 ||| (ADRMODE_DEFAULT ||| AREA s.extraAreaSize ||| SWP) }

/-- The setting that the build takes, and for which product. -/
def setting (cfg : Config) (t : Tables) (prr : BitVec 32) (s : Sizes) (r : Regs) : Regs :=
  match cfg.split with
  | .auto => if isH3 prr then dualEccSetting4ch t prr s r else dualEccSetting2ch t prr s r
  | .ch4 => dualEccSetting4ch t prr s r
  | .ch2 => dualEccSetting2ch t prr s r
  | .linear => dualEccSettingLinear t s r

/-! ## Fills -/

def ECC_BASE1 : ℕ := 0x0400000000
def ECC_BASE2 : ℕ := 0x0500000000

/-- A call of `exec_fillDMA`. -/
structure Fill where
  dst : ℕ
  len : ℕ
deriving DecidableEq

/-- The range in the first half of the DRAM, and on H3 in the second one too. -/
def fillHalves (h3 : Bool) (off len : ℕ) : List Fill :=
  ⟨ECC_BASE1 + off, len⟩ :: if h3 then [⟨ECC_BASE2 + off, len⟩] else []

/-- One round of the inner loop: the extra area `j` of the area `i`. -/
def fillExtraArea (t : Tables) (s : Sizes) (h3 : Bool) (i j : Fin AREA_NUM) : List Fill :=
  if t.extraAreaEccEnableBit.area j = ON_BIT then
    if t.extraAreaFillEnableBit.area j = ON_BIT then
      fillHalves h3 (2 ^ s.areaSize * i.val + 2 ^ s.extraAreaSize * j.val) (2 ^ s.extraAreaSize)
    else []
  else []

/-- The first part of a round of the outer loop: an area that is not split. -/
def fillNormalArea (t : Tables) (s : Sizes) (h3 : Bool) (i : Fin AREA_NUM) : List Fill :=
  if t.areaEccEnableBit.area i = ON_BIT ∧ t.extraSplitEnableBit.area i = OFF_BIT then
    if t.areaFillEnableBit.area i = ON_BIT then
      fillHalves h3 (2 ^ s.areaSize * i.val) (2 ^ s.areaSize)
    else []
  else []

/-- The second part: the inner loop, for a split area. -/
def fillExtraAreas (t : Tables) (s : Sizes) (h3 : Bool) (i : Fin AREA_NUM) : List Fill :=
  if t.extraSplitEnableBit.area i = ON_BIT then
    (List.finRange AREA_NUM).flatMap (fillExtraArea t s h3 i)
  else []

/-- One round of the outer loop, without its log. -/
def fillArea (t : Tables) (s : Sizes) (h3 : Bool) (i : Fin AREA_NUM) : List Fill :=
  fillNormalArea t s h3 i ++ fillExtraAreas t s h3 i

/-- `dram_dual_ecc_init`: the registers and the fills, in their order, or none where it panics. -/
def dramDualEccInit (cfg : Config) (t : Tables) (prr : BitVec 32) (r : Regs) :
    Option (Regs × List Fill) :=
  match sizes cfg prr with
  | none => none
  | some s =>
    let r := setting cfg t prr s (errorDetection r)
    if areaEccEnable t &&& extraAreaEccEnable t ≠ OFF_BIT then none
    else
      let r := { r with
        fusacr := r.fusacr ||| EFUSASEL (extraAreaEccEnable t) ||| DFUSASEL (areaEccEnable t) }
      some (r, (List.finRange AREA_NUM).flatMap (fillArea t s (isH3 prr)))

end RCar.DualEcc
