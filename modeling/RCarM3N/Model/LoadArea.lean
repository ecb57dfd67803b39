import Mathlib

/-! The check that BL2 makes before it loads an image to an address from a certificate, on
64-bit words that wrap around. -/

namespace RCar

namespace Bl2

def IO_SUCCESS : ℤ := 0
def IO_FAIL : ℤ := -0x81
def IO_NOT_SUPPORTED : ℤ := -0x82
def IO_RESOURCES_EXHAUSTED : ℤ := -0x83

def UINT32_MAX : UInt64 := 0xFFFFFFFF
def DRAM1_BASE : UInt64 := 0x40000000
def DRAM1_SIZE : UInt64 := 0x80000000
def DRAM_40BIT_BASE : UInt64 := 0x0400000000
def DRAM_40BIT_SIZE : UInt64 := 0x0400000000
def DRAM_PROTECTED_BASE : UInt64 := 0x43F00000
def DRAM_40BIT_PROTECTED_BASE : UInt64 := 0x0403F00000
def DRAM_PROTECTED_SIZE : UInt64 := 0x03F00000

def checkLoadArea (dst len : UInt64) : ℤ :=
  let legacy := dst + len ≤ UINT32_MAX - 1
  let dramStart := if legacy then DRAM1_BASE else DRAM_40BIT_BASE
  let dramEnd := if legacy then DRAM1_BASE + DRAM1_SIZE else DRAM_40BIT_BASE + DRAM_40BIT_SIZE
  let protStart := if legacy then DRAM_PROTECTED_BASE else DRAM_40BIT_PROTECTED_BASE
  let protEnd := protStart + DRAM_PROTECTED_SIZE
  if dst < dramStart ∨ dst > dramEnd - len then
    IO_FAIL
  else
    let result := if dst ≥ protStart ∧ dst < protEnd then IO_FAIL else IO_SUCCESS
    if dst < protStart ∧ dst > protStart - len then IO_FAIL else result

end Bl2

end RCar
