import RCarM3N.Lib.Arm

/-! `mem.s` and `tcm_cpy.s` of the loader of the Cortex-R7, line by line. -/

namespace RCar.Cr7Mem

open Arm

/-- The lines that `memcpy` and `tcmcpy` share, up to their return: the destination in `r0`, the source in `r1` and the
number of bytes in `r2`. -/
def copyLines (last : List Line) : List Line := [
  .op .al (.mov .ip (.reg .r0)),
  .op .al (.cmp .r2 (.imm 4)),
  .b .cc 2,
  .op .al (.and .r3 .r0 (.imm 0x03)),
  .op .al (.cmp .r3 (.imm 0)),
  .b .ne 2,
  .op .al (.and .r3 .r1 (.imm 0x03)),
  .op .al (.cmp .r3 (.imm 0)),
  .b .ne 2,
  .label 1,
  .op .al (.ldr .r3 .r1 4),
  .op .al (.str .r3 .r0 4),
  .op .al (.subs .r2 .r2 (.imm 4)),
  .b .eq 3,
  .op .al (.cmp .r2 (.imm 4)),
  .b .cs 1,
  .label 2,
  .op .al (.ldrb .r3 .r1 1),
  .op .al (.strb .r3 .r0 1),
  .op .al (.subs .r2 .r2 (.imm 1)),
  .b .ne 2,
  .label 3,
  .op .al (.mov .r0 (.reg .ip))] ++ last

def memcpy : List Line := copyLines [.bxlr]

def tcmcpy : List Line := copyLines [.op .al .dsb, .bxlr]

/-- The destination in `r0`, the value in `r1` and the number of bytes in `r2`. -/
def memset : List Line := [
  .op .al (.mov .ip (.reg .r0)),
  .op .al (.cmp .r2 (.imm 0)),
  .b .eq 2,
  .label 1,
  .op .al (.strb .r1 .r0 1),
  .op .al (.subs .r2 .r2 (.imm 1)),
  .b .ne 1,
  .label 2,
  .op .al (.mov .r0 (.reg .ip)),
  .bxlr]

end RCar.Cr7Mem
