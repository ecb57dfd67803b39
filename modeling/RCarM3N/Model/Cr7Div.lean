import RCarM3N.Lib.Arm

/-! `div.s` of the loader of the Cortex-R7, line by line. -/

namespace RCar.Cr7

open Arm

/-- `__aeabi_uidivmod`: the numerator in `r0` and the divisor in `r1`, the quotient and the remainder
in the same registers at the end. -/
def aeabiUidivmod : List Line := [
  .op .al (.push [.r4, .r5]),
  .op .al (.mov .r4 (.imm 0)),
  .op .al (.mov .r5 (.imm 1)),
  .op .al (.clz .r2 .r1),
  .op .al (.mov .r3 (.shiftBy .r1 .lsl .r2)),
  .label 1,
  .op .al (.cmp .r3 (.reg .r0)),
  .op .ls (.sub .r0 .r0 (.reg .r3)),
  .op .ls (.add .r4 .r4 (.shiftBy .r5 .lsl .r2)),
  .op .al (.mov .r3 (.shift .r3 .lsr 1)),
  .op .al (.subs .r2 .r2 (.imm 1)),
  .b .pl 1,
  .op .al (.mov .r1 (.reg .r0)),
  .op .al (.mov .r0 (.reg .r4)),
  .op .al (.pop [.r4, .r5]),
  .bxlr]

/-- `__aeabi_idivmod`, the same for signed numbers. -/
def aeabiIdivmod : List Line := [
  .op .al (.subs .r2 .r0 (.imm 0)),
  .op .al (.push [.r4, .r5, .r6, .lr]),
  .op .lt (.mov .r4 (.imm 1)),
  .op .lt (.rsb .r2 .r2 (.imm 0)),
  .op .ge (.mov .r4 (.imm 0)),
  .op .al (.cmp .r1 (.imm 0)),
  .op .lt (.mov .lr (.imm 1)),
  .op .lt (.rsb .r1 .r1 (.imm 0)),
  .op .ge (.mov .lr (.imm 0)),
  .op .al (.mov .r3 (.imm 0)),
  .label 4,
  .op .al (.cmp .r2 (.shiftBy .r1 .lsl .r3)),
  .op .lt (.sub .r3 .r3 (.imm 1)),
  .op .lt (.mov .r1 (.shiftBy .r1 .lsl .r3)),
  .b .lt 3,
  .op .al (.add .r3 .r3 (.imm 1)),
  .op .al (.cmp .r3 (.imm 32)),
  .b .ne 4,
  .op .al (.mov .r3 (.imm 0)),
  .label 3,
  .op .al (.mov .r0 (.imm 0)),
  .op .al (.mov .r5 (.imm 1)),
  .op .al (.mov .ip (.reg .r0)),
  .label 2,
  .op .al (.cmp .ip (.reg .r3)),
  .b .gt 1,
  .op .al (.cmp .r2 (.imm 0)),
  .b .eq 1,
  .op .al (.cmp .r2 (.reg .r1)),
  .op .ge (.sub .r6 .r3 (.reg .ip)),
  .op .ge (.sub .r2 .r2 (.reg .r1)),
  .op .ge (.orr .r0 .r0 (.shiftBy .r5 .lsl .r6)),
  .op .al (.mov .r1 (.shift .r1 .asr 1)),
  .op .al (.add .ip .ip (.imm 1)),
  .b .al 2,
  .label 1,
  .op .al (.cmp .r4 (.reg .lr)),
  .op .ne (.rsb .r0 .r0 (.imm 0)),
  .op .al (.mov .r1 (.reg .r0)),
  .op .al (.tst .r4 (.reg .lr)),
  .op .ne (.rsb .r2 .r2 (.imm 0)),
  .op .al (.pop [.r4, .r5, .r6, .lr]),
  .bxlr]

end RCar.Cr7
