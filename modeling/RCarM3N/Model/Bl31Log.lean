import RCarM3N.Lib.Bytes

/-! The log area of BL31, `rcar_printf.c`: a header with a magic text, an index and a size, and a ring
of characters behind it. The area keeps what it held over a warm boot. -/

namespace RCar.Bl31Log

def RCAR_BL31_LOG_BASE : ℕ := 0x44040000
def RCAR_BL31_LOG_SIZE : ℕ := 0x14000
def RCAR_LOG_HEADER_SIZE : ℕ := 16
def RCAR_LOG_RES_SIZE : ℕ := 512 / 8
def RCAR_BL31_LOG_MAX : ℕ := RCAR_BL31_LOG_SIZE - (RCAR_LOG_HEADER_SIZE + RCAR_LOG_RES_SIZE)

def indexAt : ℕ := RCAR_BL31_LOG_BASE + 4
def sizeAt : ℕ := RCAR_BL31_LOG_BASE + 8
def logData : ℕ := RCAR_BL31_LOG_BASE + RCAR_LOG_HEADER_SIZE

/-- `"TLOG"` -/
def constHeader : List UInt8 := [0x54, 0x4C, 0x4F, 0x47]

/-- A broken index starts the log anew. -/
def repairIndex (m : Mem) : Mem :=
  if RCAR_BL31_LOG_MAX ≤ (m.le32 indexAt).toNat then (m.setLe32 indexAt 0).setLe32 sizeAt 0 else m

/-- The character is stored, then the index and the size go on. -/
def storeCharacter (m : Mem) (c : UInt32) : Mem :=
  let stored : Mem := Function.update m (logData + (m.le32 indexAt).toNat) c.toUInt8
  let next := stored.le32 indexAt + 1
  let stepped := stored.setLe32 indexAt next
  if stepped.le32 sizeAt < next then stepped.setLe32 sizeAt next else stepped

def wrapIndex (m : Mem) : Mem :=
  if RCAR_BL31_LOG_MAX ≤ (m.le32 indexAt).toNat then m.setLe32 indexAt 0 else m

/-- The argument is an `int32_t` of which the low byte is kept. -/
def rcarSetLogData (m : Mem) (c : UInt32) : Mem := wrapIndex (storeCharacter (repairIndex m) c)

/-- The two tests for which the area is initialised. -/
def InitFlag (m : Mem) : Prop :=
  m.read RCAR_BL31_LOG_BASE 4 ≠ constHeader ∨ RCAR_BL31_LOG_MAX ≤ (m.le32 indexAt).toNat

instance (m : Mem) : Decidable (InitFlag m) := inferInstanceAs (Decidable (_ ∨ _))

def rcarLogInit (m : Mem) : Mem :=
  if InitFlag m then
    let cleared := m.copy logData (fun _ => 0) 0 RCAR_BL31_LOG_MAX
    let headed := cleared.copy RCAR_BL31_LOG_BASE (Mem.ofList constHeader) 0 4
    (headed.setLe32 indexAt 0).setLe32 sizeAt 0
  else m

end RCar.Bl31Log
