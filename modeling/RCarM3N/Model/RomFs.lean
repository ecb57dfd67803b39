import RCarM3N.Model.Texture

/-! Reading from the files of `romfs_main.c`, over the handles and the memory of the cluster demo. The images are constant
data: a copy reads the memory as the call finds it. -/

namespace RCar.RomFs

open Texture

def eeRomFsFRead (buffer size count : UInt32) (fp : Option (Fin LOC_ROMFS_MAXOPEN)) : Prog Video UInt32 :=
  match fp with
  | none => return 0
  | some i =>
    if buffer = 0 then return 0
    else do
      let f := (← Prog.get).locHandle i
      let n := if f.pos + size * count ≥ f.size then f.size - f.pos else size * count
      Prog.modify fun s => { s with
        mem := store s.mem (copied s.mem buffer (f.address + f.pos) n.toNat)
        locHandle := Function.update s.locHandle i { f with pos := f.pos + n } }
      -- a division by zero
      if size = 0 then Prog.stuck else return n / size

/-- `eeRomFs_FClose` of a pointer that may be null. -/
def fclose (fp : Option (Fin LOC_ROMFS_MAXOPEN)) : Prog Video ℤ :=
  match fp with
  | none => return -1
  | some i => do
    eeRomFsFClose i
    return 0

inductive FileCall where
  | fopen (name : List UInt8)
  | fread (buffer size count : UInt32) (fp : Option (Fin LOC_ROMFS_MAXOPEN))
  | fclose (fp : Option (Fin LOC_ROMFS_MAXOPEN))

/-- The handle that a call is for. -/
def FileCall.fp : FileCall → Option (Fin LOC_ROMFS_MAXOPEN)
  | .fopen _ => none
  | .fread _ _ _ fp => fp
  | .fclose fp => fp

/-- What a call that returns leaves behind. -/
def fileCall (s : Video) : FileCall → Option Video
  | .fopen name =>
    match (eeRomFsFOpen name).run s with
    | (some _, t) => some t
    | (none, _) => none
  | .fread buffer size count fp =>
    match (eeRomFsFRead buffer size count fp).run s with
    | (some _, t) => some t
    | (none, _) => none
  | .fclose fp =>
    match (fclose fp).run s with
    | (some _, t) => some t
    | (none, _) => none

end RCar.RomFs
