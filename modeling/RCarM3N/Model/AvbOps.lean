import Mathlib
import RCarM3N.Lib.Prog
import RCarM3N.Model.VbMeta
import RCarM3N.Model.UBootAb

/-! What the verification of a slot works with: the operations of `avb_ops.h` and the allocator, whose answers may differ
from call to call, and the data of the slot, `avb_slot_verify.h`. -/

namespace RCar.SlotVerify

open UBoot (IoResult VerifyResult)
open AvbRsa VbMeta

/-- The bytes of a literal, without its NUL. -/
def text (s : String) : List UInt8 := s.toList.map fun c => c.toUInt8

/-- What a buffer is as a C string. -/
def cString (l : List UInt8) : List UInt8 := l.takeWhile (· ≠ 0)

/-- The address of a buffer, and the memory as it was when the buffer was filled. -/
structure Buffer where
  mem : Mem
  addr : ℕ

/-- The operations that are only there with OP-TEE. What is read is in the buffer at 0 of the memory. -/
structure PersistentOps where
  readPersistentValue : ℕ → List UInt8 → ℕ → IoResult × ℕ × Mem
  writePersistentValue : ℕ → List UInt8 → List UInt8 → IoResult

/-- `AvbOps` and the allocator: what they answer to their n-th call. A read into the buffer at `buffer` answers the number
of bytes read and the memory that it leaves. -/
structure AvbOps where
  malloc : ℕ → ℕ → Option ℕ
  rsaMallocs : ℕ → Mallocs
  readFromPartition : ℕ → List UInt8 → Int64 → UInt64 → ℕ → IoResult × UInt64 × Mem
  getSizeOfPartition : ℕ → List UInt8 → IoResult × UInt64
  validateVbmetaPublicKey : ℕ → List UInt8 → Option (List UInt8) → IoResult × Bool
  readRollbackIndex : ℕ → UInt32 → IoResult × UInt64
  readIsDeviceUnlocked : ℕ → IoResult × Bool
  getUniqueGuidForPartition : ℕ → List UInt8 → IoResult × List UInt8
  persistent : Option PersistentOps

/-! ## The slot's data -/

/-- `AvbHashtreeErrorMode`. -/
inductive AvbHashtreeErrorMode
  | restartAndInvalidate
  | restart
  | eio
  | logging
  | managedRestartAndEio
deriving DecidableEq

structure AvbVBMetaData where
  vbmetaData : Buffer
  vbmetaSize : UInt64
  verifyResult : AvbVBMetaVerifyResult

/-- The name is NULL where there was no memory for it. -/
structure AvbPartitionData where
  partitionName : Option (List UInt8)
  data : Buffer
  dataSize : UInt64

structure AvbSlotVerifyData where
  abSuffix : Option (List UInt8)
  vbmetaImages : List AvbVBMetaData
  loadedPartitions : List AvbPartitionData
  cmdline : Option (List UInt8)
  rollbackIndexes : ℕ → UInt64
  resolvedHashtreeErrorMode : AvbHashtreeErrorMode

/-- `AvbSlotVerifyData` as `avb_calloc` returns it. -/
def AvbSlotVerifyData.zero : AvbSlotVerifyData := ⟨none, [], [], none, fun _ => 0, .restartAndInvalidate⟩

/-- How many calls were made, the slot's data, and the two variables of the caller that are filled on the way. -/
structure State where
  time : ℕ
  data : AvbSlotVerifyData
  algorithmType : UInt32
  cmdlineSubst : List (List UInt8 × List UInt8)

def call {α : Type} (op : ℕ → α) : Prog State α := fun s => (some (op s.time), { s with time := s.time + 1 })

def avbMalloc (ops : AvbOps) (size : ℕ) : Prog State (Option ℕ) := call fun t => ops.malloc t size

/-- Whether there was memory for a copy of a string of this length. -/
def allocated (ops : AvbOps) (size : ℕ) : Prog State Bool := do
  return (← avbMalloc ops size).isSome

def modifyData (f : AvbSlotVerifyData → AvbSlotVerifyData) : Prog State Unit := Prog.modify fun s => { s with data := f s.data }

/-- How a failed operation is reported. -/
def ioFailure (ioRet : IoResult) : Option VerifyResult :=
  if ioRet = .errorOom then some .errorOom else if ioRet ≠ .ok then some .errorIo else none

end RCar.SlotVerify
