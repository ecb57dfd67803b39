import RCarM3N.Model.TextureRle

/-! The image set-up of the cluster demo: `texture.c` over the video memory slots of `demo_cluster.c` and the file handles
of `romfs_main.c`. The allocator of the graphics library answers with a parameter. -/

namespace RCar.Texture

def VIDMEMBUFFERS : ℕ := 50
def LOC_ROMFS_MAXOPEN : ℕ := 2

def IMG_ALPHA8 : UInt32 := 0
def IMG_RGB565 : UInt32 := 1
def IMG_ARGB8888 : UInt32 := 2
def IMG_ARGB1555 : UInt32 := 4
def IMG_RGB888 : UInt32 := 5
def IMG_MODE_RLE : UInt32 := 16
def IMG_ATTRIBUTE_IS_RLE_COMPRESSED : UInt32 := 1
def IMG_ATTRIBUTE_USE_FROM_PERSISTENT_MEMORY : UInt32 := 2
def ERR_TEXTURE_SETUP_FAILED : ℤ := -20

/-- A pointer: to data of the CPU, or to one of the video memory slots. -/
inductive Ptr where
  | null
  | cpu (address : UInt32)
  | slot (i : Fin VIDMEMBUFFERS)
deriving DecidableEq

/-- `Img_t`; `data` is the variable that its `Data` points to. -/
structure Img where
  name : List UInt8
  width : UInt32
  height : UInt32
  colourformat : UInt32
  attributes : UInt32
  data : ℕ
  dataLength : UInt32

structure RomFsData where
  name : List UInt8
  size : UInt32
  address : UInt32

structure RomFsFile where
  pos : UInt32
  size : UInt32
  address : UInt32
  inUse : Bool

/-- A slot's memory in the address space of the graphics unit. -/
structure VidMem where
  mGpuAddress : UInt32
  size : UInt32

structure Video where
  /-- the directory up to its terminator, once the file system is initialised -/
  locRoot : Option (List RomFsData)
  clusterImageData : UInt32
  locHandle : Fin LOC_ROMFS_MAXOPEN → RomFsFile
  vidmembufferAlloced : Fin VIDMEMBUFFERS → Bool
  vidmembuffer : Fin VIDMEMBUFFERS → VidMem
  data : ℕ → Ptr
  /-- the memory of the CPU, and that of the graphics unit -/
  mem : UInt32 → UInt8
  vid : UInt32 → UInt8

/-! ## The file system -/

def eeRomFsFOpen (name : List UInt8) : Prog Video (Option (Fin LOC_ROMFS_MAXOPEN)) := do
  let s ← Prog.get
  match s.locRoot, (List.finRange LOC_ROMFS_MAXOPEN).find? fun i => !(s.locHandle i).inUse with
  | some root, some i =>
    match root.find? fun e => e.name = name, root.head? with
    | some e, some first => do
      Prog.modify fun s => { s with
        locHandle := Function.update s.locHandle i
          { pos := 0, size := e.size, address := e.address - first.address + s.clusterImageData, inUse := true } }
      return some i
    | _, _ => return none
  | _, _ => return none

def eeRomFsFClose (fp : Fin LOC_ROMFS_MAXOPEN) : Prog Video Unit :=
  Prog.modify fun s => { s with
    locHandle := Function.update s.locHandle fp { s.locHandle fp with inUse := false } }

def eeRomFsMMap (fp : Fin LOC_ROMFS_MAXOPEN) (offset : UInt32) : Prog Video UInt32 := do
  return ((← Prog.get).locHandle fp).address + offset

/-! ## The video memory -/

/-- `alloc` is the memory that the graphics library hands out, `none` when it fails. -/
def demoAllocvidmem (alloc : Option UInt32) (size : UInt32) : Prog Video (Option (Fin VIDMEMBUFFERS)) := do
  let s ← Prog.get
  match (List.finRange VIDMEMBUFFERS).find? fun i => !s.vidmembufferAlloced i with
  | none => return none
  | some i => do
    Prog.modify fun s => { s with vidmembufferAlloced := Function.update s.vidmembufferAlloced i true }
    match alloc with
    | none => return none
    | some a => do
      Prog.modify fun s => { s with vidmembuffer := Function.update s.vidmembuffer i ⟨a, size⟩ }
      return some i

def demoFreevidmem (ptr : Ptr) : Prog Video Unit :=
  match ptr with
  | .slot i => Prog.modify fun s => { s with vidmembufferAlloced := Function.update s.vidmembufferAlloced i false }
  | _ => return ()

/-- Bytes written to the memory of the graphics unit, one after the other. -/
def store (vid : UInt32 → UInt8) (writes : List (UInt32 × UInt8)) : UInt32 → UInt8 :=
  writes.foldl (fun vid w => Function.update vid w.1 w.2) vid

/-- The `n` bytes of the CPU's memory from an address on, with the addresses that they are copied to. -/
def copied (mem : UInt32 → UInt8) (dst src : UInt32) (n : ℕ) : List (UInt32 × UInt8) :=
  (List.range n).map fun k => (dst + UInt32.ofNat k, mem (src + UInt32.ofNat k))

def demoCopytovidmem (dst : Fin VIDMEMBUFFERS) (src size : UInt32) : Prog Video Unit :=
  Prog.modify fun s => { s with
    vid := store s.vid (copied s.mem (s.vidmembuffer dst).mGpuAddress src size.toNat) }

/-- It hangs on a slot whose memory is at address 0. -/
def demoGetvidmemptr (vidbuf : Fin VIDMEMBUFFERS) : Prog Video UInt32 := do
  let a := ((← Prog.get).vidmembuffer vidbuf).mGpuAddress
  if a = 0 then
    Prog.stuck
  return a

/-- What `locDecompressRLE` writes. -/
def decoded (mem : UInt32 → UInt8) (dst src : UInt32) (size bpp : ℕ) : List (UInt32 × UInt8) :=
  ((locDecompressRLE dst size bpp).run ⟨fun k => mem (src + UInt32.ofNat k), [], []⟩).2.writes

def decompressRLE (dst src size : UInt32) (bpp : ℕ) : Prog Video Unit :=
  Prog.modify fun s => { s with vid := store s.vid (decoded s.mem dst src size.toNat bpp) }

/-! ## Set-up -/

/-- It waits for ever on any error. -/
def clusterError (err : ℤ) : Prog Video Unit :=
  if err ≠ 0 then Prog.stuck else return ()

def getData (v : ℕ) : Prog Video Ptr := do
  return (← Prog.get).data v

def setData (v : ℕ) (p : Ptr) : Prog Video Unit :=
  Prog.modify fun s => { s with data := Function.update s.data v p }

def bytesPerPixel (colourformat : UInt32) : Option ℕ :=
  if colourformat = IMG_ARGB8888 ∨ colourformat = IMG_ARGB8888 ||| IMG_MODE_RLE then some 4
  else if colourformat = IMG_RGB888 then some 4
  else if colourformat = IMG_RGB888 ||| IMG_MODE_RLE then some 3
  else if colourformat = IMG_ARGB1555 ∨ colourformat = IMG_ARGB1555 ||| IMG_MODE_RLE ∨ colourformat = IMG_RGB565 ∨
      colourformat = IMG_RGB565 ||| IMG_MODE_RLE then some 2
  else if colourformat = IMG_ALPHA8 ∨ colourformat = IMG_ALPHA8 ||| IMG_MODE_RLE then some 1
  else none

/-- The sequence of each of the paths through ROMFS: the file is opened, mapped, used and closed; `release` is what the
path gives back before it returns without it. -/
def useRomFs (name : List UInt8) (release : Prog Video Unit) (use : UInt32 → Prog Video Unit) :
    Prog Video (Option UInt32) := do
  match ← eeRomFsFOpen name with
  | none => do
    release
    return none
  | some fp => do
    let mmDataAddr ← eeRomFsMMap fp 0
    if mmDataAddr = 0 then
      release
      return none
    else
      use mmDataAddr
      eeRomFsFClose fp
      return some mmDataAddr

/-- What `Init2DImg` returns; `ok` is a mark of the model: the image is set up. -/
structure InitResult where
  ok : Bool
  old : Ptr

/-- Where the data of an image are that does not come from ROMFS. -/
def Ptr.address (slotAddress : Fin VIDMEMBUFFERS → UInt32) : Ptr → UInt32
  | .null => 0
  | .cpu a => a
  | .slot i => slotAddress i

def Img.persistent (img : Img) : Bool := img.attributes &&& IMG_ATTRIBUTE_USE_FROM_PERSISTENT_MEMORY ≠ 0

/-- The image is decompressed by the CPU. -/
def Img.decompressed (img : Img) : Bool :=
  img.attributes &&& IMG_ATTRIBUTE_IS_RLE_COMPRESSED ≠ 0 && img.colourformat &&& IMG_MODE_RLE = 0

def finishInit (img : Img) (i : Fin VIDMEMBUFFERS) : Prog Video InitResult := do
  let old ← getData img.data
  setData img.data (.slot i)
  return ⟨true, old⟩

/-- `slotAddress` are the addresses of the slots' own records. -/
def init2DImg (slotAddress : Fin VIDMEMBUFFERS → UInt32) (alloc : Option UInt32) (img : Img) :
    Prog Video InitResult := do
  let data ← getData img.data
  if img.persistent then
    if data = .null then
      match ← useRomFs img.name (return ()) fun _ => return () with
      | none => return ⟨false, .null⟩
      | some a => do
        setData img.data (.cpu a)
        return ⟨true, data⟩
    else
      return ⟨true, data⟩
  else
    match bytesPerPixel img.colourformat with
    | none => do
      clusterError ERR_TEXTURE_SETUP_FAILED
      return ⟨false, data⟩
    | some bpp => do
      match ← demoAllocvidmem alloc (img.height * img.width * UInt32.ofNat bpp) with
      | none => do
        clusterError ERR_TEXTURE_SETUP_FAILED
        return ⟨false, data⟩
      | some i =>
        if img.decompressed then
          if data = .null then
            match ← useRomFs img.name (demoFreevidmem (.slot i)) fun a => do
                decompressRLE (← demoGetvidmemptr i) a img.dataLength bpp with
            | none => return ⟨false, .null⟩
            | some _ => finishInit img i
          else do
            decompressRLE (← demoGetvidmemptr i) (data.address slotAddress) img.dataLength bpp
            finishInit img i
        else
          if data = .null then
            match ← useRomFs img.name (demoFreevidmem (.slot i)) fun a => demoCopytovidmem i a img.dataLength with
            | none => return ⟨false, .null⟩
            | some _ => finishInit img i
          else do
            -- the mapped address, which only the ROMFS path sets
            let mmDataAddr : UInt32 := 0
            if mmDataAddr = 0 then
              demoCopytovidmem i mmDataAddr img.dataLength
            finishInit img i

def deinit2DImg (img : Img) (original : Ptr) : Prog Video Unit := do
  if !img.persistent then
    demoFreevidmem (← getData img.data)
  setData img.data original

end RCar.Texture
