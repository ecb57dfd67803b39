import RCarM3N.Proofs.FbLocks
import RCarM3N.Proofs.Srec

/-! Images written to HyperFlash. The sectors of the named area are filled from the buffer whatever
size has been announced, so that a raw image comes out right if and only if it is as long as its area,
and S-records do so where the text ends within the announced bytes. -/

namespace RCar.Fastboot

/-! ## Sectors -/

def ImgParam.size (p : ImgParam) : ℕ := p.sectorsNum * HF_SECTOR_SIZE

/-- The bytes that `n` sector writes leave in the flash; each of them is one access. -/
def programmed (io : ℕ → Outcome) : ℕ → ℕ → ℕ
  | _, 0 => 0
  | pos, n + 1 =>
    if (io pos).moved then HF_SECTOR_SIZE + programmed io (pos + 1) n else min (io pos).reached HF_SECTOR_SIZE

def AllMoved (io : ℕ → Outcome) (pos n : ℕ) : Prop := ∀ i < n, (io (pos + i)).moved = true

section

variable {io : ℕ → Outcome} {pos n : ℕ}

theorem allMoved_succ : AllMoved io pos (n + 1) ↔ (io pos).moved = true ∧ AllMoved io (pos + 1) n := by
  constructor
  · intro h
    refine ⟨h 0 (Nat.succ_pos _), fun i hi => ?_⟩
    rw [Nat.add_assoc, Nat.add_comm 1]
    exact h (i + 1) (by omega)
  · rintro ⟨h0, h⟩ i hi
    cases i with
    | zero => exact h0
    | succ i =>
      have := h i (by omega)
      rwa [Nat.add_assoc, Nat.add_comm 1] at this

theorem programmed_of_allMoved (h : AllMoved io pos n) : programmed io pos n = n * HF_SECTOR_SIZE := by
  induction n generalizing pos with
  | zero => simp [programmed]
  | succ n ih =>
    obtain ⟨h0, h⟩ := allMoved_succ.mp h
    rw [programmed, if_pos h0, ih h]
    ring

theorem programmed_eq_zero (hn : 0 < n) :
    programmed io pos n = 0 ↔ (io pos).moved = false ∧ (io pos).reached = 0 := by
  obtain ⟨n, rfl⟩ := Nat.exists_eq_succ_of_ne_zero hn.ne'
  rw [programmed]
  cases (io pos).moved <;> simp [HF_SECTOR_SIZE]

/-- The body of the loop of `hf_write_image`. -/
def nextSector (p : ImgParam) (buffer : Mem) (ok : Bool) (i : ℕ) : Prog Board Bool :=
  if ok then hfWriteSector p buffer i else return false

theorem nextSector_failed (p : ImgParam) (buffer : Mem) (l : List ℕ) (b : Board) :
    (l.foldlM (nextSector p buffer) false).run b = (some false, b) := by
  induction l with
  | nil => rfl
  | cons i l ih => exact ih

/-- Sectors that follow one another are one copy. -/
theorem sectors_run (p : ImgParam) (buffer : Mem) (n k : ℕ) (b : Board) : ∃ ok pos',
    ((List.range' k n).foldlM (nextSector p buffer) true).run b
        = (some ok, { b with
            hyper := b.hyper.copy (p.startAddr + k * HF_SECTOR_SIZE) buffer (k * HF_SECTOR_SIZE)
              (programmed b.io b.pos n)
            pos := pos' }) ∧
      (ok = true ↔ AllMoved b.io b.pos n) := by
  induction n generalizing k b with
  | zero => exact ⟨true, b.pos, by simp [programmed], by simp [AllMoved]⟩
  | succ n ih =>
    let b1 : Board := { b with
      hyper := b.hyper.copy (p.startAddr + k * HF_SECTOR_SIZE) buffer (k * HF_SECTOR_SIZE)
        (if (b.io b.pos).moved then HF_SECTOR_SIZE else min (b.io b.pos).reached HF_SECTOR_SIZE)
      pos := b.pos + 1 }
    have hsector : (nextSector p buffer true k).run b = (some (b.io b.pos).moved, b1) := rfl
    rw [List.range'_succ, List.foldlM_cons, Prog.run_bind_of_some hsector, allMoved_succ, programmed]
    cases hmoved : (b.io b.pos).moved with
    | false =>
      refine ⟨false, b.pos + 1, ?_, by simp⟩
      rw [nextSector_failed]
      simp [b1, hmoved]
    | true =>
      obtain ⟨ok, pos', hrun, hok⟩ := ih (k + 1) b1
      refine ⟨ok, pos', ?_, by simpa using hok⟩
      rw [hrun]
      have hcopy := Mem.copy_append b.hyper (p.startAddr + k * HF_SECTOR_SIZE) buffer (k * HF_SECTOR_SIZE)
        HF_SECTOR_SIZE (programmed b.io (b.pos + 1) n)
      simp only [b1, hmoved, if_true, Nat.add_one_mul, ← hcopy, Nat.add_assoc]

theorem hfWriteImage_run (p : ImgParam) (buffer : Mem) (b : Board) : ∃ ok b',
    (hfWriteImage p buffer).run b = (some ok, b') ∧
      b'.hyper = b.hyper.copy p.startAddr buffer 0
        (if (b.io b.pos).found then programmed b.io (b.pos + 1) p.sectorsNum else 0) ∧
      (ok = true ↔ (b.io b.pos).found = true ∧ AllMoved b.io (b.pos + 1) p.sectorsNum) := by
  let b1 : Board := { b with pos := b.pos + 1 }
  have hrun : (hfWriteImage p buffer).run b = (if (b.io b.pos).found = false then pure false else
      (List.range p.sectorsNum).foldlM (nextSector p buffer) true : Prog Board Bool).run b1 := by
    change Prog.run (if !(b.io b.pos).found then _ else _) b1 = _
    cases (b.io b.pos).found <;> rfl
  rw [hrun]
  cases hfound : (b.io b.pos).found with
  | false => exact ⟨false, b1, rfl, by simp [b1], by simp⟩
  | true =>
    obtain ⟨ok, pos', hsectors, hok⟩ := sectors_run p buffer p.sectorsNum 0 b1
    rw [if_neg (by simp), List.range_eq_range', hsectors]
    exact ⟨ok, _, rfl, by simp [b1], by simpa using hok⟩

/-! ## The command -/

/-- Every access goes through. -/
structure Complete (p : ImgParam) (io : ℕ → Outcome) (pos : ℕ) : Prop where
  found : (io pos).found = true
  described : (io pos).described = true
  tee : (io (pos + 1)).found = true
  moved : AllMoved io (pos + 2) p.sectorsNum

/-- No byte reaches the flash: a device is missing, or the first sector fails at its start. -/
def Untouched (io : ℕ → Outcome) (pos : ℕ) : Prop :=
  (io pos).found = false ∨ (io pos).described = false ∨ (io (pos + 1)).found = false ∨
    (io (pos + 2)).moved = false ∧ (io (pos + 2)).reached = 0

/-- The answer and the flash after a write from `buffer`. -/
def Wrote (p : ImgParam) (buffer : Mem) (b : Board) (answer : CStr) (hyper : Mem) : Prop :=
  ∃ n, hyper = b.hyper.copy p.startAddr buffer 0 n ∧ (n = 0 ↔ Untouched b.io b.pos) ∧
    (Complete p b.io b.pos ∧ answer = fastbootOkay ∧ n = p.size ∨
      ¬ Complete p b.io b.pos ∧ ∃ message, answer = fastbootFail message)

theorem getImageType_some {cmd : CStr} {p : ImgParam} {srec : Bool} (h : getImageType cmd = some (p, srec)) :
    p ∈ imgParams ∧ p.imgName <+: cmd := by
  have hfind : ∀ {ext : CStr} {s : Bool},
      (imgParams.find? fun p => (p.imgName ++ ext).isPrefixOf cmd).map (·, s) = some (p, srec) →
        p ∈ imgParams ∧ p.imgName <+: cmd := by
    intro ext s h
    obtain ⟨q, hq, heq⟩ := Option.map_eq_some_iff.mp h
    cases heq
    have hbegins : (p.imgName ++ ext).isPrefixOf cmd = true := by simpa using List.find?_some hq
    exact ⟨List.mem_of_find?_eq_some hq,
      (List.prefix_append _ _).trans (List.isPrefixOf_iff_prefix.mp hbegins)⟩
  unfold getImageType at h
  split_ifs at h
  · exact hfind h
  · exact hfind h

/-- No name begins like `gpt`, `mbr` or `zimage`. -/
theorem imgParams_head : ∀ p ∈ imgParams, 0 < p.sectorsNum ∧
    ∃ c rest, p.imgName = c :: rest ∧ c ≠ 103 ∧ c ≠ 109 ∧ tolower c ≠ 122 := by
  simp only [imgParams, imgSstdata, List.forall_mem_cons]
  refine ⟨?_, ?_, ?_, ?_, ?_, ?_, ?_, by simp⟩ <;>
    exact ⟨by decide, _, _, rfl, by decide, by decide, by decide⟩

theorem flashTarget_hyper {cmd : CStr} {p : ImgParam} {srec : Bool} (h : getImageType cmd = some (p, srec))
    (dev : Device) (b : Board) : flashTarget dev b cmd = .hyperFlash p srec := by
  obtain ⟨hmem, tail, rfl⟩ := getImageType_some h
  obtain ⟨-, c, rest, hname, hg, hm, hz⟩ := imgParams_head p hmem
  rw [hname] at h ⊢
  have hgpt : c :: rest ++ tail ≠ ascii "gpt" := fun heq => hg (List.cons.inj heq).1
  have hmbr : c :: rest ++ tail ≠ ascii "mbr" := fun heq => hm (List.cons.inj heq).1
  have hzimage : ((c :: rest ++ tail).take 6).map tolower ≠ ascii "zimage" :=
    fun heq => hz (List.cons.inj heq).1
  rw [flashTarget, if_neg hgpt, if_neg hmbr, if_neg hzimage, h]

theorem flash_run (dev : Device) {cmd : CStr} {p : ImgParam} {srec : Bool}
    (h : getImageType cmd = some (p, srec)) (b : Board) : ∃ answer b',
      (fastbootMmcFlashWrite dev cmd).run b = (some answer, b') ∧
      match if srec then dev.srecToBin b.image p.size else some b.image with
      | none => (∃ message, answer = fastbootFail message) ∧ b'.hyper = b.hyper
      | some buffer => Wrote p buffer b answer b'.hyper := by
  let b1 : Board := { b with pos := b.pos + 1 }
  have hpos : 0 < p.sectorsNum := (imgParams_head p (getImageType_some h).1).1
  have hrun : (fastbootMmcFlashWrite dev cmd).run b =
      (if (b.io b.pos).found = true ∧ (b.io b.pos).described = true then flashHyper dev p srec
        else pure (fastbootFail (ascii "invalid mmc device")) : Prog Board CStr).run b1 := by
    change Prog.run (if !(b.io b.pos).found then _ else _) b1 = _
    cases (b.io b.pos).found with
    | false => rfl
    | true =>
      change Prog.run (if !(b.io b.pos).described then _ else _) b1 = _
      cases (b.io b.pos).described with
      | false => rfl
      | true =>
        change (flashTo dev (flashTarget dev b1 cmd)).run b1 = _
        rw [flashTarget_hyper h]
        rfl
  rw [hrun]
  by_cases hdevice : (b.io b.pos).found = true ∧ (b.io b.pos).described = true
  · rw [if_pos hdevice]
    change ∃ answer b', Prog.run (match if srec then dev.srecToBin b.image p.size else some b.image with
      | none => pure (fastbootFail (ascii "Failed to convert srec to bin"))
      | some buffer => do
        if !(← hfWriteImage p buffer) then return fastbootFail (ascii "Failed to write to HyperFlash")
        return fastbootOkay) b1 = (some answer, b') ∧ _
    cases hconv : (if srec then dev.srecToBin b.image p.size else some b.image) with
    | none => exact ⟨_, _, rfl, ⟨_, rfl⟩, rfl⟩
    | some buffer =>
      obtain ⟨ok, b2, hwrite, hhyper, hok⟩ := hfWriteImage_run p buffer b1
      refine ⟨if ok then fastbootOkay else fastbootFail (ascii "Failed to write to HyperFlash"), b2, ?_,
        _, hhyper, ?_, ?_⟩
      · refine (Prog.run_bind_of_some hwrite _).trans ?_
        cases ok <;> rfl
      · obtain ⟨hfound, hdescribed⟩ := hdevice
        cases htee : (b.io (b.pos + 1)).found <;> simp [b1, Untouched, hfound, hdescribed, htee, programmed_eq_zero hpos]
      · have hcomplete : ok = true ↔ Complete p b.io b.pos :=
          hok.trans ⟨fun h => ⟨hdevice.1, hdevice.2, h.1, h.2⟩, fun h => ⟨h.tee, h.moved⟩⟩
        cases ok with
        | false => exact Or.inr ⟨fun hc => absurd (hcomplete.mpr hc) (by simp), _, rfl⟩
        | true =>
          have hc := hcomplete.mp rfl
          refine Or.inl ⟨hc, rfl, ?_⟩
          have htee : (b1.io b1.pos).found = true := hc.tee
          rw [if_pos htee]
          exact programmed_of_allMoved hc.moved
  · rw [if_neg hdevice]
    refine ⟨_, _, rfl, ?_⟩
    have huntouched : Untouched b.io b.pos := by
      unfold Untouched
      grind
    have hcomplete : ¬ Complete p b.io b.pos := fun hc => hdevice ⟨hc.found, hc.described⟩
    cases (if srec then dev.srecToBin b.image p.size else some b.image) with
    | none => exact ⟨⟨_, rfl⟩, rfl⟩
    | some buffer =>
      exact ⟨0, (Mem.copy_zero _ _ _ _).symm, iff_of_true rfl huntouched, Or.inr ⟨hcomplete, _, rfl⟩⟩

/-! ## The image -/

variable (record : List UInt8) (heap : Mem) (beyond : ℕ)

/-- `srec_to_bin` into a new buffer, which holds `heap`, with `room` readable bytes from the start of the
text on; `record` is what the line buffer holds. What comes of an access outside of a buffer is
`undefined`. -/
def srecBuffer (room : ℕ) (undefined : Mem → ℕ → Option Mem) (image : Mem) (maxbin : ℕ) : Option Mem :=
  match Srec.srecToBin (UInt32.ofNat maxbin) record (image.read 0 room) with
  | some (.done size out) =>
    if maxbin < out.length then undefined image maxbin
    else if size = 0 then none
    else some (heap.copy 0 (Mem.ofList out) 0 out.length)
  | _ => undefined image maxbin

/-- The image that the announced bytes are: themselves, or what they convert to. -/
def imageOf (p : ImgParam) (srec : Bool) (text : List UInt8) : Option (List UInt8) :=
  if srec then
    match Srec.srecToBin (UInt32.ofNat p.size) record text with
    | some (.done size out) => if p.size < out.length ∨ size = 0 then none else some out
    | _ => none
  else some text

namespace Board

def text (b : Board) : List UInt8 := b.image.read 0 b.imageSize.toNat

/-- Another flash, and another memory. -/
def withFlash (b : Board) (hyper m : Mem) : Board :=
  { b with hyper := hyper, session := { b.session with mem := m } }

/-- A memory that holds the announced bytes. -/
def Holds (b : Board) (m : Mem) : Prop :=
  ∀ i < b.imageSize.toNat, m (b.session.bufAddr + i) = b.image i

end Board

/-- The board after `flash` of a name, `beyond` bytes being readable behind the announced ones. -/
def flashed (dev : Device) (undefined : Mem → ℕ → Option Mem) (cmd : CStr) (b : Board) (hyper m : Mem) :
    Option CStr × Board :=
  (fastbootMmcFlashWrite
    { dev with srecToBin := srecBuffer record heap (b.imageSize.toNat + beyond) undefined } cmd).run
      (b.withFlash hyper m)

/-- The named area holds the image, and nothing else has changed. -/
structure HoldsImage (p : ImgParam) (hyper hyper' : Mem) (image : List UInt8) : Prop where
  outside : ∀ a, a < p.startAddr ∨ p.startAddr + p.size ≤ a → hyper' a = hyper a
  fits : image.length ≤ p.size
  first : hyper'.read p.startAddr image.length = image

/-- Whatever the flash holds, and whatever stands in the buffer behind the announced bytes. -/
structure OwnAreaOnly (dev : Device) (cmd : CStr) (p : ImgParam) (srec : Bool) (b : Board) : Prop where
  result : ∀ undefined hyper m, b.Holds m →
    let r := flashed record heap beyond dev undefined cmd b hyper m
    (∃ message, r.1 = some (fastbootFail message)) ∧ r.2.hyper = hyper ∨
      r.1 = some fastbootOkay ∧
        ∃ image, imageOf record p srec b.text = some image ∧ HoldsImage p hyper r.2.hyper image
  announced : ∀ undefined hyper m m', b.Holds m → b.Holds m' →
    (flashed record heap beyond dev undefined cmd b hyper m).2.hyper =
      (flashed record heap beyond dev undefined cmd b hyper m').2.hyper

/-- The text is refused, whatever follows it. -/
def Refused (p : ImgParam) (text : List UInt8) : Prop :=
  ∀ rest : List UInt8, rest.length = beyond → ∃ out,
    Srec.srecToBin (UInt32.ofNat p.size) record (text ++ rest) = some (.done 0 out) ∧ out.length ≤ p.size

/-- What the announced bytes have to be for a complete write. -/
def Exact (p : ImgParam) (srec : Bool) (b : Board) : Prop :=
  if srec then (imageOf record p true b.text).isSome = true else b.imageSize.toNat = p.size

variable {record heap beyond} {p : ImgParam} {srec : Bool} {cmd : CStr} {b : Board} {hyper m : Mem}

variable (record heap beyond) in
theorem flashed_run (hcmd : getImageType cmd = some (p, srec)) (dev : Device)
    (undefined : Mem → ℕ → Option Mem) (b : Board) (hyper m : Mem) : ∃ answer b',
      flashed record heap beyond dev undefined cmd b hyper m = (some answer, b') ∧
      match if srec then
          srecBuffer record heap (b.imageSize.toNat + beyond) undefined (b.withFlash hyper m).image p.size
        else some (b.withFlash hyper m).image with
      | none => (∃ message, answer = fastbootFail message) ∧ b'.hyper = hyper
      | some buffer => Wrote p buffer (b.withFlash hyper m) answer b'.hyper :=
  flash_run _ hcmd (b.withFlash hyper m)

variable (beyond) in
/-- The announced bytes, and those behind them. -/
theorem read_image (hyper : Mem) (hm : b.Holds m) : ∃ rest : List UInt8, rest.length = beyond ∧
    (b.withFlash hyper m).image.read 0 (b.imageSize.toNat + beyond) = b.text ++ rest := by
  refine ⟨(b.withFlash hyper m).image.read (0 + b.imageSize.toNat) beyond, by simp, ?_⟩
  rw [Mem.read_append]
  congr 1
  apply Mem.read_congr
  intro i hi
  rw [Nat.zero_add]
  exact hm i hi

/-- Every text can be followed by anything. -/
theorem exists_holds (b : Board) (hyper : Mem) (rest : List UInt8) : ∃ m, b.Holds m ∧
    (b.withFlash hyper m).image.read 0 (b.imageSize.toNat + rest.length) = b.text ++ rest := by
  refine ⟨b.session.mem.copy (b.session.bufAddr + b.imageSize.toNat) (Mem.ofList rest) 0 rest.length,
    fun i hi => Mem.copy_out _ _ _ _ _ _ (by omega), ?_⟩
  have himage : ∀ m : Mem, (b.withFlash hyper m).image = fun i => m (b.session.bufAddr + i) := fun _ => rfl
  rw [Mem.read_append, himage]
  congr 1
  · apply Mem.read_congr
    intro i hi
    exact Mem.copy_out _ _ _ _ _ _ (by omega)
  · refine Eq.trans ?_
      (Mem.read_copy_ofList b.session.mem (b.session.bufAddr + b.imageSize.toNat) rest)
    apply Mem.read_congr
    intro i hi
    congr 1
    omega

/-! ## When nothing is written -/

theorem ownArea_of_fails {dev : Device} (h : ∀ undefined hyper m, b.Holds m →
    ∃ message b', flashed record heap beyond dev undefined cmd b hyper m =
      (some (fastbootFail message), b') ∧ b'.hyper = hyper) : OwnAreaOnly record heap beyond dev cmd p srec b := by
  refine ⟨fun undefined hyper m hm => ?_, fun undefined hyper m m' hm hm' => ?_⟩
  · obtain ⟨message, b', hrun, hhyper⟩ := h undefined hyper m hm
    rw [hrun]
    exact Or.inl ⟨⟨message, rfl⟩, hhyper⟩
  · obtain ⟨message, b1, hrun, hhyper⟩ := h undefined hyper m hm
    obtain ⟨message', b2, hrun', hhyper'⟩ := h undefined hyper m' hm'
    rw [hrun, hrun', hhyper, hhyper']

theorem ownArea_of_untouched (hcmd : getImageType cmd = some (p, srec)) (dev : Device)
    (h : Untouched b.io b.pos) : OwnAreaOnly record heap beyond dev cmd p srec b := by
  have hpos : 0 < p.sectorsNum := (imgParams_head p (getImageType_some hcmd).1).1
  have hnot : ¬ Complete p b.io b.pos := by
    intro hc
    rcases h with h | h | h | ⟨h, -⟩
    · exact absurd hc.found (by simp [h])
    · exact absurd hc.described (by simp [h])
    · exact absurd hc.tee (by simp [h])
    · exact absurd (hc.moved 0 hpos) (by simp [h])
  apply ownArea_of_fails
  intro undefined hyper m _
  obtain ⟨answer, b', hrun, hresult⟩ := flashed_run record heap beyond hcmd dev undefined b hyper m
  rw [hrun]
  split at hresult
  · obtain ⟨⟨message, rfl⟩, hhyper⟩ := hresult
    exact ⟨message, b', rfl, hhyper⟩
  · obtain ⟨n, hhyper, hn, ⟨hc, -, -⟩ | ⟨-, message, rfl⟩⟩ := hresult
    · exact absurd hc hnot
    · obtain rfl := hn.mpr h
      exact ⟨message, b', rfl, hhyper.trans (Mem.copy_zero _ _ _ _)⟩

theorem ownArea_of_refused (hcmd : getImageType cmd = some (p, true)) (dev : Device)
    (h : Refused record beyond p b.text) : OwnAreaOnly record heap beyond dev cmd p true b := by
  apply ownArea_of_fails
  intro undefined hyper m hm
  obtain ⟨answer, b', hrun, hresult⟩ := flashed_run record heap beyond hcmd dev undefined b hyper m
  obtain ⟨rest, hlength, hread⟩ := read_image beyond hyper hm
  obtain ⟨out, hout, hfits⟩ := h rest hlength
  have hnone : srecBuffer record heap (b.imageSize.toNat + beyond) undefined (b.withFlash hyper m).image p.size
      = none := by
    unfold srecBuffer
    rw [hread, hout]
    simp only [if_neg (Nat.not_lt.mpr hfits), if_true]
  rw [if_pos rfl, hnone] at hresult
  obtain ⟨⟨message, rfl⟩, hhyper⟩ := hresult
  exact ⟨message, b', hrun, hhyper⟩

/-! ## When the image is written -/

variable (heap beyond) in
/-- An image that converts does so whatever follows its text. -/
theorem srecBuffer_of_image {image : List UInt8} (himage : imageOf record p true b.text = some image)
    (undefined : Mem → ℕ → Option Mem) (hyper : Mem) (hm : b.Holds m) :
    srecBuffer record heap (b.imageSize.toNat + beyond) undefined (b.withFlash hyper m).image p.size
        = some (heap.copy 0 (Mem.ofList image) 0 image.length) ∧ image.length ≤ p.size := by
  obtain ⟨rest, -, hread⟩ := read_image beyond hyper hm
  unfold imageOf at himage
  rw [if_pos rfl] at himage
  split at himage
  · rename_i size out hconv
    split_ifs at himage with hbad
    obtain rfl := Option.some.inj himage
    rw [not_or, Nat.not_lt] at hbad
    unfold srecBuffer
    rw [hread, Srec.srecToBin_append hconv]
    exact ⟨by simp only [if_neg (Nat.not_lt.mpr hbad.1), if_neg hbad.2], hbad.1⟩
  · cases himage

theorem holdsImage_copy {image : List UInt8} {buffer : Mem} (hfits : image.length ≤ p.size)
    (hbuffer : buffer.read 0 image.length = image) :
    HoldsImage p hyper (hyper.copy p.startAddr buffer 0 p.size) image := by
  refine ⟨fun a ha => Mem.copy_out _ _ _ _ _ _ ha, hfits, ?_⟩
  rw [Mem.read_copy_in _ _ _ _ _ _ _ (le_refl _) (by omega), Nat.sub_self]
  exact hbuffer

/-- A complete write fills the area from `buffer`. -/
theorem flashed_complete (hcmd : getImageType cmd = some (p, srec)) (dev : Device)
    (hc : Complete p b.io b.pos) {undefined : Mem → ℕ → Option Mem} {buffer : Mem}
    (hconv : (if srec then
        srecBuffer record heap (b.imageSize.toNat + beyond) undefined (b.withFlash hyper m).image p.size
      else some (b.withFlash hyper m).image) = some buffer) :
    ∃ b', flashed record heap beyond dev undefined cmd b hyper m = (some fastbootOkay, b') ∧
      b'.hyper = hyper.copy p.startAddr buffer 0 p.size := by
  obtain ⟨answer, b', hrun, hresult⟩ :=
    flashed_run record heap beyond hcmd dev undefined b hyper m
  rw [hconv] at hresult
  obtain ⟨n, hhyper, -, ⟨-, rfl, rfl⟩ | ⟨hnot, -⟩⟩ := hresult
  · exact ⟨b', hrun, hhyper⟩
  · exact absurd hc hnot

/-- A raw image goes to the flash from the buffer itself. -/
theorem flashed_raw (hcmd : getImageType cmd = some (p, false)) (dev : Device) (hc : Complete p b.io b.pos)
    (undefined : Mem → ℕ → Option Mem) (hyper m : Mem) :
    ∃ b', flashed record heap beyond dev undefined cmd b hyper m = (some fastbootOkay, b') ∧
      b'.hyper = hyper.copy p.startAddr (b.withFlash hyper m).image 0 p.size :=
  flashed_complete hcmd dev hc (if_neg (by simp))

variable (heap beyond) in
/-- The bytes that a complete write of an exact image programs. -/
theorem exact_buffer (hcmd : getImageType cmd = some (p, srec)) (dev : Device)
    (hexact : Exact record p srec b) (hc : Complete p b.io b.pos) : ∃ (image : List UInt8) (buffer : Mem),
      imageOf record p srec b.text = some image ∧ image.length ≤ p.size ∧ buffer.read 0 image.length = image ∧
      ∀ undefined hyper m, b.Holds m → ∃ b',
        flashed record heap beyond dev undefined cmd b hyper m = (some fastbootOkay, b') ∧
          b'.hyper = hyper.copy p.startAddr buffer 0 p.size := by
  unfold Exact at hexact
  cases srec with
  | true =>
    obtain ⟨image, himage⟩ := Option.isSome_iff_exists.mp hexact
    have hself : b.Holds b.session.mem := fun _ _ => rfl
    obtain ⟨-, hfits⟩ := srecBuffer_of_image heap beyond himage (fun _ _ => none) b.hyper hself
    refine ⟨image, heap.copy 0 (Mem.ofList image) 0 image.length, himage, hfits,
      Mem.read_copy_ofList heap 0 image, fun undefined hyper m hm => ?_⟩
    exact flashed_complete hcmd dev hc ((if_pos rfl).trans (srecBuffer_of_image heap beyond himage undefined hyper hm).1)
  | false =>
    have hsize : b.imageSize.toNat = p.size := hexact
    refine ⟨b.text, b.image, rfl, by simp [Board.text, hsize], by simp [Board.text],
      fun undefined hyper m hm => ?_⟩
    obtain ⟨b', hrun, hhyper⟩ := flashed_raw hcmd dev hc undefined hyper m
    refine ⟨b', hrun, hhyper.trans (Mem.copy_congr _ _ fun i hi => ?_)⟩
    rw [Nat.zero_add]
    exact hm i (by omega)

theorem ownArea_of_exact (hcmd : getImageType cmd = some (p, srec)) (dev : Device)
    (hexact : Exact record p srec b) (hc : Complete p b.io b.pos) :
    OwnAreaOnly record heap beyond dev cmd p srec b := by
  obtain ⟨image, buffer, himage, hfits, hread, hwrote⟩ :=
    exact_buffer heap beyond hcmd dev hexact hc
  refine ⟨fun undefined hyper m hm => ?_, fun undefined hyper m m' hm hm' => ?_⟩
  · obtain ⟨b', hrun, hhyper⟩ := hwrote undefined hyper m hm
    rw [hrun]
    exact Or.inr ⟨rfl, image, himage, hhyper ▸ holdsImage_copy hfits hread⟩
  · obtain ⟨b1, hrun, hhyper⟩ := hwrote undefined hyper m hm
    obtain ⟨b2, hrun', hhyper'⟩ := hwrote undefined hyper m' hm'
    rw [hrun, hrun', hhyper, hhyper']

/-! ## When the area is not the image's own -/

/-- Where bytes reach the flash, the answer cannot be that it has not changed. -/
theorem complete_of_ownArea (hcmd : getImageType cmd = some (p, srec)) {dev : Device}
    (h : OwnAreaOnly record heap beyond dev cmd p srec b) (htouched : ¬ Untouched b.io b.pos)
    (undefined : Mem → ℕ → Option Mem) (buffer : Mem) (hm : b.Holds m)
    (hconv : ∀ hyper, (if srec then
        srecBuffer record heap (b.imageSize.toNat + beyond) undefined (b.withFlash hyper m).image p.size
      else some (b.withFlash hyper m).image) = some buffer) :
    Complete p b.io b.pos ∧ ∃ image, imageOf record p srec b.text = some image ∧ image.length ≤ p.size := by
  let hyper : Mem := fun _ => buffer 0 + 1
  obtain ⟨answer, b', hrun, hresult⟩ :=
    flashed_run record heap beyond hcmd dev undefined b hyper m
  rw [hconv] at hresult
  obtain ⟨n, hhyper, hn, hanswer⟩ := hresult
  have hchanged : b'.hyper ≠ hyper := by
    intro heq
    have hpos : 0 < n := Nat.pos_of_ne_zero fun h0 => htouched (hn.mp h0)
    have hbyte : buffer 0 + 1 = buffer 0 := by
      have := congrFun (hhyper.symm.trans heq) p.startAddr
      rw [Mem.copy_in _ _ _ _ _ _ (le_refl _) (by omega)] at this
      simpa [hyper] using this.symm
    simp at hbyte
  have hcase := h.result undefined hyper m hm
  simp only [hrun] at hcase
  obtain ⟨-, hsame⟩ | ⟨hokay, image, himage, hholds⟩ := hcase
  · exact absurd hsame hchanged
  · refine ⟨?_, image, himage, hholds.fits⟩
    obtain ⟨hc, -, -⟩ | ⟨-, message, rfl⟩ := hanswer
    · exact hc
    · exact absurd (List.cons.inj (Option.some.inj hokay)).1 (by decide)

variable (heap) in
/-- What is not refused may be converted, or leave a buffer. -/
theorem exists_buffer {p : ImgParam} (h : ¬ Refused record beyond p b.text) : ∃ m, b.Holds m ∧
    ∃ buffer, ∀ hyper, srecBuffer record heap (b.imageSize.toNat + beyond) (fun _ _ => some fun _ => 0)
      (b.withFlash hyper m).image p.size = some buffer := by
  unfold Refused at h
  push Not at h
  obtain ⟨rest, rfl, hrest⟩ := h
  obtain ⟨m, hm, hread⟩ := exists_holds b b.hyper rest
  refine ⟨m, hm, ?_⟩
  have hbuffer : ∃ buffer, srecBuffer record heap (b.imageSize.toNat + rest.length)
      (fun _ _ => some fun _ => 0) (b.withFlash b.hyper m).image p.size = some buffer := by
    unfold srecBuffer
    rw [hread]
    split
    · rename_i size out hconv
      split_ifs with hfits hsize
      · exact ⟨_, rfl⟩
      · subst hsize
        exact absurd (hrest out hconv) hfits
      · exact ⟨_, rfl⟩
    · exact ⟨_, rfl⟩
  obtain ⟨buffer, hbuffer⟩ := hbuffer
  exact ⟨buffer, fun _ => hbuffer⟩

/-- With a shorter raw image, what stands behind it is programmed. -/
theorem size_of_announced (hcmd : getImageType cmd = some (p, false)) {dev : Device}
    (h : OwnAreaOnly record heap beyond dev cmd p false b) (hc : Complete p b.io b.pos) :
    p.size ≤ b.imageSize.toNat := by
  by_contra hlt
  rw [Nat.not_le] at hlt
  let off := b.session.bufAddr + b.imageSize.toNat
  let m' : Mem := Function.update b.session.mem off (b.session.mem off + 1)
  have hm' : b.Holds m' := fun i hi => Function.update_of_ne (by omega) _ _
  have hself : b.Holds b.session.mem := fun _ _ => rfl
  obtain ⟨b1, hrun1, hhyper1⟩ := flashed_raw hcmd dev hc (fun _ _ => none) b.hyper b.session.mem
  obtain ⟨b2, hrun2, hhyper2⟩ := flashed_raw hcmd dev hc (fun _ _ => none) b.hyper m'
  have hsame := h.announced (fun _ _ => none) b.hyper b.session.mem m' hself hm'
  rw [hrun1, hrun2, hhyper1, hhyper2] at hsame
  have hbyte := congrFun hsame (p.startAddr + b.imageSize.toNat)
  rw [Mem.copy_add _ _ _ _ _ _ hlt, Mem.copy_add _ _ _ _ _ _ hlt, Nat.zero_add] at hbyte
  have hupdate : m' off = b.session.mem off + 1 := Function.update_self ..
  change b.session.mem off = m' off at hbyte
  rw [hupdate] at hbyte
  simp at hbyte

/-- An image name does to the flash what it should if and only if nothing is written at all, or the text
is refused, or every access goes through and the announced bytes are exactly the area or S-records that
end within them. -/
theorem ownArea_iff (record : List UInt8) (heap : Mem) (beyond : ℕ) (dev : Device) {cmd : CStr} {p : ImgParam}
    {srec : Bool} (hcmd : getImageType cmd = some (p, srec)) (b : Board) :
    OwnAreaOnly record heap beyond dev cmd p srec b ↔
      Untouched b.io b.pos ∨ srec = true ∧ Refused record beyond p b.text ∨
        Exact record p srec b ∧ Complete p b.io b.pos := by
  constructor
  · intro h
    refine or_iff_not_imp_left.mpr fun htouched => ?_
    cases srec with
    | false =>
      have hself : b.Holds b.session.mem := fun _ _ => rfl
      obtain ⟨hc, image, himage, hfits⟩ :=
        complete_of_ownArea hcmd h htouched (fun _ _ => none) b.image hself fun _ => rfl
      cases himage
      have hle : b.imageSize.toNat ≤ p.size := by simpa [Board.text] using hfits
      exact Or.inr ⟨le_antisymm hle (size_of_announced hcmd h hc), hc⟩
    | true =>
      refine or_iff_not_imp_left.mpr fun hrefused => ?_
      obtain ⟨m, hm, buffer, hbuffer⟩ := exists_buffer heap fun h => hrefused ⟨rfl, h⟩
      obtain ⟨hc, image, himage, -⟩ :=
        complete_of_ownArea hcmd h htouched _ buffer hm fun hyper => (if_pos rfl).trans (hbuffer hyper)
      exact ⟨Option.isSome_iff_exists.mpr ⟨image, himage⟩, hc⟩
  · rintro (h | ⟨rfl, h⟩ | ⟨hexact, hc⟩)
    · exact ownArea_of_untouched hcmd dev h
    · exact ownArea_of_refused hcmd dev h
    · exact ownArea_of_exact hcmd dev hexact hc

def bl2Param : ImgParam := ⟨ascii "bl2", 0x140000, 1⟩

/-- `flash:bl2.bin` of an image of `size` bytes. -/
def bl2Board (size : UInt32) : Board :=
  let b := boardOf ⟨FASTBOOT_MAGIC_UNLOCKED, FASTBOOT_MAGIC_UNLOCKED, fun _ => 0, 0⟩ fun _ => smooth
  { b with session := { b.session with imageSize := size } }

theorem bl2_complete (size : UInt32) : Complete bl2Param (bl2Board size).io (bl2Board size).pos :=
  ⟨rfl, rfl, rfl, fun _ _ => rfl⟩

/-- A full sector of `bl2` is programmed as it has been downloaded. -/
theorem fullSector_ownArea :
    OwnAreaOnly [] (fun _ => 0) 4096 plainDevice (ascii "bl2.bin") bl2Param false (bl2Board 0x40000) :=
  (ownArea_iff [] (fun _ => 0) 4096 plainDevice (by rfl) (bl2Board 0x40000)).mpr
    (Or.inr (Or.inr ⟨rfl, bl2_complete 0x40000⟩))

/-- Of a page of `bl2`, 252 KiB more than the page go to the flash. -/
theorem onePage_not_ownArea : ¬ ∀ (record : List UInt8) (heap : Mem) (beyond : ℕ) (dev : Device) (cmd : CStr)
    (p : ImgParam) (srec : Bool) (b : Board), getImageType cmd = some (p, srec) →
      OwnAreaOnly record heap beyond dev cmd p srec b := by
  intro h
  have hcmd : getImageType (ascii "bl2.bin") = some (bl2Param, false) := by rfl
  have hown := h [] (fun _ => 0) 4096 plainDevice (ascii "bl2.bin") bl2Param false (bl2Board 4096) hcmd
  exact absurd (size_of_announced hcmd hown (bl2_complete 4096)) (by decide)

end

end RCar.Fastboot
