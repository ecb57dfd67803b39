import RCarM3N.Lib.Search
import RCarM3N.Proofs.IoInit

/-! The files that can be opened once the image tables are loaded, against the boot header
that they were loaded from. -/

namespace RCar.Bl2

open Prog

variable {s t u : IoState} {dev : Dev} {build : BuildOptions}

/-- The image with this name. -/
def imageNamed (name : ℤ) : Option NameOffset := nameOffset.find? fun e => e.name = name

/-- The certificate with this name. -/
def certificateNamed (name : ℤ) : Option NameOffset := certOffset.find? fun e => e.name = name

/-- What the boot header at byte `off` of `m` says about a name: an image that is among the
loaded entries, or a certificate. -/
def fileOf (build : BuildOptions) (boot : ℕ) (m : Mem) (off : ℕ) (name : ℤ) : Option FileEntry :=
  match imageNamed name with
  | some e =>
    if e.calcaddr < entriesLoaded (m.le64 off) then
      some
        { offset := m.le64 (off + 8 * (e.calcaddr * 2 + 1))
          cert := RCAR_CERT_SIZE * e.certoff + RCAR_SDRAM_certESS
          noLoad := e.isnoload
          partition := partitionWord build boot m off e.calcaddr }
    else
      none
  | none => (certificateNamed name).map fun e => ⟨0, 0, e.isnoload, 0⟩

/-- The file that an entry opens as: a certificate is not loaded, and BL31 is at least as long
as the trusted SRAM. -/
def openedFile (mem : Mem) (name : ℤ) (f : FileEntry) : RcarFile :=
  if f.noLoad ≠ 0 then
    { position := 0, noLoad := f.noLoad, offset := 1, size := 1, dst := 0, partition := 0 }
  else
    let len := (rcarReadCertificate mem f.cert).1
    { position := 0
      noLoad := f.noLoad
      offset := f.offset
      size := if name = BL31_IMAGE_ID ∧ len < RCAR_TRUSTED_SRAM_SIZE then RCAR_TRUSTED_SRAM_SIZE
        else len
      dst := (rcarReadCertificate mem f.cert).2
      partition := f.partition }

/-- The result of an open by a given entry. -/
def openResult (u : IoState) (name : ℤ) : Option FileEntry → Option ℤ × IoState
  | none => (some IO_FAIL, u)
  | some f => (some IO_SUCCESS, { u with rcar := { u.rcar with
      currentFile := openedFile u.mem name f } })

theorem run_rcarFileOpen (hidle : u.rcar.currentFile.offset = 0) (name : ℤ) :
    (rcarFileOpen name).run u = openResult u name (fileToOffset u name) := by
  unfold rcarFileOpen
  rw [run_bind_get, if_neg (not_not.mpr hidle)]
  rcases fileToOffset u name with _ | f
  · rfl
  · by_cases hno : f.noLoad ≠ 0
    · simp only [if_pos hno, openResult, openedFile]
      rfl
    · simp only [if_neg hno, openResult, openedFile]
      rfl

/-! ## The names -/

theorem find_image {p : NameOffset → Prop} [DecidablePred p] (name : ℤ) :
    (nameOffset.find? fun e => e.name = name ∧ p e) = (imageNamed name).filter fun e => p e :=
  Search.find_and NameOffset.name (by decide) name

/-- No certificate has the name of an image. -/
theorem certificateNamed_image {name : ℤ} {e : NameOffset} (h : imageNamed name = some e) :
    certificateNamed name = none := by
  have hdisjoint : ∀ c ∈ certOffset, ∀ e ∈ nameOffset, c.name ≠ e.name := by decide
  have hname : e.name = name := by simpa using List.find?_some h
  refine List.find?_eq_none.mpr fun c hc => ?_
  have hne := hdisjoint c hc e (List.mem_of_find?_eq_some h)
  simpa [hname] using hne

theorem image_facts {name : ℤ} {e : NameOffset} (h : imageNamed name = some e) :
    e.certoff = e.calcaddr ∧ e.calcaddr < RCAR_MAX_BL3X_IMAGE + 2 := by
  have hall : ∀ e ∈ nameOffset, e.certoff = e.calcaddr ∧ e.calcaddr < RCAR_MAX_BL3X_IMAGE + 2 := by
    decide
  exact hall e (List.mem_of_find?_eq_some h)

/-- The entry that the tables of `u` have for an image. -/
def imageEntry (u : IoState) (e : NameOffset) : FileEntry where
  offset := u.rcar.imageHeader e.calcaddr
  cert := RCAR_CERT_SIZE * e.certoff + RCAR_SDRAM_certESS
  noLoad := e.isnoload
  partition := u.rcar.imageHeaderPrttn e.calcaddr

/-- The bound lets an index pass that is one too large. -/
theorem fileToOffset_image {name : ℤ} {e : NameOffset} (h : imageNamed name = some e) (u : IoState) :
    fileToOffset u name =
      if e.calcaddr ≤ entriesLoaded u.rcar.imageNumber then some (imageEntry u e) else none := by
  have hcert : (certOffset.find? fun c => c.name = name) = none := certificateNamed_image h
  unfold fileToOffset
  rw [find_image, h, Option.filter_some, hcert]
  by_cases hle : e.calcaddr ≤ entriesLoaded u.rcar.imageNumber
  · have hnot : ¬ (u.rcar.imageNumber + 2) % 2 ^ 64 < e.calcaddr := not_lt.mpr hle
    rw [if_pos hle, if_pos (decide_eq_true hnot)]
    rfl
  · have hlt : (u.rcar.imageNumber + 2) % 2 ^ 64 < e.calcaddr := not_le.mp hle
    rw [if_neg hle, if_neg (by simpa using hlt)]

theorem fileToOffset_certificate {name : ℤ} (h : imageNamed name = none) (u : IoState) :
    fileToOffset u name = (certificateNamed name).map fun e => ⟨0, 0, e.isnoload, 0⟩ := by
  unfold fileToOffset
  rw [find_image, h, Option.filter_none]
  have hcert : (certOffset.find? fun e => e.name = name) = certificateNamed name := rfl
  rw [hcert]
  rcases certificateNamed name with _ | c <;> rfl

/-! ## The boot header and the tables -/

/-- The certificate of image `i` on the medium is the one at `cert`. -/
def CertificateAt (m : Mem) (off i : ℕ) (mem : Mem) (cert : ℕ) : Prop :=
  ∀ a < RCAR_CERT_SIZE, mem (cert + a) = m (off + RCAR_SECTOR6_CERT_OFFSET + RCAR_CERT_SIZE * i + a)

/-- The tables and the certificates of `u` are those of `s'`. -/
structure SameTables (s' u : IoState) : Prop where
  number : u.rcar.imageNumber = s'.rcar.imageNumber
  header : u.rcar.imageHeader = s'.rcar.imageHeader
  prttn : u.rcar.imageHeaderPrttn = s'.rcar.imageHeaderPrttn
  certs : ∀ a < RCAR_CERT_SIZE * (RCAR_MAX_BL3X_IMAGE + 2),
    u.mem (RCAR_SDRAM_certESS + a) = s'.mem (RCAR_SDRAM_certESS + a)

/-- What a first successful call has loaded; the certificates only come with a count in range. -/
theorem rcarDevInit_loaded {s' : IoState} (hbuf : HeaderBuffer s.headerAddr)
    (hfresh : s.rcar.certLoad = false)
    (hrun : (rcarDevInit build dev).run s = (some IO_SUCCESS, s')) :
    LoadedEntries build s.card.bootPartition (medium s dev) (headerOffset build dev) s' ∧
      (InRange (headerCount build dev s) → LoadedFrom build s.card.bootPartition (medium s dev)
        (headerOffset build dev) s') := by
  by_cases hread : HeaderRead dev s
  · by_cases hrange : InRange (headerCount build dev s)
    · obtain ⟨rc, t, hrun', -, hok, -⟩ := run_rcarDevInit_inRange build hbuf hread hrange
      obtain rfl : s' = t := congrArg Prod.snd (hrun.symm.trans hrun')
      obtain rfl : IO_SUCCESS = rc :=
        Option.some.inj (congrArg Prod.fst (hrun.symm.trans hrun'))
      exact ⟨(hok rfl).toLoadedEntries, fun _ => hok rfl⟩
    · rcases run_rcarDevInit_outOfRange build hbuf hread hrange with hnone | ⟨t, hrun', hloaded, -⟩
      · rw [hrun] at hnone
        cases hnone
      · obtain rfl : s' = t := congrArg Prod.snd (hrun.symm.trans hrun')
        exact ⟨hloaded, fun h => absurd h hrange⟩
  · obtain ⟨rc, t, hrun', -, hok, -⟩ := run_rcarDevInit_notRead build hbuf hread
    obtain rfl : IO_SUCCESS = rc := Option.some.inj (congrArg Prod.fst (hrun.symm.trans hrun'))
    have hcert := (hok rfl).1
    rw [hfresh] at hcert
    cases hcert

/-- The name opens as what the boot header says about it, and an image with its own certificate. -/
structure OpensAs (build : BuildOptions) (boot : ℕ) (m : Mem) (off : ℕ) (u : IoState) (name : ℤ) :
    Prop where
  found : fileToOffset u name = fileOf build boot m off name
  opened : (rcarFileOpen name).run u = openResult u name (fileOf build boot m off name)
  certificate : ∀ e f, imageNamed name = some e → fileOf build boot m off name = some f →
    CertificateAt m off e.calcaddr u.mem f.cert

/-- The tables agree with the boot header on the entries that are loaded. -/
theorem imageEntry_loaded {boot off : ℕ} {m : Mem} {s' : IoState} {e : NameOffset}
    (hloaded : LoadedEntries build boot m off s') (hsame : SameTables s' u)
    (hlt : e.calcaddr < entriesLoaded (m.le64 off)) :
    imageEntry u e =
      { offset := m.le64 (off + 8 * (e.calcaddr * 2 + 1))
        cert := RCAR_CERT_SIZE * e.certoff + RCAR_SDRAM_certESS
        noLoad := e.isnoload
        partition := partitionWord build boot m off e.calcaddr } := by
  rw [← hloaded.number] at hlt
  rw [imageEntry, hsame.header, hsame.prttn, hloaded.header _ hlt, hloaded.prttn _ hlt]

theorem fileOf_image {name : ℤ} {e : NameOffset} (h : imageNamed name = some e)
    {boot off : ℕ} {m : Mem} (hlt : e.calcaddr < entriesLoaded (m.le64 off)) :
    fileOf build boot m off name = some
      { offset := m.le64 (off + 8 * (e.calcaddr * 2 + 1))
        cert := RCAR_CERT_SIZE * e.certoff + RCAR_SDRAM_certESS
        noLoad := e.isnoload
        partition := partitionWord build boot m off e.calcaddr } := by
  unfold fileOf
  rw [h]
  exact if_pos hlt

theorem fileOf_beyond {name : ℤ} {e : NameOffset} (h : imageNamed name = some e)
    {boot off : ℕ} {m : Mem} (hle : entriesLoaded (m.le64 off) ≤ e.calcaddr) :
    fileOf build boot m off name = none := by
  unfold fileOf
  rw [h]
  exact if_neg (not_lt.mpr hle)

/-- The table search answers as the boot header, apart from the entry after the last one. -/
theorem fileToOffset_eq_iff {boot off : ℕ} {m : Mem} {s' : IoState}
    (hloaded : LoadedEntries build boot m off s') (hsame : SameTables s' u) (name : ℤ) :
    fileToOffset u name = fileOf build boot m off name ↔
      ∀ e, imageNamed name = some e → e.calcaddr ≠ entriesLoaded (m.le64 off) := by
  have hnumber : entriesLoaded u.rcar.imageNumber = entriesLoaded (m.le64 off) := by
    rw [hsame.number, hloaded.number]
  rcases hname : imageNamed name with _ | e
  · rw [fileToOffset_certificate hname, fileOf, hname]
    simp
  · rw [fileToOffset_image hname, hnumber]
    rcases lt_trichotomy e.calcaddr (entriesLoaded (m.le64 off)) with hlt | heq | hgt
    · rw [fileOf_image hname hlt, if_pos hlt.le, imageEntry_loaded hloaded hsame hlt]
      simp [hlt.ne]
    · rw [fileOf_beyond hname heq.ge, if_pos heq.le]
      simp [heq]
    · rw [fileOf_beyond hname hgt.le, if_neg (not_le.mpr hgt)]
      simp [hgt.ne']

/-- The certificates of the loaded images are in their slots. -/
theorem certificateAt_loaded {boot off i : ℕ} {m : Mem} {s' : IoState}
    (hloaded : LoadedFrom build boot m off s') (hsame : SameTables s' u)
    (hlt : i < entriesLoaded (m.le64 off)) :
    CertificateAt m off i u.mem (RCAR_CERT_SIZE * i + RCAR_SDRAM_certESS) := by
  have hnumber := hloaded.number
  have hrange := hloaded.range
  unfold InRange RCAR_MAX_BL3X_IMAGE at hrange
  unfold entriesLoaded at hlt
  intro a ha
  unfold RCAR_CERT_SIZE at ha
  have hcerts := hloaded.certs (RCAR_CERT_SIZE * i + a) (by unfold RCAR_CERT_SIZE; omega)
  have hsame' := hsame.certs (RCAR_CERT_SIZE * i + a) (by
    unfold RCAR_CERT_SIZE RCAR_MAX_BL3X_IMAGE
    omega)
  calc u.mem (RCAR_CERT_SIZE * i + RCAR_SDRAM_certESS + a)
      = u.mem (RCAR_SDRAM_certESS + (RCAR_CERT_SIZE * i + a)) := by congr 1; omega
    _ = m (off + RCAR_SECTOR6_CERT_OFFSET + (RCAR_CERT_SIZE * i + a)) := hsame'.trans hcerts
    _ = m (off + RCAR_SECTOR6_CERT_OFFSET + RCAR_CERT_SIZE * i + a) := by rw [← Nat.add_assoc]

/-- A name opens as the boot header says if and only if it is not that of the image right after
the loaded entries, and, where the count is out of range and no certificate was loaded, the
certificate was there already. -/
theorem rcarFileOpen_exact_iff {s' : IoState} (hbuf : HeaderBuffer s.headerAddr)
    (hfresh : s.rcar.certLoad = false)
    (hinit : (rcarDevInit build dev).run s = (some IO_SUCCESS, s')) (hsame : SameTables s' u)
    (hidle : u.rcar.currentFile.offset = 0) (name : ℤ) :
    OpensAs build s.card.bootPartition (medium s dev) (headerOffset build dev) u name ↔
      ∀ e, imageNamed name = some e → e.calcaddr ≠ entriesLoaded (headerCount build dev s) ∧
        (e.calcaddr < entriesLoaded (headerCount build dev s) →
          InRange (headerCount build dev s) ∨
            CertificateAt (medium s dev) (headerOffset build dev) e.calcaddr u.mem
              (RCAR_CERT_SIZE * e.calcaddr + RCAR_SDRAM_certESS)) := by
  obtain ⟨hloaded, hrange⟩ := rcarDevInit_loaded hbuf hfresh hinit
  have hfound := fileToOffset_eq_iff hloaded hsame name
  constructor
  · intro h e he
    refine ⟨hfound.mp h.found e he, fun hlt => .inr ?_⟩
    have hcert := h.certificate e _ he (fileOf_image he hlt)
    rwa [(image_facts he).1] at hcert
  · intro h
    have heq := hfound.mpr fun e he => (h e he).1
    refine ⟨heq, ?_, fun e f he hf => ?_⟩
    · rw [run_rcarFileOpen hidle, heq]
    · by_cases hlt : e.calcaddr < entriesLoaded (headerCount build dev s)
      · rw [fileOf_image he hlt] at hf
        obtain rfl := Option.some.inj hf
        rw [(image_facts he).1]
        rcases (h e he).2 hlt with hin | hcert
        · exact certificateAt_loaded (hrange hin) hsame hlt
        · exact hcert
      · rw [fileOf_beyond he (not_lt.mp hlt)] at hf
        cases hf

/-- The state after the initialisation from a header that announces `n` images. -/
def afterInit (n : UInt8) : IoState :=
  ((rcarDevInit emmcBuild .emmcdrv).run (newIo (countHeader n))).2

theorem rcarFileOpen_exact_oneImage :
    OpensAs emmcBuild PARTITION_ID_BOOT_1 (medium (newIo (countHeader 1)) .emmcdrv)
      (headerOffset emmcBuild .emmcdrv) (afterInit 1) BL33_IMAGE_ID := by
  have hinit : (rcarDevInit emmcBuild .emmcdrv).run (newIo (countHeader 1)) =
      (some IO_SUCCESS, afterInit 1) :=
    Prod.ext (by decide +kernel) (by simp only [afterInit])
  refine (rcarFileOpen_exact_iff (headerBuffer_newIo _) rfl hinit
    ⟨rfl, rfl, rfl, fun _ _ => rfl⟩ (by decide +kernel) BL33_IMAGE_ID).mpr fun e he => ?_
  obtain rfl : ⟨BL33_IMAGE_ID, 2, 0, 2⟩ = e := Option.some.inj he
  exact ⟨by decide +kernel, fun _ => .inl (by decide +kernel)⟩

/-- With one image announced, the second BL33 opens from an entry that was not loaded. -/
theorem entry_beyond_opens :
    ((rcarDevInit emmcBuild .emmcdrv).run (newIo (countHeader 1))).1 = some IO_SUCCESS ∧
      fileOf emmcBuild PARTITION_ID_BOOT_1 (medium (newIo (countHeader 1)) .emmcdrv)
        (headerOffset emmcBuild .emmcdrv) BL332_IMAGE_ID = none ∧
      fileToOffset (afterInit 1) BL332_IMAGE_ID =
        some ⟨0, RCAR_CERT_SIZE * 3 + RCAR_SDRAM_certESS, 0, 0⟩ ∧
      ((rcarFileOpen BL332_IMAGE_ID).run (afterInit 1)).1 = some IO_SUCCESS := by
  decide +kernel

end RCar.Bl2
