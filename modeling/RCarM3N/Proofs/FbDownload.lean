import RCarM3N.Lib.Runs
import RCarM3N.Model.FbDownload

/-! What every run of the download machine keeps: the counters within the announced size and the
buffer, the copies within the buffer, and at the end of a download the data that was sent. -/

namespace RCar.Fastboot

variable {others : Handlers} {s t : Session} {p : CStr} {data : List UInt8}

/-! ## The size argument -/

theorem toNat_foldl_digits (l : CStr) (r : UInt64) (n : ℕ) (h : r.toNat = n % 2 ^ 64) :
    (l.foldl (fun r c => r * UInt64.ofNat 16 + UInt64.ofNat (digitValue c)) r).toNat =
      l.foldl (fun n c => n * 16 + digitValue c) n % 2 ^ 64 := by
  induction l generalizing r n with
  | nil => exact h
  | cons c l ih =>
    rw [List.foldl_cons, List.foldl_cons]
    apply ih
    simp [UInt64.toNat_add, UInt64.toNat_mul, h, Nat.add_mod, Nat.mul_mod]

/-- The size that the code expects is the announced one, cut to 32 bits. -/
theorem toNat_expected (p : CStr) :
    ((simpleStrtoul p 16).toUInt32).toNat = hexValue p % 2 ^ 32 := by
  have h : (simpleStrtoul p 16).toNat = hexValue p % 2 ^ 64 := toNat_foldl_digits _ 0 0 rfl
  rw [UInt64.toNat_toUInt32, h]
  exact Nat.mod_mod_of_dvd _ (by decide)

/-! ## The answers -/

theorem not_data_fail (r : CStr) : (ascii "DATA").isPrefixOf (fastbootFail r) = false := by
  unfold fastbootFail fastbootResponse
  rfl

theorem data_response (r : CStr) :
    (ascii "DATA").isPrefixOf (fastbootResponse (ascii "DATA") r) = true := by
  rw [List.isPrefixOf_iff_prefix]
  exact List.prefix_append _ _

theorem Reply.not_data (r : Reply) : (ascii "DATA").isPrefixOf r.response = false := by
  cases r <;> rfl

/-! ## The property -/

/-- The counters are in order and every byte has been stored in the buffer. -/
structure InBounds (s : Session) : Prop where
  received_le : s.bytesReceived ≤ s.bytesExpected
  expected_le : s.bytesExpected ≤ s.bufSize
  stores : ∀ x ∈ s.stores, ∀ i < x.2, ∃ off < s.bufSize.toNat, x.1 + i = s.bufAddr + off

/-- A step that completes a download leaves in the buffer what has been sent, as much as was
announced. -/
def CompletesWith (s t : Session) : Prop :=
  s.completed < t.completed →
    t.mem.read t.bufAddr t.imageSize.toNat = t.chunks.flatten ∧ t.imageSize.toNat = t.announced

def UsbStep (others : Handlers) (s : Session) (e : UsbEvent) (t : Session) : Prop :=
  t = usbStep others s e

/-- The downloads of every run from `s` are sound. -/
def DownloadsSound (others : Handlers) (s : Session) : Prop :=
  ∀ l t, Runs (UsbStep others) s l t → InBounds t ∧ ∀ x ∈ l, CompletesWith x.1 x.2.2

/-- The size argument of the download command that the handler is given, if it is one. -/
def sizeArgument (s : Session) : UsbEvent → Option CStr
  | .setAlt => none
  | .transfer status data =>
    if status = 0 ∧ s.complete = .command ∧ s.length ≠ 0 ∧ UInt32.ofNat data.length < s.length ∧
        findCommand (cstrOf data) = some .DOWNLOAD then
      (strsep (cstrOf data) 58).2
    else none

/-- A size that is named fits the buffer, or is one that reads as zero. -/
def Fits (s : Session) (e : UsbEvent) : Prop :=
  ∀ p, sizeArgument s e = some p → hexValue p ≤ s.bufSize.toNat ∨ hexValue p % 2 ^ 32 = 0

/-! ## The invariant -/

/-- While data is received, what is in the buffer is what was sent. -/
structure Receiving (s : Session) : Prop where
  expected : s.bytesExpected.toNat = s.announced
  content : s.mem.read s.bufAddr s.bytesReceived.toNat = s.chunks.flatten
  remaining : s.bytesReceived < s.bytesExpected

structure Inv (s : Session) : Prop extends InBounds s where
  receiving : s.complete = .dlImage → Receiving s

theorem inv_init (bufAddr : ℕ) (bufSize maxpacket : UInt32) (mem : Mem) :
    Inv (fastbootInit bufAddr bufSize maxpacket mem) where
  received_le := UInt32.le_refl _
  expected_le := UInt32.zero_le
  stores := by simp [fastbootInit]
  receiving := by simp [fastbootInit]

/-- The cases of a download command: no argument, a size that is refused, one that is accepted. -/
theorem download_cases (cmd : CStr) (s : Session) :
    ((strsep cmd 58).2 = none ∧
      ∃ r, download cmd s = (s, r) ∧ (ascii "DATA").isPrefixOf r = false) ∨
    ∃ p, (strsep cmd 58).2 = some p ∧
      (((simpleStrtoul p 16).toUInt32 = 0 ∨ s.bufSize < (simpleStrtoul p 16).toUInt32) ∧
        (∃ r, download cmd s = ({ s with
          bytesReceived := 0
          bytesExpected := (simpleStrtoul p 16).toUInt32 }, r) ∧
          (ascii "DATA").isPrefixOf r = false) ∨
      (simpleStrtoul p 16).toUInt32 ≠ 0 ∧ (simpleStrtoul p 16).toUInt32 ≤ s.bufSize ∧
        ∃ r, download cmd s = ({ s with
          bytesReceived := 0
          bytesExpected := (simpleStrtoul p 16).toUInt32
          announced := hexValue p
          chunks := [] }, r) ∧ (ascii "DATA").isPrefixOf r = true) := by
  unfold download
  cases (strsep cmd 58).2 with
  | none => exact .inl ⟨rfl, _, rfl, not_data_fail _⟩
  | some p =>
    refine .inr ⟨p, rfl, ?_⟩
    dsimp only
    by_cases h0 : (simpleStrtoul p 16).toUInt32 = 0
    · rw [if_pos h0]
      exact .inl ⟨.inl h0, _, rfl, not_data_fail _⟩
    · rw [if_neg h0]
      by_cases hbig : (simpleStrtoul p 16).toUInt32 > s.bufSize
      · rw [if_pos hbig]
        exact .inl ⟨.inr hbig, _, rfl, not_data_fail _⟩
      · rw [if_neg hbig]
        exact .inr ⟨h0, UInt32.not_lt.mp hbig, _, rfl, data_response _⟩

/-- What a command leaves behind: a download is under way only where the answer says so. -/
structure Answered (s : Session) (r : Session × CStr) : Prop where
  inBounds : InBounds r.1
  completed : r.1.completed = s.completed
  complete : r.1.complete = .command
  receiving : (ascii "DATA").isPrefixOf r.2 = true → Receiving r.1

/-- An answer other than DATA to a command that leaves the counters alone. -/
theorem answered_other (hs : Inv s) (hc : s.complete = .command) (mem : Mem) {r : CStr}
    (hr : (ascii "DATA").isPrefixOf r = false) : Answered s ({ s with mem := mem }, r) where
  inBounds := ⟨hs.received_le, hs.expected_le, hs.stores⟩
  completed := rfl
  complete := hc
  receiving h := by rw [hr] at h; cases h

theorem download_answered (hs : Inv s) (hc : s.complete = .command) (data : CStr)
    (hfit : ∀ p, (strsep data 58).2 = some p →
      hexValue p ≤ s.bufSize.toNat ∨ hexValue p % 2 ^ 32 = 0) :
    Answered s (download data s) := by
  rcases download_cases data s with
    ⟨-, r, hd, hr⟩ | ⟨p, hp, ⟨hbad, r, hd, hr⟩ | ⟨h0, hle, r, hd, -⟩⟩
  · rw [hd]
    exact answered_other hs hc s.mem hr
  · -- a size that fits is refused only where it reads as zero
    have hzero : (simpleStrtoul p 16).toUInt32 = 0 := by
      rcases hbad with h | h
      · exact h
      · rw [UInt32.lt_iff_toNat_lt, toNat_expected] at h
        apply UInt32.toNat_inj.mp
        rw [toNat_expected]
        rcases hfit p hp with hf | hf
        · exact absurd h (Nat.not_lt.mpr ((Nat.mod_le _ _).trans hf))
        · exact hf
    rw [hd, hzero]
    exact ⟨⟨UInt32.le_refl _, UInt32.zero_le, hs.stores⟩, rfl, hc, fun h => by rw [hr] at h; cases h⟩
  · have hexp : (simpleStrtoul p 16).toUInt32.toNat = hexValue p := by
      rw [toNat_expected]
      rcases hfit p hp with hf | hf
      · exact Nat.mod_eq_of_lt (hf.trans_lt s.bufSize.toNat_lt)
      · refine absurd (UInt32.toNat_inj.mp ?_) h0
        rw [toNat_expected]
        exact hf
    rw [hd]
    refine ⟨⟨UInt32.zero_le, hle, hs.stores⟩, rfl, hc, fun _ => ⟨hexp, rfl, ?_⟩⟩
    exact UInt32.pos_iff_ne_zero.mpr h0

theorem handleCommand_answered (hs : Inv s) (hc : s.complete = .command)
    (hfit : findCommand data = some .DOWNLOAD → ∀ p, (strsep data 58).2 = some p →
      hexValue p ≤ s.bufSize.toNat ∨ hexValue p % 2 ^ 32 = 0) :
    Answered s (fastbootHandleCommand others data s) := by
  unfold fastbootHandleCommand
  split
  · exact answered_other hs hc s.mem (not_data_fail _)
  · exact download_answered hs hc data (hfit ‹_›)
  · exact answered_other hs hc _ (Reply.not_data _)

theorem command_keeps (hs : Inv s) (hc : s.complete = .command)
    (hfit : UInt32.ofNat data.length < s.length → findCommand (cstrOf data) = some .DOWNLOAD →
      ∀ p, (strsep (cstrOf data) 58).2 = some p →
        hexValue p ≤ s.bufSize.toNat ∨ hexValue p % 2 ^ 32 = 0) :
    Inv (rxHandlerCommand others data s) ∧
      (rxHandlerCommand others data s).completed = s.completed := by
  obtain ⟨r, hr⟩ : ∃ r, r = (if UInt32.ofNat data.length < s.length then
      fastbootHandleCommand others (cstrOf data) s
    else (s, fastbootFail (ascii "buffer overflow"))) := ⟨_, rfl⟩
  have h : Answered s r := by
    rw [hr]
    split
    · exact handleCommand_answered hs hc (hfit ‹_›)
    · exact answered_other hs hc s.mem (not_data_fail _)
  unfold rxHandlerCommand
  rw [← hr]
  dsimp only
  split
  · rename_i hdata
    obtain ⟨hexp, hcontent, hremaining⟩ := h.receiving hdata
    exact ⟨⟨⟨h.inBounds.received_le, h.inBounds.expected_le, h.inBounds.stores⟩,
      fun _ => ⟨hexp, hcontent, hremaining⟩⟩, h.completed⟩
  · exact ⟨⟨h.inBounds, fun hdl => by rw [h.complete] at hdl; cases hdl⟩, h.completed⟩

/-! ## The data -/

theorem toNat_remaining (h : s.bytesReceived ≤ s.bytesExpected) :
    (fastbootDataRemaining s).toNat = s.bytesExpected.toNat - s.bytesReceived.toNat :=
  UInt32.toNat_sub_of_le _ _ h

/-- What the handler passes on is not longer than what remains, and its length fits a word. -/
theorem transfer_length (x : UInt32) (data : List UInt8) :
    UInt32.ofNat (data.take (min x (UInt32.ofNat data.length)).toNat).length =
      min x (UInt32.ofNat data.length) := by
  have hle : (min x (UInt32.ofNat data.length)).toNat ≤ data.length := by
    rw [toNat_min32]
    exact (min_le_right _ _).trans (Nat.mod_le _ _)
  rw [List.length_take, Nat.min_eq_left hle]
  exact UInt32.ofNat_toNat

/-- A chunk is refused where it is empty, and stored where it is not longer than what remains. -/
theorem dataDownload_cases (hs : s.bytesReceived ≤ s.bytesExpected)
    (hlen : UInt32.ofNat data.length ≤ fastbootDataRemaining s) :
    (fastbootDataDownload data s = (s, fastbootFail (ascii "Received invalid data length"))) ∨
    ((UInt32.ofNat data.length) ≠ 0 ∧ fastbootDataDownload data s =
      ({ s with
          mem := s.mem.copy (s.bufAddr + s.bytesReceived.toNat) (Mem.ofList data) 0
            (UInt32.ofNat data.length).toNat
          bytesReceived := s.bytesReceived + UInt32.ofNat data.length
          chunks := s.chunks ++ [data]
          stores := (s.bufAddr + s.bytesReceived.toNat, (UInt32.ofNat data.length).toNat) ::
            s.stores }, [])) := by
  unfold fastbootDataDownload
  dsimp only
  by_cases h0 : UInt32.ofNat data.length = 0
  · exact .inl (if_pos (.inl h0))
  · refine .inr ⟨h0, if_neg ?_⟩
    rintro (h | h)
    · exact h0 h
    · -- the sum does not wrap
      rw [UInt32.le_iff_toNat_le, toNat_remaining hs] at hlen
      have := UInt32.le_iff_toNat_le.mp hs
      have := s.bytesExpected.toNat_lt
      rw [gt_iff_lt, UInt32.lt_iff_toNat_lt, UInt32.toNat_add] at h
      omega

/-- A chunk that is stored: the buffer holds what was sent so far. -/
theorem stored_keeps (hs : Inv s) (hr : Receiving s) (hlen : data.length < 2 ^ 32)
    (hle : UInt32.ofNat data.length ≤ fastbootDataRemaining s) (u : Session)
    (hu : u = { s with
      mem := s.mem.copy (s.bufAddr + s.bytesReceived.toNat) (Mem.ofList data) 0
        (UInt32.ofNat data.length).toNat
      bytesReceived := s.bytesReceived + UInt32.ofNat data.length
      chunks := s.chunks ++ [data]
      stores := (s.bufAddr + s.bytesReceived.toNat, (UInt32.ofNat data.length).toNat) ::
        s.stores }) :
    InBounds u ∧ u.bytesExpected.toNat = u.announced ∧
      u.mem.read u.bufAddr u.bytesReceived.toNat = u.chunks.flatten := by
  have hn : (UInt32.ofNat data.length).toNat = data.length := Nat.mod_eq_of_lt hlen
  rw [UInt32.le_iff_toNat_le, toNat_remaining hs.received_le, hn] at hle
  have hrle := UInt32.le_iff_toNat_le.mp hs.received_le
  have hele := UInt32.le_iff_toNat_le.mp hs.expected_le
  have hexp := s.bytesExpected.toNat_lt
  have hsum : (s.bytesReceived + UInt32.ofNat data.length).toNat =
      s.bytesReceived.toNat + data.length := by
    rw [UInt32.toNat_add, hn]
    omega
  subst hu
  refine ⟨⟨?_, hs.expected_le, ?_⟩, hr.expected, ?_⟩
  · rw [UInt32.le_iff_toNat_le]
    dsimp only
    omega
  · intro x hx i hi
    rcases List.mem_cons.mp hx with rfl | hx
    · dsimp only at hi ⊢
      exact ⟨s.bytesReceived.toNat + i, by omega, by omega⟩
    · exact hs.stores x hx i hi
  · dsimp only
    rw [hsum, hn, Mem.read_append, Mem.read_copy_out _ _ _ _ _ _ _ (.inl (le_refl _)), hr.content,
      Mem.read_copy_ofList]
    simp

theorem dlImage_keeps (hs : Inv s) (hc : s.complete = .dlImage) (data : List UInt8) :
    Inv (rxHandlerDlImage data s) ∧ CompletesWith s (rxHandlerDlImage data s) := by
  have hr := hs.receiving hc
  obtain ⟨chunk, hchunk⟩ : ∃ chunk, chunk = data.take
      (min (fastbootDataRemaining s) (UInt32.ofNat data.length)).toNat := ⟨_, rfl⟩
  have hofNat := transfer_length (fastbootDataRemaining s) data
  rw [← hchunk] at hofNat
  have hlt : chunk.length < 2 ^ 32 := by
    rw [hchunk, List.length_take]
    exact (min_le_left _ _).trans_lt (UInt32.toNat_lt _)
  have hle : UInt32.ofNat chunk.length ≤ fastbootDataRemaining s := by
    rw [hofNat, UInt32.le_iff_toNat_le, toNat_min32]
    exact min_le_left _ _
  unfold rxHandlerDlImage
  dsimp only
  rw [← hchunk]
  rcases dataDownload_cases hs.received_le hle with hd | ⟨-, hd⟩
  · rw [hd, if_pos (show fastbootFail (ascii "Received invalid data length") ≠ [] by simp
      [fastbootFail, fastbootResponse, ascii])]
    exact ⟨hs, fun h => absurd h (lt_irrefl _)⟩
  · obtain ⟨u, hu⟩ : ∃ u, u = { s with
        mem := s.mem.copy (s.bufAddr + s.bytesReceived.toNat) (Mem.ofList chunk) 0
          (UInt32.ofNat chunk.length).toNat
        bytesReceived := s.bytesReceived + UInt32.ofNat chunk.length
        chunks := s.chunks ++ [chunk]
        stores := (s.bufAddr + s.bytesReceived.toNat, (UInt32.ofNat chunk.length).toNat) ::
          s.stores } := ⟨_, rfl⟩
    obtain ⟨hb, hexp, hcontent⟩ := stored_keeps hs hr hlt hle u hu
    have hdone : u.completed = s.completed := by rw [hu]
    rw [hd, ← hu]
    dsimp only
    rw [if_neg (not_not.mpr rfl)]
    have hrem := toNat_remaining hb.received_le
    have hrle := UInt32.le_iff_toNat_le.mp hb.received_le
    by_cases h0 : fastbootDataRemaining u = 0
    · rw [if_pos h0]
      rw [h0, UInt32.toNat_zero] at hrem
      have heq : u.bytesReceived.toNat = u.bytesExpected.toNat := by omega
      refine ⟨⟨⟨UInt32.le_refl _, UInt32.zero_le, hb.stores⟩, fun h => by cases h⟩, fun _ => ?_⟩
      exact ⟨hcontent, heq.trans hexp⟩
    · rw [if_neg h0]
      refine ⟨⟨⟨hb.received_le, hb.expected_le, hb.stores⟩, fun _ => ⟨hexp, hcontent, ?_⟩⟩,
        fun h => absurd h (by dsimp only; rw [hdone]; exact lt_irrefl _)⟩
      have hne : (fastbootDataRemaining u).toNat ≠ 0 := fun h => h0 (UInt32.toNat_inj.mp h)
      rw [UInt32.lt_iff_toNat_lt]
      dsimp only
      omega

/-! ## Runs -/

theorem usbStep_keeps (hs : Inv s) {e : UsbEvent} (hfit : Fits s e) :
    Inv (usbStep others s e) ∧ CompletesWith s (usbStep others s e) := by
  have hsame : ∀ {u : Session}, Inv u → u.completed = s.completed → Inv u ∧ CompletesWith s u :=
    fun hu h => ⟨hu, fun hlt => absurd hlt (by rw [h]; exact lt_irrefl _)⟩
  cases e with
  | setAlt =>
    exact hsame ⟨⟨hs.received_le, hs.expected_le, hs.stores⟩, fun h => by cases h⟩ rfl
  | transfer status data =>
    unfold usbStep
    dsimp only
    by_cases hstatus : status = 0
    · rw [if_neg (not_not.mpr hstatus)]
      cases hc : s.complete with
      | command =>
        dsimp only
        by_cases hl : s.length = 0
        · rw [if_pos hl]
          exact hsame hs rfl
        · rw [if_neg hl]
          obtain ⟨hinv, hdone⟩ : Inv (rxHandlerCommand others data s) ∧ _ := command_keeps hs hc
            fun hlen hfind p hp => hfit p (by
              unfold sizeArgument
              exact (if_pos ⟨hstatus, hc, hl, hlen, hfind⟩).trans hp)
          exact hsame hinv hdone
      | dlImage => exact dlImage_keeps hs hc data
    · rw [if_pos hstatus]
      exact hsame hs rfl

/-- The condition is exact: a size that does not fit breaks the invariant. -/
theorem fits_of_inv {e : UsbEvent} (h : Inv (usbStep others s e)) : Fits s e := by
  intro p hp
  cases e with
  | setAlt => cases hp
  | transfer status data =>
    by_cases hc : status = 0 ∧ s.complete = .command ∧ s.length ≠ 0 ∧
        UInt32.ofNat data.length < s.length ∧ findCommand (cstrOf data) = some .DOWNLOAD
    · obtain ⟨hstatus, hcommand, hl, hlen, hfind⟩ := hc
      unfold sizeArgument at hp
      dsimp only at hp
      rw [if_pos ⟨hstatus, hcommand, hl, hlen, hfind⟩] at hp
      unfold usbStep at h
      dsimp only at h
      rw [if_neg (not_not.mpr hstatus), hcommand] at h
      dsimp only at h
      unfold rxHandlerCommand fastbootHandleCommand at h
      rw [if_neg hl, if_pos hlen, hfind] at h
      dsimp only at h
      rcases download_cases (cstrOf data) s with
        ⟨hnone, -⟩ | ⟨q, hq, ⟨hbad, r, hd, hr⟩ | ⟨-, hle, r, hd, hr⟩⟩
      · rw [hnone] at hp
        cases hp
      · obtain rfl := Option.some.inj (hq.symm.trans hp)
        rw [hd] at h
        dsimp only at h
        rw [if_neg (by rw [hr]; exact Bool.false_ne_true)] at h
        rcases hbad with h0 | hbig
        · exact .inr ((toNat_expected q).symm.trans (congrArg UInt32.toNat h0))
        · exact absurd hbig (UInt32.not_lt.mpr h.expected_le)
      · obtain rfl := Option.some.inj (hq.symm.trans hp)
        rw [hd] at h
        dsimp only at h
        rw [if_pos hr] at h
        have hexp : (simpleStrtoul q 16).toUInt32.toNat = hexValue q := (h.receiving rfl).expected
        exact .inl (hexp.symm.trans_le (UInt32.le_iff_toNat_le.mp hle))
    · unfold sizeArgument at hp
      dsimp only at hp
      rw [if_neg hc] at hp
      cases hp

theorem inv_of_runs {l : List (Session × UsbEvent × Session)} (h : Runs (UsbStep others) s l t)
    (hs : Inv s) (hfit : ∀ x ∈ l, Fits x.1 x.2.1) : Inv t ∧ ∀ x ∈ l, CompletesWith x.1 x.2.2 := by
  induction h with
  | nil s => exact ⟨hs, by simp⟩
  | cons hstep hl ih =>
    obtain ⟨hfit1, hfits⟩ := List.forall_mem_cons.mp hfit
    obtain rfl := hstep
    obtain ⟨hinv, hdone⟩ := usbStep_keeps hs hfit1
    obtain ⟨ht, hall⟩ := ih hinv hfits
    exact ⟨ht, List.forall_mem_cons.mpr ⟨hdone, hall⟩⟩

/-- The downloads are sound in every run in which each size that is named fits the buffer. -/
theorem downloads_sound {bufAddr : ℕ} {bufSize maxpacket : UInt32} {mem : Mem}
    {l : List (Session × UsbEvent × Session)}
    (h : Runs (UsbStep others) (fastbootInit bufAddr bufSize maxpacket mem) l t)
    (hfit : ∀ x ∈ l, Fits x.1 x.2.1) : InBounds t ∧ ∀ x ∈ l, CompletesWith x.1 x.2.2 := by
  obtain ⟨ht, hall⟩ := inv_of_runs h (inv_init bufAddr bufSize maxpacket mem) hfit
  exact ⟨ht.toInBounds, hall⟩

/-- A board that has just entered fastboot, with handlers that answer nothing. -/
def freshSession : Session := fastbootInit 0x4D000000 0x2000000 512 fun _ => 0

def silentHandlers : Handlers := fun _ _ mem => (mem, .silent)

def announcing (cmd : String) : Session :=
  usbStep silentHandlers freshSession (.transfer 0 (ascii cmd))

def sending (cmd : String) : Session :=
  usbStep silentHandlers (announcing cmd) (.transfer 0 [1, 2, 3, 4])

theorem downloads_sound_four : InBounds (sending "download:4") ∧
    CompletesWith (announcing "download:4") (sending "download:4") ∧
    (sending "download:4").completed = 1 := by
  have hfit : Fits freshSession (.transfer 0 (ascii "download:4")) := by
    intro p hp
    have h : sizeArgument freshSession (.transfer 0 (ascii "download:4")) = some (ascii "4") := by
      decide +kernel
    obtain rfl := Option.some.inj (h.symm.trans hp)
    exact .inl (by decide +kernel)
  have hdata : Fits (announcing "download:4") (.transfer 0 [1, 2, 3, 4]) := by
    intro p hp
    have h : sizeArgument (announcing "download:4") (.transfer 0 [1, 2, 3, 4]) = none := by
      decide +kernel
    rw [h] at hp
    cases hp
  obtain ⟨hb, hall⟩ : InBounds (sending "download:4") ∧ ∀ x ∈
      [(freshSession, UsbEvent.transfer 0 (ascii "download:4"), announcing "download:4"),
        (announcing "download:4", .transfer 0 [1, 2, 3, 4], sending "download:4")],
      CompletesWith x.1 x.2.2 :=
    downloads_sound (.cons rfl (.cons rfl (.nil _))) (by simpa using ⟨hfit, hdata⟩)
  exact ⟨hb, hall _ (List.mem_cons_of_mem _ List.mem_cons_self), by decide +kernel⟩

/-- A size that is refused stays expected, and one of more than 32 bits is taken for another. -/
theorem oversize_stays_expected : ¬ DownloadsSound silentHandlers freshSession ∧
    ∃ l, Runs (UsbStep silentHandlers) freshSession l (sending "download:100000004") ∧
      (sending "download:100000004").completed = 1 ∧
      (sending "download:100000004").announced = 0x100000004 ∧
      (sending "download:100000004").imageSize = 4 := by
  refine ⟨fun h => ?_, _, .cons rfl (.cons rfl (.nil _)), by decide +kernel, by decide +kernel,
    by decide +kernel⟩
  have hexp := (h _ (announcing "download:ffffffff") (.cons rfl (.nil _))).1.expected_le
  exact absurd hexp (by decide +kernel)

end RCar.Fastboot
