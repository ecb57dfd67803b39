import RCarM3N.Model.FbCommand
import RCarM3N.Proofs.Srec

/-! When `srec_to_bin` stays in its buffers: a condition on each loop that is reached, from the
first line to the last. -/

namespace RCar.Srec

variable {maxbin : UInt32} {record inbuf text buf : List UInt8} {l l' : Loop} {k : ℕ} {r : Record}
  {i : Iteration}

/-! ## Safety -/

/-- The line that the loop reads next, as it then stands in the line buffer. -/
def Reads (l : Loop) (buf : List UInt8) : Prop := ∃ k, readRecord l.record l.inbuf = .ok (some (k, buf))

/-- No access leaves the text, the line buffer or the first `maxbin` bytes of the destination, the
result is at most `maxbin`, and no record that is accepted has a count below zero or above the
data buffer. -/
structure Safe (maxbin : UInt32) (record inbuf : List UInt8) : Prop where
  ends : ∃ size out, srecToBin maxbin record inbuf = some (.done size out) ∧
    out.length ≤ maxbin.toNat ∧ size ≤ maxbin
  counts : ∀ l, Reaches maxbin (start record inbuf) l → ∀ buf, Reads l buf → ∀ r,
    srecDecode buf = .ok r → 0 ≤ r.count ∧ r.count ≤ SREC_MAXBINLEN

/-- What an iteration needs: text that is left, a line buffer that does not end in a record, a count
that covers the address and the checksum, and room for the gap and the data. -/
structure StepOk (maxbin : UInt32) (l : Loop) : Prop where
  text : l.inbuf ≠ []
  whole : ∀ buf, Reads l buf → ¬ Cut buf
  count : ∀ buf, Reads l buf → ∀ r, IsRecord buf r → 0 ≤ r.count
  room : ∀ buf, Reads l buf → ∀ r, IsRecord buf r → IsData r.type →
    l.out.length + (gap l r.addr).toNat + r.data.length ≤ maxbin.toNat

/-! ## Loops that are reached -/

theorem IsRecord.type_ne (h : IsRecord buf r) : r.type ≠ .empty := by
  cases h with
  | mk h hv hcs hwidth hlen => exact (recordType_ne hv).2

/-- A count is a byte less the address and the checksum. -/
theorem IsRecord.count_le (h : IsRecord buf r) : r.count ≤ SREC_MAXBINLEN := by
  cases h with
  | @mk pre cs rest field data v count type width h hv hcs hwidth hlen =>
    have hbyte := count.toNat_lt
    simp only [dataCount, SREC_MAXBINLEN]
    split <;> omega

theorem IsRecord.data_length (h : IsRecord buf r) (hcount : 0 ≤ r.count) :
    (r.data.length : ℤ) = r.count := by
  cases h with
  | mk h hv hcs hwidth hlen =>
    simp only at hcount ⊢
    omega

/-- The text that is left ends where the whole text does. -/
theorem zero_mem_of_reaches (h : Reaches maxbin (start record (text ++ [0])) l) (hne : l.inbuf ≠ []) :
    (0 : UInt8) ∈ l.inbuf := by
  have hsuffix : ∃ k, l.inbuf = (text ++ [0]).drop k := by
    induction h with
    | refl => exact ⟨0, rfl⟩
    | @tail d d' _ hnext ih =>
      obtain ⟨j, -, hd, hj⟩ := hnext.inbuf
      obtain ⟨k, hk⟩ := ih hd
      exact ⟨k + j, by rw [hj, hk, List.drop_drop]⟩
  obtain ⟨k, hk⟩ := hsuffix
  rw [hk] at hne ⊢
  have hlen : k ≤ text.length := by
    by_contra hno
    exact hne (List.drop_eq_nil_of_le (by simp; omega))
  rw [List.drop_append_of_le_length hlen]
  simp

/-- What has been stored is counted, modulo the width of the counter. -/
theorem outSize_of_reaches (h : Reaches maxbin (start record inbuf) l) :
    l.outSize = UInt32.ofNat l.out.length := by
  induction h with
  | refl => rfl
  | @tail d d' _ hnext ih =>
    obtain ⟨k, buf, r, -, hread, hrec, -, ⟨-, rfl⟩ | ⟨htype, hstore⟩⟩ := next_cases hnext
    · exact ih
    · obtain ⟨hcount, rfl, -⟩ := storeData_next hstore
      simp only [stored, List.length_append, List.length_replicate]
      rw [ih, ← hrec.data_length hcount, ofInt_natCast, UInt32.ofNat_add, UInt32.ofNat_add,
        UInt32.ofNat_toNat]

/-- What has been stored stays. -/
theorem out_of_reaches (h : Reaches maxbin l l') : l.out.length ≤ l'.out.length := by
  induction h with
  | refl => exact le_rfl
  | @tail d d' _ hnext ih =>
    obtain ⟨k, buf, r, -, -, -, -, ⟨-, rfl⟩ | ⟨-, hstore⟩⟩ := next_cases hnext
    · exact ih
    · obtain ⟨-, rfl, -⟩ := storeData_next hstore
      simp only [stored, List.length_append]
      omega

/-! ## Ends -/

/-- A line that is decoded goes by its type. -/
theorem iterate_decoded (maxbin : UInt32) (hread : readRecord l.record l.inbuf = .ok (some (k, buf)))
    (hdec : srecDecode buf = .ok r) : IsData r.type ∨
      iterate maxbin l = .done l.outSize l.out ∨ iterate maxbin l = .done 0 l.out ∨
        ∃ d, iterate maxbin l = .next d := by
  unfold iterate
  rw [hread]
  simp only [hdec]
  cases r.type <;> simp [IsData]

/-- The ways in which the loop is left. -/
theorem iterate_done {size : UInt32} {out : List UInt8} (h : iterate maxbin l = .done size out) :
    ((size = 0 ∨ size = l.outSize) ∧ out = l.out) ∨
      ∃ k buf r, readRecord l.record l.inbuf = .ok (some (k, buf)) ∧ IsRecord buf r ∧ IsData r.type ∧
        0 ≤ r.count ∧ size = 0 ∧
          out = l.out ++ List.replicate (gap l r.addr).toNat 0 ++ r.data := by
  rcases readRecord_cases l.record l.inbuf with hread | hread | ⟨k, buf, -, hread⟩
  · rw [iterate, hread] at h
    cases h
  · rw [iterate, hread] at h
    cases h
    exact .inl ⟨.inl rfl, rfl⟩
  · cases hdec : srecDecode buf with
    | error e =>
      rw [iterate, hread] at h
      simp only [hdec] at h
      cases e <;> cases h
      exact .inl ⟨.inl rfl, rfl⟩
    | ok r =>
      rcases iterate_decoded maxbin hread hdec with htype | hi | hi | ⟨d, hi⟩
      · have hrec : IsRecord buf r := by
          refine (srecDecode_record ?_).mp hdec
          rcases htype with h | h | h <;> rw [h] <;> decide
        rw [iterate_data hread hdec htype] at h
        by_cases hcount : r.count < 0
        · rw [storeData, if_pos hcount] at h
          cases h
        · rw [storeData_eq (not_lt.mp hcount)] at h
          split_ifs at h
          cases h
          exact .inr ⟨k, buf, r, hread, hrec, htype, not_lt.mp hcount, rfl, rfl⟩
      · rw [hi] at h
        cases h
        exact .inl ⟨.inr rfl, rfl⟩
      · rw [hi] at h
        cases h
        exact .inl ⟨.inl rfl, rfl⟩
      · rw [hi] at h
        cases h

/-- The accesses that leave a buffer. -/
theorem iterate_outside : iterate maxbin l = .outside ↔
    readRecord l.record l.inbuf = .error .outside ∨ ∃ buf, Reads l buf ∧
      (Cut buf ∨ ∃ r, IsRecord buf r ∧ IsData r.type ∧ r.count < 0) := by
  constructor
  · intro h
    rcases readRecord_cases l.record l.inbuf with hread | hread | ⟨k, buf, -, hread⟩
    · exact .inl hread
    · rw [iterate, hread] at h
      cases h
    · refine .inr ⟨buf, ⟨k, hread⟩, ?_⟩
      cases hdec : srecDecode buf with
      | error e =>
        rw [iterate, hread] at h
        simp only [hdec] at h
        cases e with
        | outside => exact .inl (srecDecode_outside.mp hdec)
        | error e => cases h
      | ok r =>
        rcases iterate_decoded maxbin hread hdec with htype | hi | hi | ⟨d, hi⟩
        · refine .inr ⟨r, (srecDecode_record ?_).mp hdec, htype, ?_⟩
          · rcases htype with h | h | h <;> rw [h] <;> decide
          · rw [iterate_data hread hdec htype] at h
            by_contra hcount
            rw [storeData_eq (not_lt.mp hcount)] at h
            split_ifs at h
        · rw [hi] at h
          cases h
        · rw [hi] at h
          cases h
        · rw [hi] at h
          cases h
  · rintro (hread | ⟨buf, ⟨k, hread⟩, hcut | ⟨r, hrec, htype, hcount⟩⟩)
    · rw [iterate, hread]
    · rw [iterate, hread]
      simp only [srecDecode_outside.mpr hcut]
    · rw [iterate_data hread ((srecDecode_record hrec.type_ne).mpr hrec) htype, storeData, if_pos hcount]

theorem out_of_ends {size : UInt32} {out : List UInt8} (h : iterate maxbin l = .done size out) :
    l.out.length ≤ out.length := by
  rcases iterate_done h with ⟨-, rfl⟩ | ⟨k, buf, r, -, -, -, -, -, rfl⟩
  · exact le_rfl
  · simp only [List.length_append]
    omega

/-! ## The condition -/

/-- An iteration that is safe stays in its buffers. -/
theorem StepOk.ends (h : StepOk maxbin l) (hzero : (0 : UInt8) ∈ l.inbuf)
    (hsize : l.outSize = UInt32.ofNat l.out.length) (hfits : l.out.length ≤ maxbin.toNat)
    (hend : Ends maxbin l i) :
    ∃ size out, i = .done size out ∧ out.length ≤ maxbin.toNat ∧ size ≤ maxbin := by
  cases hi : i with
  | next d => exact absurd hi (hend.2 d)
  | outside =>
    rcases iterate_outside.mp (hend.1.trans hi) with hread | ⟨buf, hreads, hcut | ⟨r, hrec, -, hcount⟩⟩
    · exact absurd hzero (readRecord_outside hread)
    · exact absurd hcut (h.whole buf hreads)
    · exact absurd hcount (not_lt.mpr (h.count buf hreads r hrec))
  | done size out =>
    refine ⟨size, out, rfl, ?_⟩
    rcases iterate_done (hend.1.trans hi) with ⟨hor, rfl⟩ | ⟨k, buf, r, hread, hrec, htype, -, rfl, rfl⟩
    · refine ⟨hfits, ?_⟩
      rcases hor with rfl | rfl
      · exact UInt32.zero_le
      · rw [hsize, UInt32.le_iff_toNat_le, UInt32.toNat_ofNat']
        exact (Nat.mod_le _ _).trans hfits
    · refine ⟨?_, UInt32.zero_le⟩
      have hroom := h.room buf ⟨k, hread⟩ r hrec htype
      simp only [List.length_append, List.length_replicate]
      exact hroom

theorem StepOk.next (h : StepOk maxbin l) (hnext : Next maxbin l l') (hfits : l.out.length ≤ maxbin.toNat) :
    l'.out.length ≤ maxbin.toNat := by
  obtain ⟨k, buf, r, -, hread, hrec, -, ⟨-, rfl⟩ | ⟨htype, hstore⟩⟩ := next_cases hnext
  · exact hfits
  · obtain ⟨-, rfl, -⟩ := storeData_next hstore
    have hroom := h.room buf ⟨k, hread⟩ r hrec htype
    simp only [stored, List.length_append, List.length_replicate]
    exact hroom

theorem StepOk.counts (h : StepOk maxbin l) (hreads : Reads l buf) (hdec : srecDecode buf = .ok r) :
    0 ≤ r.count ∧ r.count ≤ SREC_MAXBINLEN := by
  rcases srecDecode_ok hdec with rfl | hrec
  · exact ⟨le_rfl, by decide⟩
  · exact ⟨h.count buf hreads r hrec, hrec.count_le⟩

/-- What a safe run needs of each loop that it reaches. -/
theorem Safe.stepOk (h : Safe maxbin record inbuf) (hreach : Reaches maxbin (start record inbuf) l) :
    StepOk maxbin l := by
  obtain ⟨size, out, hrun, hlen, -⟩ := h.ends
  have hinside : iterate maxbin l ≠ .outside := by
    intro houtside
    have hout := (srecToBin_eq maxbin record inbuf .outside).mpr ⟨l, hreach, houtside, fun _ h => nomatch h⟩
    rw [hrun] at hout
    cases hout
  refine ⟨fun hnil => ?_, fun buf hreads hcut => ?_, fun buf hreads r hrec => ?_, ?_⟩
  · refine hinside (iterate_outside.mpr (.inl ?_))
    rw [hnil]
    rfl
  · exact hinside (iterate_outside.mpr (.inr ⟨buf, hreads, .inl hcut⟩))
  · exact (h.counts l hreach buf hreads r ((srecDecode_record hrec.type_ne).mpr hrec)).1
  · rintro buf ⟨k, hread⟩ r hrec htype
    have hdec := (srecDecode_record hrec.type_ne).mpr hrec
    have hcount := (h.counts l hreach buf ⟨k, hread⟩ r hdec).1
    let d : Loop := { l with inbuf := l.inbuf.drop k, record := buf }
    have hi : iterate maxbin l =
        if maxbin < (stored d r).outSize then .done 0 (stored d r).out else .next (stored d r) :=
      (iterate_data hread hdec htype).trans (storeData_eq hcount)
    -- the bytes are there when the run ends, so they fit
    suffices hle : (stored d r).out.length ≤ out.length by
      have hlen := hle.trans hlen
      simp only [stored, List.length_append, List.length_replicate] at hlen
      exact hlen
    by_cases hsize : maxbin < (stored d r).outSize
    · rw [if_pos hsize] at hi
      have hdone := (srecToBin_eq maxbin record inbuf _).mpr ⟨l, hreach, hi, fun _ h => nomatch h⟩
      rw [hrun] at hdone
      cases hdone
      exact le_rfl
    · rw [if_neg hsize] at hi
      obtain ⟨i, hi'⟩ : ∃ i, iterations maxbin ((stored d r).inbuf.length + 1) (stored d r) = some i :=
        iterations_returns (Nat.lt_succ_self _)
      obtain ⟨l', hreach', hend⟩ := (iterations_eq (Nat.lt_succ_self _) i).mp hi'
      have hdone := (srecToBin_eq maxbin record inbuf i).mpr
        ⟨l', (hreach.tail hi).trans hreach', hend⟩
      rw [hrun] at hdone
      obtain rfl := Option.some.inj hdone
      exact (out_of_reaches hreach').trans (out_of_ends hend.1)

/-- `srec_to_bin` is safe if and only if each line that is reached is. -/
theorem safe_iff (maxbin : UInt32) (record text : List UInt8) :
    Safe maxbin record (text ++ [0]) ↔
      ∀ l, Reaches maxbin (start record (text ++ [0])) l → StepOk maxbin l := by
  refine ⟨fun h l => h.stepOk, fun h => ⟨?_, fun l hreach buf hreads r => (h l hreach).counts hreads⟩⟩
  obtain ⟨i, hrun⟩ : ∃ i, srecToBin maxbin record (text ++ [0]) = some i :=
    iterations_returns (Nat.lt_succ_self _)
  obtain ⟨l, hreach, hend⟩ := (srecToBin_eq _ _ _ _).mp hrun
  have hfits : l.out.length ≤ maxbin.toNat := by
    clear hend
    induction hreach with
    | refl => exact Nat.zero_le _
    | @tail d d' hd hnext ih => exact (h d hd).next hnext ih
  obtain ⟨size, out, rfl, hlen, hsize⟩ := (h l hreach).ends
    (zero_mem_of_reaches hreach (h l hreach).text) (outSize_of_reaches hreach) hfits hend
  exact ⟨size, out, hrun, hlen, hsize⟩

/-- A record whose count leaves no room for its address, with the right checksum. -/
def smallCount : List UInt8 := Fastboot.ascii "S1010000FE" ++ [0x0D, 0x0A]

/-- It is accepted with the count -2. -/
theorem smallCount_not_safe : ¬ Safe 0x40000 (List.replicate 517 0) (smallCount ++ [0]) := by
  intro h
  obtain ⟨size, out, hrun, -, -⟩ := h.ends
  have houtside : srecToBin 0x40000 (List.replicate 517 0) (smallCount ++ [0]) = some .outside := by
    decide +kernel
  rw [houtside] at hrun
  cases hrun

end RCar.Srec
