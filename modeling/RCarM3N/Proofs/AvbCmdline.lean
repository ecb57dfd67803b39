import RCarM3N.Lib.Returns
import RCarM3N.Model.AvbCmdline

/-! The command line is all that its functions change, and a replacement replaces every occurrence where there is memory. -/

namespace RCar.SlotVerify

open UBoot (IoResult VerifyResult)
open AvbRsa VbMeta

variable {ops : AvbOps} {sha : Hashes}

/-! ## What the command line has no part in -/

/-- What was verified is the same in both states. -/
structure Same (s s' : State) : Prop where
  images : s'.data.vbmetaImages = s.data.vbmetaImages
  partitions : s'.data.loadedPartitions = s.data.loadedPartitions
  rollback : s'.data.rollbackIndexes = s.data.rollbackIndexes

instance same_preorder : IsPreorder State Same where
  refl _ := ⟨rfl, rfl, rfl⟩
  trans _ _ _ h h' := ⟨h'.images.trans h.images, h'.partitions.trans h.partitions, h'.rollback.trans h.rollback⟩

theorem call_same {α : Type} (op : ℕ → α) : Prog.Returns Same (call op) :=
  fun s => ⟨op s.time, { s with time := s.time + 1 }, rfl, rfl, rfl, rfl⟩

theorem allocated_same (size : ℕ) : Prog.Returns Same (allocated ops size) :=
  Prog.Returns.map (call_same _)

theorem replaceLoop_same (search replace : List UInt8) (fuel : ℕ) (ret : Option (List UInt8)) (str : List UInt8) :
    Prog.Returns Same (replaceLoop ops search replace fuel ret str) := by
  induction fuel generalizing ret str with
  | zero => exact Prog.Returns.pure _
  | succ fuel ih =>
    unfold replaceLoop
    split
    · exact Prog.Returns.pure _
    · exact Prog.Returns.bind (allocated_same _) fun _ => Prog.Returns.early (ih _ _)

theorem avbReplace_same (str search replace : List UInt8) : Prog.Returns Same (avbReplace ops str search replace) := by
  refine Prog.Returns.bind (replaceLoop_same _ _ _ _ _) fun r => ?_
  split
  · exact Prog.Returns.pure _
  · exact Prog.Returns.map (allocated_same _)
  · exact Prog.Returns.map (allocated_same _)

theorem avbAddRootDigestSubstitution_same (partName digest : List UInt8) :
    Prog.Returns Same (avbAddRootDigestSubstitution ops partName digest) :=
  Prog.Returns.bind Prog.Returns.get fun _ => Prog.Returns.early <| Prog.Returns.early <|
    Prog.Returns.bind (allocated_same _) fun _ => Prog.Returns.early <|
      Prog.Returns.bind (allocated_same _) fun _ => Prog.Returns.early <|
        Prog.Returns.map (Prog.Returns.modify fun _ => ⟨rfl, rfl, rfl⟩)

theorem replaceGuids_same (cmdline abSuffix : List UInt8) (guids : List (List UInt8 × List UInt8))
    (ret : Option (List UInt8)) : Prog.Returns Same (replaceGuids ops cmdline abSuffix guids ret) := by
  induction guids generalizing ret with
  | nil => exact Prog.Returns.pure _
  | cons guid guids ih =>
    unfold replaceGuids
    split
    · exact ih _
    · split
      · exact Prog.Returns.pure _
      · refine Prog.Returns.bind (call_same _) fun r => Prog.Returns.early ?_
        refine Prog.Returns.bind (avbReplace_same _ _ _) fun newRet => ?_
        split
        · exact Prog.Returns.pure _
        · exact ih _

theorem replaceTokens_same (subst : List (List UInt8 × List UInt8)) (ret : List UInt8) :
    Prog.Returns Same (replaceTokens ops subst ret) := by
  induction subst generalizing ret with
  | nil => exact Prog.Returns.pure _
  | cons token subst ih =>
    refine Prog.Returns.bind (avbReplace_same _ _ _) fun newRet => ?_
    split
    · exact Prog.Returns.pure _
    · exact ih _

theorem avbSubCmdline_same (cmdline abSuffix : List UInt8) (subst : List (List UInt8 × List UInt8)) :
    Prog.Returns Same (avbSubCmdline ops cmdline abSuffix subst) := by
  refine Prog.Returns.bind (replaceGuids_same _ _ _ _) fun r => ?_
  split
  · exact Prog.Returns.pure _
  · exact replaceTokens_same _ _
  · exact Prog.Returns.bind (allocated_same _) fun _ => Prog.Returns.early (replaceTokens_same _ _)

theorem cmdlineAppendOption_same (key value : List UInt8) : Prog.Returns Same (cmdlineAppendOption ops key value) :=
  Prog.Returns.bind Prog.Returns.get fun _ => Prog.Returns.bind (allocated_same _) fun _ => Prog.Returns.early <|
    Prog.Returns.map (Prog.Returns.modify fun _ => ⟨rfl, rfl, rfl⟩)

theorem cmdlineAppendHex_same (key data : List UInt8) : Prog.Returns Same (cmdlineAppendHex ops key data) :=
  Prog.Returns.bind (allocated_same _) fun _ => Prog.Returns.early (cmdlineAppendOption_same _ _)

theorem appendDigest_same (algorithmType : UInt32) : Prog.Returns Same (appendDigest ops sha algorithmType) :=
  Prog.Returns.bind Prog.Returns.get fun _ =>
    Prog.Returns.bind (cmdlineAppendOption_same _ _) fun _ => Prog.Returns.early <|
      Prog.Returns.bind (cmdlineAppendOption_same _ _) fun _ => Prog.Returns.early <|
        Prog.Returns.bind (cmdlineAppendHex_same _ _) fun _ => Prog.Returns.early (Prog.Returns.pure _)

theorem resolveVerityMode_same (toplevelFlags : UInt32) (resolved : AvbHashtreeErrorMode) :
    Prog.Returns Same (resolveVerityMode ops toplevelFlags resolved) := by
  unfold resolveVerityMode
  refine Prog.Returns.early ?_
  rcases verityModes resolved with - | ⟨verityMode, dmVerityMode⟩
  · exact Prog.Returns.pure _
  · have hreplace : Prog.Returns Same (do
        let s ← Prog.get
        let newRet ← avbReplace ops (s.data.cmdline.getD []) (text "$(ANDROID_VERITY_MODE)") dmVerityMode
        modifyData fun d => { d with cmdline := newRet }
        return if newRet.isSome then Except.ok verityMode else Except.error VerifyResult.errorOom) :=
      Prog.Returns.bind Prog.Returns.get fun _ => Prog.Returns.bind (avbReplace_same _ _ _) fun _ =>
        Prog.Returns.map (Prog.Returns.modify fun _ => ⟨rfl, rfl, rfl⟩)
    exact Prog.Returns.ite
      (Prog.Returns.bind (cmdlineAppendOption_same _ _) fun _ => Prog.Returns.early hreplace) hreplace

theorem avbAppendOptions_same (toplevelFlags algorithmType : UInt32) (mode resolved : AvbHashtreeErrorMode) :
    Prog.Returns Same (avbAppendOptions ops sha toplevelFlags algorithmType mode resolved) := by
  unfold avbAppendOptions
  refine Prog.Returns.bind (cmdlineAppendOption_same _ _) fun _ => Prog.Returns.early ?_
  refine Prog.Returns.bind (cmdlineAppendOption_same _ _) fun _ => Prog.Returns.early ?_
  refine Prog.Returns.bind (call_same _) fun r => ?_
  rcases r with ⟨ioRet, isDeviceUnlocked⟩
  rcases hio : ioFailure ioRet with - | ret
  swap
  · simp only [hio]
    exact Prog.Returns.pure _
  simp only [hio]
  refine Prog.Returns.bind (cmdlineAppendOption_same _ _) fun _ => Prog.Returns.early ?_
  refine Prog.Returns.bind (appendDigest_same _) fun _ => Prog.Returns.early ?_
  refine Prog.Returns.bind (resolveVerityMode_same _ _) fun r => ?_
  rcases r with ret | verityMode
  · exact Prog.Returns.pure _
  refine Prog.Returns.bind (cmdlineAppendOption_same _ _) fun _ => Prog.Returns.early ?_
  exact Prog.Returns.ite (Prog.Returns.bind (cmdlineAppendOption_same _ _) fun _ => Prog.Returns.early
    (Prog.Returns.pure _)) (Prog.Returns.pure _)

/-! ## Replacement -/

theorem matchFrom_iff (needle haystack : List UInt8) : matchFrom needle haystack = true ↔ needle <+: haystack := by
  induction needle generalizing haystack with
  | nil => simp [matchFrom]
  | cons b needle ih =>
    cases haystack with
    | nil => simp [matchFrom]
    | cons c haystack =>
      rw [matchFrom, List.cons_prefix_cons]
      by_cases hcb : c = b
      · simp [hcb, ih]
      · simp [hcb, Ne.symm hcb]

theorem match_iff (b c : UInt8) (needle haystack : List UInt8) :
    c = b ∧ matchFrom needle haystack = true ↔ b :: needle <+: c :: haystack := by
  rw [List.cons_prefix_cons, matchFrom_iff, eq_comm]

/-- A needle is found where it is a prefix of the rest for the first time. -/
theorem avbStrstr_eq_some {needle haystack : List UInt8} {n : ℕ} (h : avbStrstr needle haystack = some n) :
    needle ≠ [] ∧ needle <+: haystack.drop n ∧ ∀ k < n, ¬ needle <+: haystack.drop k := by
  induction haystack generalizing n with
  | nil => cases h
  | cons c haystack ih =>
    have hlater : (avbStrstr needle haystack).map (· + 1) = some n → ¬ needle <+: c :: haystack →
        needle ≠ [] ∧ needle <+: (c :: haystack).drop n ∧ ∀ k < n, ¬ needle <+: (c :: haystack).drop k := by
      intro hmap hnot
      rw [Option.map_eq_some_iff] at hmap
      obtain ⟨n, hn, rfl⟩ := hmap
      obtain ⟨hne, hfound, hbefore⟩ := ih hn
      refine ⟨hne, hfound, fun k hk => ?_⟩
      cases k with
      | zero => exact hnot
      | succ k => exact hbefore k (by omega)
    cases needle with
    | nil =>
      rw [avbStrstr, Option.map_eq_some_iff] at h
      obtain ⟨n, hn, -⟩ := h
      exact absurd rfl (ih hn).1
    | cons b bs =>
      rw [avbStrstr] at h
      split at h
      · rename_i hfound
        cases h
        exact ⟨List.cons_ne_nil _ _, (match_iff ..).mp hfound, fun k hk => absurd hk (Nat.not_lt_zero k)⟩
      · rename_i hnot
        exact hlater h fun hprefix => hnot ((match_iff ..).mpr hprefix)

theorem avbStrstr_eq_none {needle haystack : List UInt8} (h : avbStrstr needle haystack = none) (hne : needle ≠ []) (k : ℕ) :
    ¬ needle <+: haystack.drop k := by
  induction haystack generalizing k with
  | nil => simpa using hne
  | cons c haystack ih =>
    obtain ⟨b, bs, rfl⟩ := List.exists_cons_of_ne_nil hne
    rw [avbStrstr] at h
    split at h
    · cases h
    · rename_i hnot
      cases k with
      | zero => exact fun hprefix => hnot ((match_iff ..).mpr hprefix)
      | succ k => exact ih (Option.map_eq_none_iff.mp h) k

/-- A text cut at every occurrence of another, found from left to right. -/
inductive Cut (search : List UInt8) : List UInt8 → List (List UInt8) → Prop
  | last (s : List UInt8) (h : avbStrstr search s = none) : Cut search s [s]
  | cons (p rest : List UInt8) (ps : List (List UInt8)) (h : avbStrstr search (p ++ (search ++ rest)) = some p.length)
      (hrest : Cut search rest ps) : Cut search (p ++ (search ++ rest)) (p :: ps)

theorem Cut.ne_nil {search s : List UInt8} {ps : List (List UInt8)} (h : Cut search s ps) : ps ≠ [] := by
  cases h <;> exact List.cons_ne_nil _ _

theorem Cut.intercalate {search s : List UInt8} {ps : List (List UInt8)} (h : Cut search s ps) :
    s = List.intercalate search ps := by
  induction h with
  | last s => simp
  | cons p rest ps h hrest ih =>
    obtain ⟨q, qs, rfl⟩ := List.exists_cons_of_ne_nil hrest.ne_nil
    rw [List.intercalate_cons_cons, ← ih]
    simp

/-- Every text can be cut, in no more pieces than it has bytes and one. -/
theorem exists_cut (search s : List UInt8) : ∃ ps, Cut search s ps ∧ ps.length ≤ s.length + 1 := by
  induction hn : s.length using Nat.strong_induction_on generalizing s with
  | _ n ih =>
    rcases h : avbStrstr search s with - | k
    · exact ⟨[s], .last s h, by simp⟩
    · obtain ⟨hne, hprefix, -⟩ := avbStrstr_eq_some h
      obtain ⟨rest, hrest⟩ := hprefix
      have hsplit : s = s.take k ++ (search ++ rest) := by rw [hrest, List.take_append_drop]
      have hpos := List.length_pos_of_ne_nil hne
      have hk : (s.take k).length = k := by
        rw [List.length_take, Nat.min_eq_left]
        by_contra hlong
        rw [List.drop_eq_nil_of_le (by omega), List.append_eq_nil_iff] at hrest
        exact hne hrest.1
      have hlen := congrArg List.length hsplit
      rw [List.length_append, List.length_append] at hlen
      obtain ⟨ps, hcut, hps⟩ := ih rest.length (by omega) rest rfl
      refine ⟨s.take k :: ps, ?_, by rw [List.length_cons]; omega⟩
      rw [hsplit] at h ⊢
      have hcons := Cut.cons (s.take k) rest ps (by rw [h, hk]) hcut
      rwa [← hsplit] at hcons ⊢

/-- The result after some pieces: NULL before the first. -/
def joined (replace : List UInt8) (ret : Option (List UInt8)) (ps : List (List UInt8)) : Option (List UInt8) :=
  ps.foldl (fun ret p => some (ret.getD [] ++ (p ++ replace))) ret

theorem joined_some (replace l : List UInt8) (ps : List (List UInt8)) :
    joined replace (some l) ps = some (l ++ ps.flatMap (· ++ replace)) := by
  induction ps generalizing l with
  | nil => simp [joined]
  | cons p ps ih =>
    have hstep : joined replace (some l) (p :: ps) = joined replace (some (l ++ (p ++ replace))) ps := rfl
    rw [hstep, ih]
    simp

/-- No allocation that fails. -/
def EnoughMemory (ops : AvbOps) : Prop := ∀ t size, (ops.malloc t size).isSome

theorem allocated_run (ops : AvbOps) (size : ℕ) (s : State) : ∃ t, ((allocated ops size).run s = (some true, t)) ∨
    ((allocated ops size).run s = (some false, t) ∧ ¬ EnoughMemory ops) := by
  refine ⟨{ s with time := s.time + 1 }, ?_⟩
  rcases h : ops.malloc s.time size with - | buf
  · refine .inr ⟨?_, fun hmem => ?_⟩
    · exact Prod.ext (by simp [allocated, avbMalloc, call, Prog.run, bind, pure, h]) rfl
    · have := hmem s.time size
      rw [h] at this
      cases this
  · exact .inl (Prod.ext (by simp [allocated, avbMalloc, call, Prog.run, bind, pure, h]) rfl)

/-- The loop comes to the last piece, or stops before one for lack of memory. -/
theorem replaceLoop_cases (ops : AvbOps) {search str : List UInt8} (replace : List UInt8)
    {ps : List (List UInt8)} (hcut : Cut search str ps)
    (fuel : ℕ) (hfuel : ps.length ≤ fuel) (ret : Option (List UInt8)) (s : State) : ∃ t,
    (replaceLoop ops search replace fuel ret str).run s =
        (some (.ok (joined replace ret ps.dropLast, ps.getLast hcut.ne_nil)), t) ∨
      (¬ EnoughMemory ops ∧ ∃ k < ps.length - 1,
        (replaceLoop ops search replace fuel ret str).run s = (some (.error (joined replace ret (ps.take k))), t)) := by
  induction hcut generalizing fuel ret s with
  | last str h =>
    obtain ⟨fuel, rfl⟩ := Nat.exists_eq_succ_of_ne_zero (Nat.ne_zero_of_lt hfuel)
    refine ⟨s, .inl ?_⟩
    rw [replaceLoop, h]
    rfl
  | cons p rest ps h hrest ih =>
    obtain ⟨fuel, rfl⟩ := Nat.exists_eq_succ_of_ne_zero (Nat.ne_zero_of_lt hfuel)
    rw [List.length_cons, Nat.succ_le_succ_iff] at hfuel
    have hne := hrest.ne_nil
    have hpos := List.length_pos_of_ne_nil hne
    have hdrop : (p ++ (search ++ rest)).drop (p.length + search.length) = rest := by
      rw [← List.append_assoc, List.drop_left' (by simp)]
    obtain ⟨t, hmem | ⟨hmem, hnot⟩⟩ := allocated_run ops ((ret.getD [] ++ (p ++ replace)).length + 1) s
    · obtain ⟨t', hrun⟩ := ih fuel hfuel (some (ret.getD [] ++ (p ++ replace))) t
      have hstep : (replaceLoop ops search replace (fuel + 1) ret (p ++ (search ++ rest))).run s =
          (replaceLoop ops search replace fuel (some (ret.getD [] ++ (p ++ replace))) rest).run t := by
        rw [replaceLoop, h]
        simp only [List.take_left, hdrop]
        rw [Prog.run_bind_of_some hmem]
        rfl
      refine ⟨t', ?_⟩
      rw [hstep, List.dropLast_cons_of_ne_nil hne, List.getLast_cons hne]
      rcases hrun with hrun | ⟨hnot, k, hk, hrun⟩
      · exact .inl hrun
      · exact .inr ⟨hnot, k + 1, by rw [List.length_cons]; omega, hrun⟩
    · refine ⟨t, .inr ⟨hnot, 0, by rw [List.length_cons]; omega, ?_⟩⟩
      rw [replaceLoop, h]
      simp only [List.take_left]
      rw [Prog.run_bind_of_some hmem]
      rfl

theorem intercalate_eq (replace : List UInt8) {ps : List (List UInt8)} (h : ps ≠ []) :
    List.intercalate replace ps = ps.dropLast.flatMap (· ++ replace) ++ ps.getLast h := by
  induction ps with
  | nil => exact absurd rfl h
  | cons p ps ih =>
    rcases ps with - | ⟨q, qs⟩
    · simp
    · rw [List.intercalate_cons_cons, ih (List.cons_ne_nil _ _)]
      simp

section Finish

variable {str search replace rest : List UInt8} {s t t' : State} {b : Bool}

/-- The end of `avb_replace` where nothing was found. -/
theorem avbReplace_copies
    (hrun : (replaceLoop ops search replace (str.length + 1) none str).run s = (some (.ok (none, rest)), t))
    (hmem : (allocated ops (rest.length + 1)).run t = (some b, t')) :
    (avbReplace ops str search replace).run s = (some (if b then some rest else none), t') := by
  rw [avbReplace, Prog.run_bind_of_some hrun]
  change ((allocated ops _ >>= _ : Prog State _)).run t = _
  rw [Prog.run_bind_of_some hmem]
  rfl

/-- The end of `avb_replace` after the last replacement. -/
theorem avbReplace_appends {ret : List UInt8}
    (hrun : (replaceLoop ops search replace (str.length + 1) none str).run s = (some (.ok (some ret, rest)), t))
    (hmem : (allocated ops (ret.length + rest.length + 1)).run t = (some b, t')) :
    (avbReplace ops str search replace).run s = (some (if b then some (ret ++ rest) else some ret), t') := by
  rw [avbReplace, Prog.run_bind_of_some hrun]
  change ((allocated ops _ >>= _ : Prog State _)).run t = _
  rw [Prog.run_bind_of_some hmem]
  rfl

end Finish

/-- With memory every occurrence is replaced. Without, the result is NULL, or the text up to one of the replacements: what
follows it is lost. -/
theorem avbReplace_outcomes (ops : AvbOps) (str search replace : List UInt8) (s : State) : ∃ ps r t,
    (avbReplace ops str search replace).run s = (some r, t) ∧ Cut search str ps ∧ List.intercalate search ps = str ∧
      (r = some (List.intercalate replace ps) ∨ (¬ EnoughMemory ops ∧
        (r = none ∨ ∃ k, 0 < k ∧ k < ps.length ∧ r = some ((ps.take k).flatMap (· ++ replace))))) := by
  obtain ⟨ps, hcut, hlen⟩ := exists_cut search str
  obtain ⟨t, hrun | ⟨hnot, k, hk, hrun⟩⟩ := replaceLoop_cases ops replace hcut (str.length + 1) hlen none s
  · rcases hlast : ps.dropLast with - | ⟨q, qs⟩
    · rw [hlast] at hrun
      have hall : List.intercalate replace ps = ps.getLast hcut.ne_nil := by
        rw [intercalate_eq replace hcut.ne_nil, hlast]
        rfl
      obtain ⟨t', hmem | ⟨hmem, hnot⟩⟩ := allocated_run ops ((ps.getLast hcut.ne_nil).length + 1) t
      · refine ⟨ps, _, t', ?_, hcut, hcut.intercalate.symm, .inl (congrArg some hall.symm)⟩
        exact avbReplace_copies hrun hmem
      · refine ⟨ps, none, t', ?_, hcut, hcut.intercalate.symm, .inr ⟨hnot, .inl rfl⟩⟩
        exact avbReplace_copies hrun hmem
    · have hjoined : joined replace none ps.dropLast = some (ps.dropLast.flatMap (· ++ replace)) := by
        rw [hlast]
        exact joined_some replace (q ++ replace) qs
      rw [hjoined] at hrun
      obtain ⟨t', hmem | ⟨hmem, hnot⟩⟩ := allocated_run ops
        ((ps.dropLast.flatMap (· ++ replace)).length + (ps.getLast hcut.ne_nil).length + 1) t
      · refine ⟨ps, _, t', ?_, hcut, hcut.intercalate.symm, .inl (congrArg some (intercalate_eq replace hcut.ne_nil).symm)⟩
        exact avbReplace_appends hrun hmem
      · refine ⟨ps, some (ps.dropLast.flatMap (· ++ replace)), t', ?_, hcut, hcut.intercalate.symm,
          .inr ⟨hnot, .inr ⟨ps.length - 1, ?_, Nat.sub_lt (List.length_pos_of_ne_nil hcut.ne_nil) Nat.one_pos, ?_⟩⟩⟩
        · exact avbReplace_appends hrun hmem
        · have hpos := congrArg List.length hlast
          rw [List.length_dropLast, List.length_cons] at hpos
          omega
        · rw [List.dropLast_eq_take]
  · refine ⟨ps, joined replace none (ps.take k), t, ?_, hcut, hcut.intercalate.symm, .inr ⟨hnot, ?_⟩⟩
    · rw [avbReplace, Prog.run_bind_of_some hrun]
      rfl
    · rcases htake : ps.take k with - | ⟨q, qs⟩
      · exact .inl rfl
      · have hpos := congrArg List.length htake
        rw [List.length_take, List.length_cons] at hpos
        refine .inr ⟨k, by omega, by omega, ?_⟩
        rw [htake]
        exact joined_some replace (q ++ replace) qs

end RCar.SlotVerify
