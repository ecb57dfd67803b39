import RCarM3N.Model.VerityArgs

/-! When the locked command line enforces dm-verity: one word that asks for the other mode, without a
quotation mark that would be lost with it, and not too many words. -/

namespace RCar.AvbVerify

open Fastboot (CStr ascii)

/-! ## What the command line should say -/

/-- An option word of a dm table, where the table may begin or end with a quotation mark. -/
def quoted (w : CStr) : List CStr := [w, w ++ [34], [34] ++ w, [34] ++ w ++ [34]]

def Ignoring (t : CStr) : Prop := t ∈ quoted VERITY_TABLE_OPT_LOGGING

def Restarting (t : CStr) : Prop := t ∈ quoted VERITY_TABLE_OPT_RESTART

instance (t : CStr) : Decidable (Ignoring t) := inferInstanceAs (Decidable (_ ∈ _))

instance (t : CStr) : Decidable (Restarting t) := inferInstanceAs (Decidable (_ ∈ _))

def VERITYMODE : CStr := ascii "androidboot.veritymode="

/-- What stays of a word: nothing of the options for the error mode but the quotation marks of the table. -/
def residue (t : CStr) : CStr :=
  if VERITYMODE <+: t then [] else if Ignoring t ∨ Restarting t then t.filter (· = 34) else t

def residues (ts : List CStr) : List CStr := (ts.map residue).filter (· ≠ [])

/-- The line does not ignore corruption, restarts on it, and has all other words in their order. -/
structure Enforced (cmdline result : CStr) : Prop where
  noIgnore : ∀ t ∈ tokens 32 result, ¬ Ignoring t
  enforcing : ∃ t ∈ tokens 32 result, Restarting t
  preserved : residues (tokens 32 result) = residues (tokens 32 cmdline)

/-! ## Replacing the first match -/

/-- The first word that passes a test, with those around it. -/
theorem split_findIdx? {p : CStr → Bool} {ts : List CStr} {i : ℕ} (h : ts.findIdx? p = some i) :
    ∃ pre t post, ts = pre ++ t :: post ∧ (∀ x ∈ pre, p x = false) ∧ p t = true ∧
      (∀ r, ts.set i r = pre ++ r :: post) ∧ ts.find? p = some t ∧ ts.eraseP p = pre ++ post := by
  induction ts generalizing i with
  | nil => simp at h
  | cons a ts ih =>
    rw [List.findIdx?_cons] at h
    cases hp : p a with
    | true =>
      rw [hp, if_pos rfl] at h
      obtain rfl := Option.some.inj h
      exact ⟨[], a, ts, rfl, by simp, hp, fun _ => rfl, by simp [hp], by simp [hp]⟩
    | false =>
      rw [hp, if_neg Bool.false_ne_true] at h
      obtain ⟨j, hj, rfl⟩ := Option.map_eq_some_iff.mp h
      obtain ⟨pre, t, post, rfl, hpre, ht, hset, hfind, herase⟩ := ih hj
      refine ⟨a :: pre, t, post, rfl, ?_, ht, fun r => ?_, ?_, ?_⟩
      · rintro x (_ | ⟨_, hx⟩)
        · exact hp
        · exact hpre x hx
      · rw [List.set_cons_succ, hset]
        rfl
      · rw [List.find?_cons_of_neg (by simp [hp])]
        exact hfind
      · rw [List.eraseP_cons_of_neg (by simp [hp]), herase]
        rfl

theorem findIdx?_eq_none {p : CStr → Bool} {ts : List CStr} (h : ts.findIdx? p = none) : ∀ x ∈ ts, p x = false :=
  List.findIdx?_eq_none_iff.mp h

/-! ## Words -/

theorem foldl_assemble (ts : List CStr) (acc : CStr) :
    ts.foldl (fun newargs a => some (appendCmdLine newargs a)) (some acc) = some (acc ++ joinTokens 32 ts) := by
  induction ts generalizing acc with
  | nil => simp [joinTokens]
  | cons t ts ih =>
    rw [List.foldl_cons, ih]
    simp [appendCmdLine, joinTokens, show ascii " " = [32] from rfl]

/-- A blank stands before the first word as well. -/
theorem assemble_cons (t : CStr) (ts : List CStr) : assemble (t :: ts) = some (32 :: joinTokens 32 (t :: ts)) := by
  unfold assemble
  rw [List.foldl_cons, foldl_assemble]
  simp [appendCmdLine, joinTokens, show ascii " " = [32] from rfl]

theorem tokens_assemble {ts : List CStr} (hne : ts ≠ []) (h : ∀ t ∈ ts, IsToken 32 t) :
    ∃ s, assemble ts = some s ∧ tokens 32 s = ts := by
  cases ts with
  | nil => exact absurd rfl hne
  | cons t ts => exact ⟨_, assemble_cons t ts, by rw [tokens_cons_delim, tokens_joinTokens h]⟩

theorem restart_isToken : IsToken 32 VERITY_TABLE_OPT_RESTART := ⟨by decide, by decide⟩

def ENFORCING : CStr := ascii "androidboot.veritymode=enforcing"

theorem enforcing_isToken : IsToken 32 ENFORCING := ⟨by decide, by decide⟩

theorem residue_restart : residue VERITY_TABLE_OPT_RESTART = [] := by decide

theorem residue_enforcing : residue ENFORCING = [] := by decide

/-- Replacing a word by one that leaves nothing keeps the rest if the word leaves nothing either. -/
theorem residues_replace_iff {pre post : List CStr} {t r : CStr} (hr : residue r = []) :
    residues (pre ++ r :: post) = residues (pre ++ t :: post) ↔ residue t = [] := by
  have happend : ∀ l m, residues (l ++ m) = residues l ++ residues m := fun l m => by
    simp [residues]
  have hcons : ∀ x l, residues (x :: l) = (if residue x = [] then [] else [residue x]) ++ residues l := by
    intro x l
    by_cases hx : residue x = [] <;> simp [residues, hx]
  rw [happend, happend, hcons, hcons, if_pos hr, List.append_cancel_left_eq, List.nil_append]
  constructor
  · intro h
    by_contra hne
    have hlen := congrArg List.length h
    rw [if_neg hne] at hlen
    simp at hlen
  · intro h
    rw [if_pos h]
    rfl

theorem residues_append (l m : List CStr) : residues (l ++ m) = residues l ++ residues m := by
  simp [residues]

/-- Such a replacement takes at most one word from what is left. -/
theorem residues_length {pre post : List CStr} {t r : CStr} (hr : residue r = []) :
    (residues (pre ++ t :: post)).length = (residues (pre ++ r :: post)).length + if residue t = [] then 0 else 1 := by
  have hcons : ∀ x l, (residues (x :: l)).length = (residues l).length + if residue x = [] then 0 else 1 := by
    intro x l
    by_cases hx : residue x = [] <;> simp [residues, hx]
  rw [residues_append, residues_append, List.length_append, List.length_append, hcons, hcons, if_pos hr]
  omega

/-! ## When the line enforces -/

/-- The word that the code looks for: the one to ignore corruption first. -/
def matched (ts : List CStr) (t : CStr) : Bool :=
  if ts.any fun a => VERITY_TABLE_OPT_LOGGING <:+: a then VERITY_TABLE_OPT_LOGGING <:+: t
  else VERITY_TABLE_OPT_RESTART <:+: t

/-- Among the other words, the first with a mode of Android is that option alone, or there is room for one more. -/
def ModeFits (rest : List CStr) : Prop :=
  match rest.find? fun a => VERITYMODE <:+: a with
  | some u => residue u = []
  | none => rest.length + 2 < AVB_MAX_ARGS

/-- The first match is an option of its own without a quotation mark, and no other word ignores corruption; a line of too
many words is taken as it is. -/
def Enforceable (ts : List CStr) : Prop :=
  if ts.length < AVB_MAX_ARGS then
    ∃ t, ts.find? (matched ts) = some t ∧ residue t = [] ∧ (∀ x ∈ ts.eraseP (matched ts), ¬ Ignoring x) ∧
      ModeFits (ts.eraseP (matched ts))
  else (∀ x ∈ ts, ¬ Ignoring x) ∧ ∃ x ∈ ts, Restarting x

theorem avbSetEnforceOption_eq {cmdline : CStr} (h : (tokens 32 cmdline).length < AVB_MAX_ARGS) (option : CStr) :
    avbSetEnforceOption cmdline option =
      ((tokens 32 cmdline).findIdx? (matched (tokens 32 cmdline))).bind fun i =>
        assemble ((tokens 32 cmdline).set i option) := by
  unfold avbSetEnforceOption avbFindDmArgs
  simp only [if_neg (not_le.mpr h)]
  generalize tokens 32 cmdline = ts
  cases hlog : ts.findIdx? fun a => VERITY_TABLE_OPT_LOGGING <:+: a with
  | some i =>
    have hany : (ts.any fun a => VERITY_TABLE_OPT_LOGGING <:+: a) = true := by
      obtain ⟨pre, t, post, rfl, -, ht, -⟩ := split_findIdx? hlog
      rw [List.any_eq_true]
      exact ⟨t, by simp, ht⟩
    have hmatched : matched ts = fun a => decide (VERITY_TABLE_OPT_LOGGING <:+: a) := by
      funext a
      unfold matched
      rw [if_pos hany]
    rw [hmatched, hlog]
    rfl
  | none =>
    have hany : ¬ (ts.any fun a => VERITY_TABLE_OPT_LOGGING <:+: a) = true := by
      rw [List.any_eq_true]
      rintro ⟨t, hmem, ht⟩
      have hno := findIdx?_eq_none hlog t hmem
      rw [ht] at hno
      cases hno
    have hmatched : matched ts = fun a => decide (VERITY_TABLE_OPT_RESTART <:+: a) := by
      funext a
      unfold matched
      rw [if_neg hany]
    rw [hmatched]
    cases ts.findIdx? fun a => VERITY_TABLE_OPT_RESTART <:+: a <;> rfl

theorem mark_of_restarting {t : CStr} (h : Restarting t) : VERITY_TABLE_OPT_RESTART <:+: t := by
  revert t
  unfold Restarting
  decide

theorem ignoring_not_mode {t : CStr} (h : Ignoring t) : ¬ VERITYMODE <:+: t := by
  revert t
  unfold Ignoring
  decide

/-- Without a match no word restarts on corruption. -/
theorem not_restarting_of_none {ts : List CStr} (h : ts.findIdx? (matched ts) = none) : ∀ t ∈ ts, ¬ Restarting t := by
  intro t ht hr
  have hno := findIdx?_eq_none h t ht
  unfold matched at hno
  split at hno
  · rename_i hany
    obtain ⟨u, hu, hlog⟩ := List.any_eq_true.mp hany
    have hno' := findIdx?_eq_none h u hu
    unfold matched at hno'
    rw [if_pos hany, hlog] at hno'
    cases hno'
  · exact absurd (mark_of_restarting hr) (of_decide_eq_false hno)

/-- The words of the line after the first replacement. -/
theorem ignoring_iff {pre post : List CStr} {r : CStr} (hr : ¬ Ignoring r) :
    (∀ x ∈ pre ++ r :: post, ¬ Ignoring x) ↔ ∀ x ∈ pre ++ post, ¬ Ignoring x := by
  simp only [List.mem_append, List.mem_cons]
  constructor
  · exact fun h x hx => h x (hx.imp_right Or.inr)
  · rintro h x (hx | rfl | hx)
    · exact h x (Or.inl hx)
    · exact hr
    · exact h x (Or.inr hx)

theorem not_ignoring_restart : ¬ Ignoring VERITY_TABLE_OPT_RESTART := by decide

theorem not_ignoring_enforcing : ¬ Ignoring ENFORCING := by decide

theorem restart_not_mode : ¬ VERITYMODE <:+: VERITY_TABLE_OPT_RESTART := by decide

/-- The search for a mode passes over the new word. -/
theorem find?_mode {pre post : List CStr} :
    (pre ++ VERITY_TABLE_OPT_RESTART :: post).find? (fun a => VERITYMODE <:+: a) =
      (pre ++ post).find? fun a => VERITYMODE <:+: a := by
  rw [List.find?_append, List.find?_append, List.find?_cons_of_neg (by simpa using restart_not_mode)]

/-! The second replacement, on a line whose first replacement has left the restarting word. -/

section

variable {s : CStr} {pre post : List CStr} {t : CStr}

theorem ignoring_restarted (hs : tokens 32 s = pre ++ VERITY_TABLE_OPT_RESTART :: post) :
    (∀ x ∈ tokens 32 s, ¬ Ignoring x) ↔ ∀ x ∈ pre ++ post, ¬ Ignoring x := by
  rw [hs]
  exact ignoring_iff not_ignoring_restart

theorem residues_restarted (hs : tokens 32 s = pre ++ VERITY_TABLE_OPT_RESTART :: post) :
    residues (tokens 32 s) = residues (pre ++ t :: post) ↔ residue t = [] := by
  rw [hs]
  exact residues_replace_iff residue_restart

theorem residues_restarted_length (hs : tokens 32 s = pre ++ VERITY_TABLE_OPT_RESTART :: post) :
    (residues (pre ++ t :: post)).length = (residues (tokens 32 s)).length + if residue t = [] then 0 else 1 := by
  rw [hs]
  exact residues_length residue_restart

theorem mem_restarted (hs : tokens 32 s = pre ++ VERITY_TABLE_OPT_RESTART :: post) :
    VERITY_TABLE_OPT_RESTART ∈ tokens 32 s := by
  rw [hs]
  simp

/-- A mode that the line has is replaced in its place. -/
theorem replaceMode_iff (hs : tokens 32 s = pre ++ VERITY_TABLE_OPT_RESTART :: post) {j : ℕ}
    (hfind : (tokens 32 s).findIdx? (fun a => VERITYMODE <:+: a) = some j) :
    ∃ result u, (tokens 32 s).find? (fun a => VERITYMODE <:+: a) = some u ∧
      assemble ((tokens 32 s).set j ENFORCING) = some result ∧
      (((∀ x ∈ tokens 32 result, ¬ Ignoring x) ∧ (∃ x ∈ tokens 32 result, Restarting x) ∧
          residues (tokens 32 result) = residues (pre ++ t :: post)) ↔
        residue t = [] ∧ (∀ x ∈ pre ++ post, ¬ Ignoring x) ∧ residue u = []) := by
  obtain ⟨pre2, u, post2, hsplit, -, hu, hset, hfindu, -⟩ := split_findIdx? hfind
  have hu' : VERITYMODE <:+: u := of_decide_eq_true hu
  have htoken : ∀ x ∈ tokens 32 s, IsToken 32 x := fun x hx => isToken_of_mem hx
  have htokens : ∀ x ∈ pre2 ++ ENFORCING :: post2, IsToken 32 x := by
    intro x hx
    rcases List.mem_append.mp hx with hx | hx
    · exact htoken x (by rw [hsplit]; simp [hx])
    · rcases List.mem_cons.mp hx with rfl | hx
      · exact enforcing_isToken
      · exact htoken x (by rw [hsplit]; simp [hx])
  obtain ⟨result, hresult, hres⟩ := tokens_assemble (by simp) htokens
  have hstep1 := residues_restarted_length (t := t) hs
  have hstep2 := @residues_length pre2 post2 u _ residue_enforcing
  have hreplace2 := @residues_replace_iff pre2 post2 u _ residue_enforcing
  rw [← hsplit] at hstep2 hreplace2
  have hignu : (∀ x ∈ pre2 ++ ENFORCING :: post2, ¬ Ignoring x) ↔ ∀ x ∈ pre ++ post, ¬ Ignoring x := by
    rw [ignoring_iff not_ignoring_enforcing, ← ignoring_restarted hs, hsplit,
      ignoring_iff fun h => ignoring_not_mode h hu']
  refine ⟨result, u, hfindu, by rw [hset, hresult], ?_⟩
  rw [hres]
  constructor
  · rintro ⟨hno, -, hpreserved⟩
    have hlen := congrArg List.length hpreserved
    refine ⟨?_, hignu.mp hno, ?_⟩
    · by_contra hne
      rw [if_neg hne] at hstep1
      omega
    · by_contra hne
      rw [if_neg hne] at hstep2
      omega
  · rintro ⟨ht, hno, hmode⟩
    refine ⟨hignu.mpr hno, ⟨VERITY_TABLE_OPT_RESTART, ?_, by decide⟩, ?_⟩
    · have hmem := mem_restarted hs
      rw [hsplit] at hmem
      rcases List.mem_append.mp hmem with h | h
      · simp [h]
      · rcases List.mem_cons.mp h with h | h
        · rw [← h] at hu'
          exact absurd hu' restart_not_mode
        · simp [h]
    · rw [hreplace2.mpr hmode]
      exact (residues_restarted hs).mpr ht

/-- On a line without one it is appended. -/
theorem appendMode_iff (hs : tokens 32 s = pre ++ VERITY_TABLE_OPT_RESTART :: post) :
    ∃ result, assemble (tokens 32 s ++ [ENFORCING]) = some result ∧
      (((∀ x ∈ tokens 32 result, ¬ Ignoring x) ∧ (∃ x ∈ tokens 32 result, Restarting x) ∧
          residues (tokens 32 result) = residues (pre ++ t :: post)) ↔
        residue t = [] ∧ ∀ x ∈ pre ++ post, ¬ Ignoring x) := by
  have htokens : ∀ x ∈ tokens 32 s ++ [ENFORCING], IsToken 32 x := by
    intro x hx
    rcases List.mem_append.mp hx with hx | hx
    · exact isToken_of_mem hx
    · rw [List.mem_singleton.mp hx]
      exact enforcing_isToken
  obtain ⟨result, hresult, hres⟩ := tokens_assemble (by simp) htokens
  have hsame : residues (tokens 32 s ++ [ENFORCING]) = residues (tokens 32 s) := by
    rw [residues_append, show residues [ENFORCING] = [] by decide, List.append_nil]
  have hign : (∀ x ∈ tokens 32 s ++ [ENFORCING], ¬ Ignoring x) ↔ ∀ x ∈ pre ++ post, ¬ Ignoring x := by
    rw [ignoring_iff not_ignoring_enforcing, List.append_nil, ignoring_restarted hs]
  refine ⟨result, hresult, ?_⟩
  rw [hres, hsame, hign, residues_restarted hs]
  constructor
  · rintro ⟨hno, -, ht⟩
    exact ⟨ht, hno⟩
  · rintro ⟨ht, hno⟩
    exact ⟨hno, ⟨VERITY_TABLE_OPT_RESTART, by simp [mem_restarted hs], by decide⟩, ht⟩

theorem avbSetVeritymode_tokens (hs : tokens 32 s = pre ++ VERITY_TABLE_OPT_RESTART :: post)
    (hlen : (tokens 32 s).length < AVB_MAX_ARGS) :
    (∃ result, avbSetVeritymode s ENFORCING = some result ∧ (∀ x ∈ tokens 32 result, ¬ Ignoring x) ∧
        (∃ x ∈ tokens 32 result, Restarting x) ∧ residues (tokens 32 result) = residues (pre ++ t :: post)) ↔
      residue t = [] ∧ (∀ x ∈ pre ++ post, ¬ Ignoring x) ∧ ModeFits (pre ++ post) := by
  have hmode := @find?_mode pre post
  rw [← hs] at hmode
  have hlength : (tokens 32 s).length = (pre ++ post).length + 1 := by
    rw [hs]
    simp
    omega
  unfold avbSetVeritymode avbFindDmArgs
  change (∃ result, (if AVB_MAX_ARGS ≤ (tokens 32 s).length then _ else _) = some result ∧ _) ↔ _
  rw [if_neg (not_le.mpr hlen), show ascii "androidboot.veritymode=" = VERITYMODE from rfl]
  unfold ModeFits
  rw [← hmode]
  cases hfind : (tokens 32 s).findIdx? fun a => VERITYMODE <:+: a with
  | some j =>
    obtain ⟨result, u, hfindu, hresult, hiff⟩ := replaceMode_iff (t := t) hs hfind
    dsimp only
    rw [hresult, hfindu]
    dsimp only
    rw [← hiff]
    constructor
    · rintro ⟨r, hr, h⟩
      obtain rfl := Option.some.inj hr
      exact h
    · exact fun h => ⟨result, rfl, h⟩
  | none =>
    have hnone : (tokens 32 s).find? (fun a => VERITYMODE <:+: a) = none := by
      rw [List.find?_eq_none]
      exact fun x hx => by simpa using findIdx?_eq_none hfind x hx
    obtain ⟨result, hresult, hiff⟩ := appendMode_iff (t := t) hs
    dsimp only
    rw [hnone]
    dsimp only
    by_cases hroom : AVB_MAX_ARGS ≤ (tokens 32 s).length + 1
    · rw [if_pos hroom]
      constructor
      · rintro ⟨r, hr, -⟩
        cases hr
      · rintro ⟨-, -, hfits⟩
        omega
    · rw [if_neg hroom, hresult]
      constructor
      · rintro ⟨r, hr, h⟩
        obtain rfl := Option.some.inj hr
        obtain ⟨ht, hno⟩ := hiff.mp h
        exact ⟨ht, hno, by omega⟩
      · rintro ⟨ht, hno, -⟩
        exact ⟨result, rfl, hiff.mpr ⟨ht, hno⟩⟩

end

end RCar.AvbVerify
