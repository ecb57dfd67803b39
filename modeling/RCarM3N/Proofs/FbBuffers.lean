import RCarM3N.Model.FbBuffers

/-! When a packet is handled inside its buffers. A list of actions is safe if each of them is; one
lemma says when the actions of one function are, and the packet's are read off these. -/

namespace RCar.Fastboot.Buffers

def Safe (actions : List Action) : Prop := ∀ a ∈ actions, a.safe

@[simp] theorem safe_nil : Safe [] := List.forall_mem_nil _

@[simp] theorem safe_cons {a : Action} {actions : List Action} : Safe (a :: actions) ↔ a.safe ∧ Safe actions :=
  List.forall_mem_cons

@[simp] theorem safe_append {actions rest : List Action} : Safe (actions ++ rest) ↔ Safe actions ∧ Safe rest :=
  List.forall_mem_append

@[simp] theorem safe_flatMap {α : Type} {l : List α} {f : α → List Action} :
    Safe (l.flatMap f) ↔ ∀ x ∈ l, Safe (f x) := by
  simp only [Safe, List.mem_flatMap]
  exact ⟨fun h x hx a ha => h a ⟨x, hx, ha⟩, fun h a ⟨x, hx, ha⟩ => h x hx a ha⟩

@[simp] theorem strcpy_safe {capacity : ℕ} {s : CStr} : (strcpy capacity s).safe ↔ s.length < capacity := Iff.rfl

theorem length_snprintf (size : ℕ) (text : CStr) : (snprintf size text).length = min (size - 1) text.length :=
  List.length_take

theorem print_safe {capacity size : ℕ} (text : CStr) (hsize : 0 < size) (hcapacity : size ≤ capacity) :
    (print capacity size text).safe := by
  change (snprintf size text).length + 1 ≤ capacity
  rw [length_snprintf]
  omega

@[simp] theorem print_name_safe (text : CStr) : (print PART_NAME_LEN PART_NAME_LEN text).safe :=
  print_safe text (by decide) (by decide)

/-! ## What is sent -/

@[simp] theorem sendResponse_safe {message : CStr} : Safe (fastbootSendResponse message) ↔ message.length ≤ 64 := by
  constructor
  · intro h
    have hqueue : (Action.queue message (snprintf FASTBOOT_RESPONSE_LEN message ++ [0]) message.length).safe :=
      h _ (by simp [fastbootSendResponse, fastbootTxWrite])
    exact hqueue.1
  · intro h
    have hwhole : snprintf FASTBOOT_RESPONSE_LEN message = message := snprintf_eq_self_iff.mpr h
    have htx : message.length ≤ EP_BUFFER_SIZE.toNat := h.trans (by decide)
    have hbuffer : message.length + 1 ≤ FASTBOOT_RESPONSE_LEN := Nat.succ_le_succ h
    simp only [fastbootSendResponse, fastbootTxWrite, hwhole, safe_cons, Action.safe]
    exact ⟨hbuffer, htx, ⟨h, le_refl _, by simp⟩, safe_nil⟩

theorem Tag.length_text (tag : Tag) : tag.text.length = 4 := by
  cases tag <;> rfl

theorem length_response (tag : Tag) (text : CStr) : (fastbootResponse tag.text text).length = 4 + min 59 text.length := by
  rw [fastbootResponse, List.length_append, List.length_take, tag.length_text]
  rfl

theorem response_prefix (tag text : CStr) : fastbootResponse tag text <+: tag ++ text :=
  List.prefix_append_right_inj tag |>.mpr (List.take_prefix _ text)

theorem respond_safe (tag : Tag) (text : CStr) : Safe (respond FASTBOOT_RESPONSE_LEN tag text) := by
  simp only [respond, safe_cons, strcpy_safe, tag.length_text, length_response, FASTBOOT_RESPONSE_LEN]
  exact ⟨by decide, by omega, safe_nil⟩

/-- Whatever the handlers answer, the answer is cut to its buffer and sent as it was kept. -/
theorem sendAnswer_safe (answer : Option (Tag × CStr)) : Safe (sendAnswer answer) := by
  cases answer with
  | none => simp [sendAnswer, fastbootTxWrite, Action.safe]
  | some r =>
    obtain ⟨tag, text⟩ := r
    have hlen := length_response tag text
    have hprefix := response_prefix tag.text text
    have htx : (fastbootResponse tag.text text).length ≤ EP_BUFFER_SIZE.toNat :=
      (show _ ≤ 64 by omega).trans (by decide)
    simp only [sendAnswer, safe_append, fastbootTxWrite, safe_cons, Action.safe]
    refine ⟨respond_safe tag text, htx, ⟨by omega, hprefix.length_le, ?_⟩, safe_nil⟩
    rw [List.take_left]
    exact List.prefix_iff_eq_take.mp hprefix

/-! ## Callbacks -/

theorem fill_safe (text : CStr) : Safe (fill text).1 :=
  safe_cons.mpr ⟨print_safe text (by decide) (by decide), safe_nil⟩

theorem cbEnv_safe (w : Readings) (name val : CStr) : Safe (cbEnv w name val).1 := by
  unfold cbEnv
  split
  · exact fill_safe _
  · exact safe_nil

variable (w : Readings)

theorem find_safe (partname : CStr) (parts : List OemPart) : Safe (findOemPartitionWithSlot w partname parts).1 := by
  induction parts with
  | nil => exact safe_nil
  | cons p rest ih =>
    rw [findOemPartitionWithSlot]
    split
    · split
      · exact safe_nil
      · dsimp only
        split
        · exact safe_cons.mpr ⟨print_name_safe _, safe_nil⟩
        · exact safe_cons.mpr ⟨print_name_safe _, ih⟩
    · exact ih

/-- The text `all` begins with a letter that the variables with a colon do not begin with. -/
theorem firstToken_ne_all {val : CStr} (h : val.head? ≠ some 97) : firstToken 58 val ≠ ascii "all" := by
  intro hall
  cases val with
  | nil => exact absurd hall (by decide)
  | cons c rest =>
    unfold firstToken at hall
    by_cases hc : c = 58
    · rw [List.takeWhile_cons_of_pos (by simpa using hc), List.cons_append] at hall
      exact absurd (List.cons.inj hall).1 (by rw [hc]; decide)
    · rw [List.takeWhile_cons_of_neg (by simpa using hc), List.dropWhile_cons_of_neg (by simpa using hc),
        List.takeWhile_cons_of_pos (by simpa using hc), List.nil_append] at hall
      exact h (congrArg some (List.cons.inj hall).1)

/-- The name of the partition that is asked for fits where it is copied. -/
def ArgumentFits (var : CStr) : Prop := ∀ part, argument var = some part → part.length ≤ 31

theorem cbPartitionSize_safe_iff {val : CStr} (hval : firstToken 58 val ≠ ascii "all") :
    Safe (cbPartitionSize w val).1 ↔ (w.blkdev.isSome → ArgumentFits val) := by
  unfold cbPartitionSize ArgumentFits
  cases hdev : w.blkdev with
  | none => simp [failed]
  | some d =>
    rw [if_neg hval]
    cases hpart : argument val with
    | none => simp [failed]
    | some part =>
      have hcopy : part.length < PART_NAME_LEN ↔ part.length ≤ 31 := Nat.lt_succ_iff
      dsimp only
      cases (findOemPartitionWithSlot w part w.parts).2 with
      | none => split <;> simp [find_safe, fill_safe, hcopy]
      | some p => split <;> simp [find_safe, fill_safe, hcopy]

theorem cbPartitionType_safe {val : CStr} (hval : firstToken 58 val ≠ ascii "all") : Safe (cbPartitionType w val).1 := by
  unfold cbPartitionType
  rw [if_neg hval]
  split
  · exact safe_nil
  · dsimp only
    split
    · exact safe_append.mpr ⟨find_safe w _ _, fill_safe _⟩
    · exact find_safe w _ _

theorem cbHasSlot_safe {val : CStr} (hval : firstToken 58 val ≠ ascii "all") : Safe (cbHasSlot w val).1 := by
  unfold cbHasSlot
  rw [if_neg hval]
  split <;> exact fill_safe _

theorem cbSlot_safe {var val : CStr} {text : Fin 2 → Option CStr} (hval : firstToken 58 val ≠ ascii "all") :
    Safe (cbSlot var text val).1 := by
  unfold cbSlot
  rw [if_neg hval]
  split
  · exact safe_nil
  · split
    · split
      · exact fill_safe _
      · exact safe_nil
    · exact safe_nil

theorem Variable.var_ne_nil (v : Variable) : v.var ≠ [] := by
  cases v <;> decide

theorem Variable.head_ne (v : Variable) (h : v.var.contains 58 = true) : v.var.head? ≠ some 97 := by
  revert h
  cases v <;> decide

/-- A callback for one variable overflows a buffer only with the name of a partition. -/
theorem cb_safe_iff {v : Variable} {val : CStr} (hval : entryMatches val v.var = true) :
    Safe (v.cb w val).1 ↔ (v = .partitionSize → w.blkdev.isSome → ArgumentFits val) := by
  have hall : v.var.contains 58 = true → firstToken 58 val ≠ ascii "all" := by
    intro hcolon
    rw [entryMatches, if_pos hcolon, List.isPrefixOf_iff_prefix] at hval
    obtain ⟨rest, rfl⟩ := hval
    refine firstToken_ne_all ?_
    rw [List.head?_append_of_ne_nil _ v.var_ne_nil]
    exact v.head_ne hcolon
  cases v with
  | partitionSize => simpa [Variable.cb] using cbPartitionSize_safe_iff w (hall (by decide))
  | partitionType => simpa [Variable.cb] using cbPartitionType_safe w (hall (by decide))
  | hasSlot => simpa [Variable.cb] using cbHasSlot_safe w (hall (by decide))
  | slotSuccessful => simpa [Variable.cb] using cbSlot_safe (hall (by decide))
  | slotUnbootable => simpa [Variable.cb] using cbSlot_safe (hall (by decide))
  | slotRetryCount => simpa [Variable.cb] using cbSlot_safe (hall (by decide))
  | product => simpa [Variable.cb] using cbEnv_safe w _ val
  | platform => simpa [Variable.cb] using cbEnv_safe w _ val
  | serialno => simpa [Variable.cb] using cbEnv_safe w _ val
  | currentSlot =>
    simp only [Variable.cb]
    split <;> simp [fill_safe]
  | _ => simp [Variable.cb, fill_safe]

/-! ## The listing of the variables -/

/-- The sizes are listed up to the first partition that the eMMC does not have. -/
def SizesFit : List OemPart → Prop
  | [] => True
  | p :: rest =>
    (p.slot = none → p.name.length ≤ 31) ∧
      ∀ info, w.partGetInfoByName (tableName p) = some info →
        (tableName p).length + (numberText 16 info.bytes.toNat).length ≤ 42 ∧ SizesFit rest

/-- What the entry's lines need to be sent whole in an answer to `all`. -/
def ListedFits : Variable → Prop
  | .versionBootloader => w.uBootVersion.length ≤ 41
  | .product => ∀ s, w.env (ascii "product") = some s → s.length ≤ 52
  | .platform => ∀ s, w.env (ascii "platform") = some s → s.length ≤ 51
  | .serialno => ∀ s, w.env (ascii "serialno") = some s → s.length ≤ 51
  | .partitionSize => w.blkdev.isSome → SizesFit w w.parts
  | .partitionType => ∀ p ∈ w.parts, p.fullName.length + p.fs.length ≤ 44
  | .hasSlot => ∀ p ∈ w.parts,
    (p.slot = none → p.name.length ≤ 48) ∧ (p.slot = some (ascii "_a") → p.name.length ≤ 47)
  | _ => True

theorem line_safe_iff {var val : CStr} :
    Safe (fastbootSendResponse (ascii "INFO" ++ var ++ ascii ":" ++ val)) ↔ var.length + val.length ≤ 59 := by
  have hlen : (ascii "INFO" ++ var ++ ascii ":" ++ val).length = var.length + val.length + 5 := by
    simp [ascii]
    omega
  rw [sendResponse_safe, hlen]
  omega

theorem all_fits : (ascii "all").length < FASTBOOT_RESPONSE_LEN := by decide

theorem listVariable_lines {v : Variable} {lines : List Action} (h : v.cb w (ascii "all") = (lines, none)) :
    Safe (listVariable w v) ↔ Safe lines := by
  simp only [listVariable, h, List.append_nil, safe_cons, strcpy_safe, all_fits, true_and]

theorem listVariable_text {v : Variable} {actions : List Action} {val : CStr} (h : v.cb w (ascii "all") = (actions, some val))
    (hactions : Safe actions) : Safe (listVariable w v) ↔ v.var.length + val.length ≤ 59 := by
  simp only [listVariable, h, List.cons_append, safe_cons, safe_append, strcpy_safe, all_fits, hactions, line_safe_iff,
    true_and]

/-- A text too long for its line is too long with what is left of it in the buffer. -/
theorem listVariable_fill {v : Variable} {text : CStr} (h : v.cb w (ascii "all") = fill text) :
    Safe (listVariable w v) ↔ v.var.length + text.length ≤ 59 := by
  rw [listVariable_text w h (fill_safe text), length_snprintf, FASTBOOT_RESPONSE_LEN]
  omega

theorem listVariable_env {v : Variable} {name : CStr} (h : v.cb w (ascii "all") = cbEnv w name (ascii "all"))
    (hvar : v.var.length ≤ 56) :
    Safe (listVariable w v) ↔ ∀ s, w.env name = some s → s.length ≤ 59 - v.var.length := by
  unfold cbEnv at h
  cases henv : w.env name with
  | none =>
    rw [henv] at h
    rw [listVariable_text w h safe_nil]
    simp [ascii]
    omega
  | some s =>
    rw [henv] at h
    rw [listVariable_fill w h]
    simp
    omega

theorem listSizes_safe_iff (parts : List OemPart) : Safe (listSizes w parts) ↔ SizesFit w parts := by
  induction parts with
  | nil => simp [listSizes, SizesFit]
  | cons p rest ih =>
    have hname : (formName p).safe ↔ (p.slot = none → p.name.length ≤ 31) := by
      unfold formName
      cases p.slot with
      | some slot => simp
      | none => simp [PART_NAME_LEN, Nat.lt_succ_iff]
    rw [listSizes, SizesFit]
    cases hinfo : w.partGetInfoByName (tableName p) with
    | none => simp [hname]
    | some info =>
      have hlen : (ascii "INFOpartition-size:" ++ tableName p ++ ascii ":" ++ hexadecimal info.bytes.toNat).length =
          (tableName p).length + (numberText 16 info.bytes.toNat).length + 22 := by
        simp [ascii, hexadecimal]
        omega
      simp only [List.cons_append, safe_cons, safe_append, hname, sendResponse_safe, hlen, ih, Option.some.injEq, forall_eq']
      exact and_congr Iff.rfl (and_congr (by omega) Iff.rfl)

theorem length_slotChar (slot : Fin 2) : (slotChar slot).length = 1 := by
  unfold slotChar
  split <;> rfl

theorem listVariable_slot {v : Variable} {var : CStr} {text : Fin 2 → Option CStr}
    (h : v.cb w (ascii "all") = cbSlot var text (ascii "all")) (hvar : var.length ≤ 55)
    (htext : ∀ slot t, text slot = some t → t.length ≤ 3) : Safe (listVariable w v) := by
  have hnone : cbSlot var text (ascii "all") = ((cbSlot var text (ascii "all")).1, none) := by
    unfold cbSlot
    rw [if_pos (by decide)]
  rw [listVariable_lines w (h.trans hnone)]
  unfold cbSlot
  rw [if_pos (by decide)]
  simp only [safe_flatMap]
  intro slot _
  cases ht : text slot with
  | none => exact safe_nil
  | some t =>
    have := htext slot t ht
    have hslot := length_slotChar slot
    simp only [sendResponse_safe, List.length_append, hslot]
    simp [ascii]
    omega

theorem slotLine_safe_iff (p : OemPart) :
    Safe (slotLine p) ↔
      (p.slot = none → p.name.length ≤ 48) ∧ (p.slot = some (ascii "_a") → p.name.length ≤ 47) := by
  have hlen : ∀ b, (ascii "INFOhas-slot:" ++ p.name ++ ascii ":" ++ yesNo b).length = p.name.length + 14 + (yesNo b).length := by
    intro b
    simp [ascii]
    omega
  have hyes : (yesNo true).length = 3 := rfl
  have hno : (yesNo false).length = 2 := rfl
  unfold slotLine
  cases p.slot with
  | none =>
    simp only [sendResponse_safe, hlen, hno, true_imp_iff, reduceCtorEq, false_imp_iff, and_true]
    omega
  | some slot =>
    dsimp only
    by_cases hslot : slot = ascii "_a"
    · rw [if_pos hslot, sendResponse_safe, hlen, hyes, hslot]
      simp only [reduceCtorEq, false_imp_iff, true_imp_iff, true_and]
      omega
    · rw [if_neg hslot]
      simp [hslot]

theorem length_yesNo_le (b : Bool) : (yesNo b).length ≤ 3 := by
  cases b <;> decide

theorem length_byte_le (n : UInt8) : (numberText 10 n.toNat).length ≤ 3 :=
  (length_numberText_le_iff (by decide) (by decide)).mpr (n.toNat_lt.trans (by decide))

theorem listVariable_safe_iff (v : Variable) : Safe (listVariable w v) ↔ ListedFits w v := by
  cases v with
  | versionBootloader => exact listVariable_fill w rfl |>.trans (by simp [ListedFits, Variable.var, ascii]; omega)
  | product => exact listVariable_env w rfl (by decide)
  | platform => exact listVariable_env w rfl (by decide)
  | serialno => exact listVariable_env w rfl (by decide)
  | partitionSize =>
    cases hdev : w.blkdev with
    | none =>
      have hcb : Variable.partitionSize.cb w (ascii "all") = ([], none) := by
        simp [Variable.cb, cbPartitionSize, hdev, failed]
      rw [listVariable_lines w hcb]
      simp [ListedFits, hdev]
    | some d =>
      have hcb : Variable.partitionSize.cb w (ascii "all") = (listSizes w w.parts, none) := by
        simp only [Variable.cb, cbPartitionSize, hdev]
        rfl
      rw [listVariable_lines w hcb, listSizes_safe_iff]
      simp [ListedFits, hdev]
  | partitionType =>
    rw [listVariable_lines w rfl, safe_flatMap]
    refine forall₂_congr fun p _ => ?_
    rw [sendResponse_safe]
    simp [ascii]
    omega
  | hasSlot =>
    rw [listVariable_lines w rfl, safe_flatMap]
    exact forall₂_congr fun p _ => slotLine_safe_iff p
  | slotSuccessful =>
    refine iff_of_true (listVariable_slot w rfl (by decide) fun slot t ht => ?_) trivial
    obtain ⟨b, -, rfl⟩ := Option.map_eq_some_iff.mp ht
    exact length_yesNo_le b
  | slotUnbootable =>
    refine iff_of_true (listVariable_slot w rfl (by decide) fun slot t ht => ?_) trivial
    obtain ⟨b, -, rfl⟩ := Option.map_eq_some_iff.mp ht
    exact length_yesNo_le !b
  | slotRetryCount =>
    refine iff_of_true (listVariable_slot w rfl (by decide) fun slot t ht => ?_) trivial
    obtain ⟨n, -, rfl⟩ := Option.map_eq_some_iff.mp ht
    exact length_byte_le n
  | revision =>
    have hinteger := length_byte_le w.revInteger
    have hfraction := length_byte_le w.revFraction
    refine iff_of_true ((listVariable_fill w rfl).mpr ?_) trivial
    simp only [List.length_append]
    simp [ascii, Variable.var]
    simp only [length_numberText] at hinteger hfraction
    omega
  | unlocked => exact iff_of_true ((listVariable_fill w rfl).mpr ((Nat.add_le_add_left (length_yesNo_le _) _).trans (by decide))) trivial
  | maxDownloadSize =>
    have hsize : (numberText 16 w.CONFIG_FASTBOOT_BUF_SIZE.toNat).length ≤ 8 :=
      (length_numberText_le_iff (by decide) (by decide)).mpr (UInt32.toNat_lt _)
    refine iff_of_true ((listVariable_fill w rfl).mpr ?_) trivial
    simp only [hexadecimal, List.length_append]
    simp only [length_numberText] at hsize
    simp [ascii, Variable.var]
    omega
  | currentSlot =>
    cases hslot : w.currentSlot with
    | none =>
      have hcb : Variable.currentSlot.cb w (ascii "all") = ([], some []) := by
        simp only [Variable.cb, hslot]
      exact iff_of_true ((listVariable_text w hcb safe_nil).mpr (by decide)) trivial
    | some slot =>
      have hcb : Variable.currentSlot.cb w (ascii "all") = fill (slotChar slot) := by
        simp only [Variable.cb, hslot]
      refine iff_of_true ((listVariable_fill w hcb).mpr ?_) trivial
      rw [length_slotChar]
      decide
  | snapshotUpdateStatus =>
    have hstatus : w.snapshotStatus.text.length ≤ 11 := by
      cases w.snapshotStatus <;> decide
    exact iff_of_true ((listVariable_fill w rfl).mpr ((Nat.add_le_add_left hstatus _).trans (by decide))) trivial
  | variant => exact iff_of_true ((listVariable_text w rfl safe_nil).mpr (by decide)) trivial
  | _ => exact iff_of_true ((listVariable_fill w rfl).mpr (by decide)) trivial

theorem mem_varDispatchInfo (v : Variable) : v ∈ varDispatchInfo := by
  cases v <;> decide

/-- What a request for a variable of this name needs. -/
def VariableFits (name : CStr) : Prop :=
  if name = ascii "all" then ∀ v, ListedFits w v
  else ∀ v, varDispatchInfo.find? (fun v => entryMatches name v.var) = some v →
    name.length ≤ 64 ∧ (v = .partitionSize → w.blkdev.isSome → ArgumentFits name)

theorem getvar_safe_iff (var : Option CStr) :
    Safe (fastbootCbGetvar w var).actions ↔ VariableFits w (var.getD w.nullText) := by
  unfold fastbootCbGetvar VariableFits
  dsimp only
  split
  · simp only [safe_flatMap, listVariable_safe_iff]
    exact ⟨fun h v => h v (mem_varDispatchInfo v), fun h v _ => h v⟩
  · cases hfind : varDispatchInfo.find? fun v => entryMatches (var.getD w.nullText) v.var with
    | none =>
      simp only [failed]
      cases w.env (var.getD w.nullText) <;> simp
    | some v =>
      have hmatches := List.find?_some hfind
      have hcb := cb_safe_iff w hmatches
      have hcopy : (var.getD w.nullText).length < FASTBOOT_RESPONSE_LEN ↔ (var.getD w.nullText).length ≤ 64 := Nat.lt_succ_iff
      dsimp only
      cases (v.cb w (var.getD w.nullText)).2 <;> cases w.env (var.getD w.nullText) <;> simp [hcopy, hcb]

/-! ## The commands of the manufacturer -/

theorem length_macroStep {env : Env} {prev c : UInt8} {raw : CStr} {state : MacroState} {out : CStr}
    (h : out.length < CONFIG_SYS_CBSIZE) : (macroStep env prev c raw state out).2.length ≤ CONFIG_SYS_CBSIZE := by
  unfold macroStep
  split <;> split_ifs <;> simp <;> omega

theorem length_macroLoop {env : Env} {input : CStr} {prev : UInt8} {state : MacroState} {out : CStr}
    (h : out.length ≤ CONFIG_SYS_CBSIZE) : (macroLoop env input prev state out).length ≤ CONFIG_SYS_CBSIZE := by
  fun_induction macroLoop with
  | case1 => exact h
  | case2 _ _ _ _ hfull => exact h
  | case3 _ _ _ hroom => exact length_macroStep (not_le.mp hroom)
  | case4 => exact h
  | case5 _ _ _ hroom => exact length_macroStep (not_le.mp hroom)
  | case6 => exact h
  | case7 _ _ _ _ _ hroom _ ih => exact ih (length_macroStep (not_le.mp hroom))
  | case8 _ _ _ _ _ hroom _ _ _ _ ih => exact ih (length_macroStep (not_le.mp hroom))
  | case9 _ _ _ _ _ hroom _ _ _ _ ih => exact ih (length_macroStep (not_le.mp hroom))

/-- The result of the macros ends inside the caller's buffer. -/
theorem length_processed (env : Env) (input : CStr) : (cliSimpleProcessMacros env input).length < CONFIG_SYS_CBSIZE := by
  have hloop : (macroLoop env input 0 .waiting []).length ≤ CONFIG_SYS_CBSIZE := length_macroLoop (Nat.zero_le _)
  unfold cliSimpleProcessMacros
  dsimp only
  split
  · rw [List.length_dropLast]
    have : 0 < CONFIG_SYS_CBSIZE := by decide
    omega
  · omega

/-- What a request to set a variable needs: the names that its value refers to and its own name are
short enough. -/
def SetenvFits (varval : CStr) : Prop :=
  let (key, value) := strsep varval 32
  let input := value.getD w.nullText
  (∀ name ∈ namesOf w.env input, name.length < CONFIG_SYS_CBSIZE) ∧
    key.length ≤ if value.isSome ∧ cliSimpleProcessMacros w.env input ≠ [] then 48 else 50

theorem setenvLine_fits (varval : CStr) :
    (setenvLine w varval).length ≤ 64 ↔ (strsep varval 32).1.length ≤
      if (strsep varval 32).2.isSome ∧ cliSimpleProcessMacros w.env ((strsep varval 32).2.getD w.nullText) ≠ [] then 48
      else 50 := by
  have hset : (ascii "INFOsetting env ").length = 16 := rfl
  have herase : (ascii "INFOerase env ").length = 14 := rfl
  unfold setenvLine
  dsimp only
  split
  · rw [List.length_append, hset]
    omega
  · rw [List.length_append, herase]
    omega

theorem oemSetenv_safe_iff {varval : CStr} (h : varval ≠ ascii "default") :
    Safe (oemSetenv w varval).actions ↔ SetenvFits w varval := by
  have hactions : Safe (processMacros w ((strsep varval 32).2.getD w.nullText) ++ fastbootSendResponse (setenvLine w varval)) ↔
      SetenvFits w varval := by
    simp only [processMacros, safe_append, safe_cons, strcpy_safe, length_processed, safe_nil, and_true, sendResponse_safe,
      setenvLine_fits, SetenvFits]
    simp only [Safe, List.forall_mem_map, strcpy_safe]
  rw [← hactions]
  simp only [oemSetenv, if_neg h]
  split
  · rfl
  · split <;> rfl

/-- What the line of a partition in the new table needs. -/
def LineFits (table : CStr → Option PartInfo) (p : OemPart) : Prop :=
  match table p.fullName with
  | some info => info.name.length + (numberText 10 (info.bytes.toNat / 1024)).length + p.fs.length ≤ 45
  | none => p.name.length ≤ 27

structure FormatFits (d : BlkDesc) : Prop where
  device : d.vendor.length + d.product.length + d.revision.length + (numberText 10 d.mebibytes.toNat).length ≤ 47
  names : w.allocated = true → ∀ p ∈ w.parts, p.fullName.length ≤ 31
  lines : w.allocated = true → ∀ table, w.gptRestore = some table → ∀ p ∈ w.parts, LineFits table p

theorem copyName_safe_iff (p : OemPart) : Safe (copyName p) ↔ p.fullName.length ≤ 31 := by
  unfold copyName OemPart.fullName
  cases p.slot with
  | none => simp [PART_NAME_LEN, Nat.lt_succ_iff]
  | some slot =>
    simp only [safe_cons, strcpy_safe, safe_nil, and_true, PART_NAME_LEN, List.length_append, Option.getD_some]
    omega

theorem formatLine_fits (table : CStr → Option PartInfo) (p : OemPart) :
    (formatLine table p).length ≤ 64 ↔ LineFits table p := by
  unfold formatLine LineFits
  cases table p.fullName with
  | none =>
    simp [ascii]
    omega
  | some info =>
    simp [ascii]
    omega

theorem oemFormat_safe_iff : Safe (oemFormat w).actions ↔ ∀ d, w.blkdev = some d → FormatFits w d := by
  unfold oemFormat
  cases hdev : w.blkdev with
  | none => simp [fail]
  | some d =>
    have hdevice : (deviceLine d).length ≤ 64 ↔
        d.vendor.length + d.product.length + d.revision.length + (numberText 10 d.mebibytes.toNat).length ≤ 47 := by
      simp [deviceLine, ascii]
      omega
    have hcreated : (ascii "INFO Created new GPT partition table:").length ≤ 64 := by decide
    have hforall : ∀ {p : BlkDesc → Prop}, (∀ d', some d = some d' → p d') ↔ p d := by
      intro p
      simp
    rw [hforall]
    dsimp only
    cases halloc : w.allocated with
    | false =>
      simp only [Bool.not_false, if_true, sendResponse_safe, hdevice]
      exact ⟨fun h => ⟨h, by simp [halloc], by simp [halloc]⟩, fun h => h.device⟩
    | true =>
      simp only [Bool.not_true, Bool.false_eq_true, if_false]
      cases htable : w.gptRestore with
      | none =>
        simp only [safe_append, sendResponse_safe, hdevice, safe_flatMap, copyName_safe_iff]
        exact ⟨fun h => ⟨h.1, fun _ => h.2, by simp [htable]⟩, fun h => ⟨h.device, h.names halloc⟩⟩
      | some table =>
        simp only [safe_append, sendResponse_safe, hdevice, safe_flatMap, copyName_safe_iff, hcreated, and_true, formatLine_fits]
        constructor
        · intro h
          refine ⟨h.1.1, fun _ => h.1.2, fun _ table' htable' p hp => ?_⟩
          rw [htable] at htable'
          cases htable'
          exact (h.2 p hp).2
        · intro h
          exact ⟨⟨h.device, h.names halloc⟩, fun p hp => ⟨h.names halloc p hp, h.lines halloc table htable p hp⟩⟩


/-- What a command of the manufacturer needs. -/
def OemFits (cmdString : CStr) : Prop :=
  let (word, cmdarg) := oemArguments w (strsep cmdString 32).2
  let (mmcLocked, iplLocked) := w.lockStatus.getD (false, false)
  (word = ascii "format" → (mmcLocked || iplLocked) = false → ∀ d, w.blkdev = some d → FormatFits w d) ∧
    (word = ascii "setenv" → ∀ varval, cmdarg = some varval → varval ≠ ascii "default" → SetenvFits w varval)

theorem oemDumpHelp_safe : Safe oemDumpHelp.actions := by
  simp only [oemDumpHelp, safe_flatMap, sendResponse_safe]
  decide

theorem oemLockStatus_safe : Safe (oemLockStatus w).actions := by
  have hword : ∀ b, (lockWord b).length ≤ 8 := by decide
  have hline : ∀ b text, text.length = 9 → (text ++ lockWord b).length ≤ 64 := by
    intro b text htext
    have := hword b
    rw [List.length_append]
    omega
  unfold oemLockStatus
  split
  · simp only [safe_append, sendResponse_safe]
    exact ⟨hline _ _ rfl, hline _ _ rfl⟩
  · exact safe_nil

theorem oemErase_safe : Safe (oemErase w).actions := by
  unfold oemErase
  split
  · rename_i failure _
    cases failure <;> simp only [respond, safe_cons, strcpy_safe, safe_nil, and_true] <;> decide
  · exact safe_nil

theorem oem_safe_iff (cmdString : CStr) : Safe (fastbootCbOem w cmdString).actions ↔ OemFits w cmdString := by
  simp only [fastbootCbOem, OemFits]
  generalize (oemArguments w (strsep cmdString 32).2).1 = word
  generalize (oemArguments w (strsep cmdString 32).2).2 = cmdarg
  generalize (w.lockStatus.getD (false, false)).1 = mmcLocked
  generalize (w.lockStatus.getD (false, false)).2 = iplLocked
  by_cases hhelp : word = ascii "help"
  · rw [if_pos hhelp]
    subst hhelp
    exact iff_of_true oemDumpHelp_safe ⟨fun h => absurd h (by decide), fun h => absurd h (by decide)⟩
  by_cases hstatus : word = ascii "lock_status"
  · rw [if_neg hhelp, if_pos hstatus]
    subst hstatus
    exact iff_of_true (oemLockStatus_safe w) ⟨fun h => absurd h (by decide), fun h => absurd h (by decide)⟩
  by_cases hformat : word = ascii "format"
  · rw [if_neg hhelp, if_neg hstatus, if_pos hformat]
    subst hformat
    have hsetenv : ascii "format" ≠ ascii "setenv" := by decide
    cases hlocked : mmcLocked || iplLocked with
    | true => simp [fail, hsetenv]
    | false => simp [oemFormat_safe_iff, hsetenv]
  by_cases hsetenv : word = ascii "setenv"
  · rw [if_neg hhelp, if_neg hstatus, if_neg hformat, if_pos hsetenv]
    simp only [hformat, false_imp_iff, true_and, eq_true hsetenv, true_imp_iff]
    cases cmdarg with
    | none => simp [fail]
    | some varval =>
      simp only [Option.some.injEq, forall_eq']
      by_cases hdefault : varval = ascii "default"
      · have hsafe : Safe (oemSetenv w varval).actions := by
          unfold oemSetenv
          rw [if_pos hdefault]
          split <;> exact safe_nil
        exact iff_of_true hsafe fun h => absurd hdefault h
      · rw [oemSetenv_safe_iff w hdefault]
        exact ⟨fun h _ => h, fun h => h hdefault⟩
  · rw [if_neg hhelp, if_neg hstatus, if_neg hformat, if_neg hsetenv]
    have hrest : Safe (if word = ascii "erase" then oemErase w
        else fail (ascii " unsupported oem command: " ++ printed ((strsep cmdString 32).2.map fun _ => word))).actions := by
      split
      · exact oemErase_safe w
      · exact safe_nil
    exact iff_of_true hrest ⟨fun h => absurd h hformat, fun h => absurd h hsetenv⟩

/-! ## A packet -/

theorem overStorage_safe (refusal : CStr) (storage : CStr → Tag × CStr) (cmdParameter : CStr) :
    Safe (overStorage w refusal storage cmdParameter).actions := by
  unfold overStorage
  split
  · exact safe_nil
  · split_ifs
    · exact safe_nil
    · exact safe_nil
    · exact respond_safe _ _

theorem download_safe (cmdParameter : CStr) : Safe (download w cmdParameter).actions := by
  unfold download
  split
  · exact safe_nil
  · dsimp only
    split_ifs <;> exact safe_nil

theorem saveAndReset_safe : Safe (saveAndReset w).actions := by
  unfold saveAndReset
  split
  · dsimp only
    split
    · exact respond_safe _ _
    · exact safe_nil
  · exact safe_nil

theorem flashing_safe (cmdString : CStr) : Safe (fastbootCbFlashing w cmdString).actions := by
  unfold fastbootCbFlashing unlockTo
  dsimp only
  have hline : ∀ b : Bool, (ascii "INFO unlock ability: " ++ if b then ascii "1" else ascii "0").length ≤ 64 := by decide
  split
  · exact safe_nil
  split
  · exact saveAndReset_safe w
  split
  · split_ifs
    · exact safe_nil
    · exact safe_nil
    · exact saveAndReset_safe w
  split
  · exact sendResponse_safe.mpr (hline w.unlockAbility)
  · exact safe_nil

theorem setActive_safe (cmd : CStr) : Safe (cbSetActiveBootSlot w cmd).actions := by
  unfold cbSetActiveBootSlot
  split
  · exact safe_nil
  · split_ifs <;> exact safe_nil

theorem reboot_safe (cmd : CStr) : Safe (reboot w cmd).actions := by
  unfold reboot rebootBootloader
  split_ifs <;> exact safe_nil

/-- Which commands can leave their buffers, and when they do not. -/
def CommandFits (cmdString : CStr) : Command → Prop
  | .GETVAR => VariableFits w ((strsep cmdString 58).2.getD w.nullText)
  | .OEM => OemFits w cmdString
  | _ => True

theorem dispatch_safe_iff (cmdString : CStr) (c : Command) :
    Safe (dispatch w cmdString c).actions ↔ CommandFits w cmdString c := by
  cases c with
  | GETVAR => exact getvar_safe_iff w _
  | OEM => exact oem_safe_iff w cmdString
  | DOWNLOAD => exact iff_of_true (download_safe w cmdString) trivial
  | FLASHING => exact iff_of_true (flashing_safe w cmdString) trivial
  | FLASH => exact iff_of_true (overStorage_safe w _ _ cmdString) trivial
  | ERASE => exact iff_of_true (overStorage_safe w _ _ cmdString) trivial
  | BOOT => exact iff_of_true safe_nil trivial
  | CONTINUE => exact iff_of_true safe_nil trivial
  | REBOOT => exact iff_of_true (reboot_safe w cmdString) trivial
  | REBOOT_BOOTLOADER =>
    have h : Safe (rebootBootloader w).actions := by
      unfold rebootBootloader
      split <;> exact safe_nil
    exact iff_of_true h trivial
  | SET_ACTIVE => exact iff_of_true (setActive_safe w cmdString) trivial

def PacketFits (packet : List UInt8) : Prop :=
  packet.length < EP_BUFFER_SIZE.toNat → ∀ c, findCommand (cstrOf packet) = some c → CommandFits w (cstrOf packet) c

/-- A packet is handled inside the buffers, and only whole responses are queued, if and only if the
texts that its command prints and copies fit. -/
theorem rxHandlerCommand_safe_iff (packet : List UInt8) :
    (∀ a ∈ rxHandlerCommand w packet, a.safe) ↔ PacketFits w packet := by
  have hanswer : ∀ report : Report, Safe (report.actions ++ sendAnswer report.answer) ↔ Safe report.actions := by
    intro report
    simp [sendAnswer_safe]
  change Safe (rxHandlerCommand w packet) ↔ _
  rw [rxHandlerCommand, hanswer, PacketFits]
  by_cases hlen : packet.length < EP_BUFFER_SIZE.toNat
  · rw [if_pos hlen, fastbootHandleCommand]
    cases findCommand (cstrOf packet) with
    | none => simp [fail]
    | some c => simp [hlen, dispatch_safe_iff]
  · rw [if_neg hlen]
    simp [fail, hlen]

/-- A board without partitions, variables and an eMMC. -/
def bareBoard : Readings where
  nullText := []
  env _ := none
  parts := []
  blkdev := none
  partGetInfoByName _ := none
  allocated := true
  gptRestore := none
  lockStatus := none
  currentSlot := none
  slotSuccessful _ := none
  slotBootable _ := none
  slotRetry _ := none
  revInteger := 1
  revFraction := 0
  uBootVersion := ascii "U-Boot 2020.01"
  CONFIG_FASTBOOT_BUF_SIZE := 0x2000000
  fastbootBufSize := 0x2000000
  snapshotStatus := .unknown
  inProgress := false
  fastbootMmcFlashWrite _ := (.FAIL, ascii "invalid mmc device")
  fastbootMmcErase _ := (.FAIL, ascii "invalid mmc device")
  setActive := false
  setRebootFlag := false
  setFastbootdFlag := false
  loadControlBlock := false
  unlockAbility := false
  userConfirmed := false
  saveControlBlock := false
  setWipeData := none
  envSet _ _ := false
  envSave := false
  erase := some .device

/-- A request for the slots of a partition with a name of 57 letters overruns the value's buffer, and
a long name of a variable is announced with more bytes than were formatted. -/
theorem getvar_overruns :
    (∃ a ∈ rxHandlerCommand bareBoard (ascii "getvar:has-slot:" ++ List.replicate 57 97), ¬ a.safe) ∧
      ∃ a ∈ rxHandlerCommand bareBoard (ascii "oem setenv " ++ List.replicate 51 97), ¬ a.safe := by
  refine ⟨⟨.copy 65 67, by decide, ?_⟩, .queue (ascii "INFOerase env " ++ List.replicate 51 97)
    ((ascii "INFOerase env " ++ List.replicate 51 97).take 64 ++ [0]) 65, by decide, ?_⟩
  · exact (by decide : ¬ 67 ≤ 65)
  · exact fun h => (by decide : ¬ 65 ≤ 64) h.1

end RCar.Fastboot.Buffers
