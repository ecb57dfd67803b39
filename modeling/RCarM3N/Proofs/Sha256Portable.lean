import RCarM3N.Proofs.Sha256Update

/-! The portable SHA-256 is that of the standard, for every cut of the message into updates. The
variant with the cryptographic instructions agrees with it on the cuts in which no update asks
for a transform of zero blocks. -/

namespace RCar.Bl2.Portable

open Sha256 (Hash H0 K compress compressBlocks blockWords)

variable {transform : Hash → Mem → ℕ → ℕ → ℕ → Option Hash} {ctx : AvbSHA256Ctx} {msg : List UInt8}

/-! ## The transform -/

theorem foldl_update (f : ℕ → UInt32) (w : ℕ → UInt32) (n i : ℕ) :
    (List.range n).foldl (fun w j => Function.update w j (f j)) w i = if i < n then f i else w i := by
  induction n with
  | zero => simp
  | succ n ih =>
    rw [List.range_succ, List.foldl_append, List.foldl_cons, List.foldl_nil]
    by_cases hi : i = n
    · subst hi
      simp
    · rw [Function.update_of_ne hi, ih]
      simp only [show i < n + 1 ↔ i < n by omega]

/-- The array `w` after the first two loops is the message schedule. -/
theorem schedule_eq (m : Mem) (x1 : ℕ) {i : ℕ} (hi : i < 64) :
    schedule m x1 i = (Sha256.schedule (blockWords (m.read x1 64)) 48).getD i 0 := by
  have hlength : (blockWords (m.read x1 64)).length = 16 := by simp [blockWords]
  obtain ⟨w0, hw0⟩ : ∃ w0, (List.range 16).foldl
    (fun w j => Function.update w j (pack32 m (x1 + 4 * j))) (fun _ => 0) = w0 := ⟨_, rfl⟩
  have hfirst : ∀ i < 16, w0 i = (Sha256.schedule (blockWords (m.read x1 64)) 48).getD i 0 := by
    intro i hi
    rw [← hw0, foldl_update, if_pos hi, Sha256.getD_schedule_block _ _ _ (by omega),
      Sha256.getD_blockWords _ hi, Sha256.wordBE, Mem.getD_read _ _ _ _ (by omega),
      Mem.getD_read _ _ _ _ (by omega), Mem.getD_read _ _ _ _ (by omega),
      Mem.getD_read _ _ _ _ (by omega), pack32]
    rfl
  have hloop : ∀ n ≤ 48, ∀ i < 16 + n, (List.range' 16 n).foldl sha256Scr w0 i =
      (Sha256.schedule (blockWords (m.read x1 64)) 48).getD i 0 := by
    intro n
    induction n with
    | zero => exact fun _ i hi => hfirst i hi
    | succ n ih =>
      intro hn i hi
      have hold := ih (by omega)
      rw [List.range'_1_concat, List.foldl_append, List.foldl_cons, List.foldl_nil, sha256Scr]
      by_cases hin : i = 16 + n
      · rw [hin, Function.update_self, hold _ (by omega), hold _ (by omega), hold _ (by omega),
          hold _ (by omega), Nat.add_comm 16 n, Sha256.getD_schedule hlength (by omega)]
        rfl
      · rw [Function.update_of_ne hin, hold i (by omega)]
  rw [schedule, hw0]
  exact hloop 48 le_rfl i hi

theorem sha256K_eq : sha256K = K := rfl

theorem sha256F1_eq (x : UInt32) : sha256F1 x = Sha256.bigSigma0 x := rfl

theorem sha256F2_eq (x : UInt32) : sha256F2 x = Sha256.bigSigma1 x := rfl

theorem ch_eq (x y z : UInt32) : ch x y z = Sha256.ch x y z := rfl

theorem maj_eq (x y z : UInt32) : maj x y z = Sha256.maj x y z := rfl

/-- The body of the loop is a round. -/
theorem round_eq {w : ℕ → UInt32} {l : List UInt32} (s : Hash) {j : ℕ} (h : w j = l.getD j 0) :
    round w s j = Sha256.step l s j := by
  simp only [round, Sha256.step, Sha256.round, sha256K_eq, sha256F1_eq, sha256F2_eq, ch_eq, maj_eq, h,
    UInt32.add_assoc]

theorem transformBlock_eq (m : Mem) (h : Hash) (x1 : ℕ) :
    transformBlock m h x1 = compress h (m.read x1 64) := by
  have hrounds : ∀ n ≤ 64, (List.range n).foldl (round (schedule m x1)) h =
      hashAt (Sha256.schedule (blockWords (m.read x1 64)) 48) h n := by
    intro n
    induction n with
    | zero => simp [hashAt]
    | succ n ih =>
      intro hn
      rw [List.range_succ, List.foldl_append, List.foldl_cons, List.foldl_nil, ih (by omega),
        hashAt_succ]
      exact round_eq _ (schedule_eq m x1 (by omega))
  rw [transformBlock, hrounds 64 le_rfl, compress, hashAt]

theorem consumes_sha256Transform {n : ℕ} (hn : n < 2 ^ 31) : Consumes sha256Transform n := by
  intro h m limit x1 hl
  rw [sha256Transform, if_pos hn]
  clear hn
  induction n with
  | zero => rfl
  | succ n ih =>
    rw [List.range_succ, List.foldlM_append, ih (by omega), Option.bind_eq_bind, Option.bind_some,
      List.foldlM_cons]
    simp only
    rw [if_pos (by omega), transformBlock_eq, Option.bind_eq_bind, Option.bind_some, List.foldlM_nil,
      Sha256.compressBlocks_add n 1, Mem.drop_read _ _ _ _ (by omega),
      ← Sha256.compressBlocks_take n h (m.read x1 (64 * (n + 1))), Mem.take_read _ _ _ _ (by omega),
      show 64 * (n + 1) - 64 * n = 64 by omega, compressBlocks, compressBlocks,
      Mem.take_read _ _ _ _ le_rfl]
    rfl

/-! ## Messages in pieces -/

/-- The message that the pieces make up. -/
def message (pieces : List Piece) : List UInt8 := pieces.flatMap Piece.bytes

theorem message_cons (p : Piece) (pieces : List Piece) :
    message (p :: pieces) = p.bytes ++ message pieces := List.flatMap_cons

theorem length_bytes (p : Piece) : p.bytes.length = p.len := Mem.length_read _ _ _

theorem absorbWith_cons (ctx : AvbSHA256Ctx) (p : Piece) (pieces : List Piece) :
    absorbWith transform ctx (p :: pieces) =
      (updateWith transform ctx p.mem (p.data + p.len) p.data p.len).bind
        fun ctx => absorbWith transform ctx pieces :=
  List.foldlM_cons

/-- The updates of the portable variant append their pieces to the message. -/
theorem absorbWith_absorbed (h : Absorbed ctx msg) {pieces : List Piece}
    (hlen : (msg ++ message pieces).length < 2 ^ 32) :
    ∃ ctx', absorbWith sha256Transform ctx pieces = some ctx' ∧
      Absorbed ctx' (msg ++ message pieces) := by
  induction pieces generalizing ctx msg with
  | nil => exact ⟨ctx, rfl, by rwa [message, List.flatMap_nil, List.append_nil]⟩
  | cons p pieces ih =>
    have hp := length_bytes p
    rw [message_cons, ← List.append_assoc] at hlen ⊢
    have hlen' : msg.length + p.len < 2 ^ 32 := by
      rw [List.length_append, List.length_append, hp] at hlen
      omega
    obtain ⟨ctx1, hrun, h1⟩ := updateWith_absorbed (consumes_sha256Transform (by omega)) h
      (le_refl (p.data + p.len)) hlen' (m := p.mem) fun _ => consumes_sha256Transform (by omega)
    obtain ⟨ctx2, hrun', h2⟩ := ih h1 hlen
    refine ⟨ctx2, ?_, h2⟩
    rw [absorbWith_cons, hrun]
    exact hrun'

theorem digestWith_eq (stack : Mem) {pieces : List Piece} (hlen : (message pieces).length < 2 ^ 29) :
    digestWith sha256Transform stack pieces = some (Sha256.hash (message pieces)) := by
  have hshort : ([] ++ message pieces).length < 2 ^ 32 := by
    rw [List.nil_append]
    omega
  obtain ⟨ctx, hrun, h⟩ := absorbWith_absorbed (absorbed_init stack) hshort
  rw [List.nil_append] at h
  rw [digestWith, hrun, Option.bind_eq_bind, Option.bind_some]
  exact finalWith_eq (consumes_sha256Transform (by omega)) (consumes_sha256Transform (by omega)) h hlen

/-- However a message is cut into updates, the digest is that of the standard, and that of one
call of `sha256` on the whole message. -/
theorem portable_is_sha256 (stack : Mem) (pieces : List Piece)
    (hlen : (message pieces).length < 2 ^ 29) :
    digestWith sha256Transform stack pieces = some (Sha256.hash (message pieces)) ∧
      ∀ (stack' m : Mem) (limit data : ℕ), data + (message pieces).length ≤ limit →
        m.read data (message pieces).length = message pieces →
          sha256 stack' m limit data (message pieces).length =
            digestWith sha256Transform stack pieces := by
  have hdigest := digestWith_eq stack hlen
  refine ⟨hdigest, fun stack' m limit data hl hm => ?_⟩
  obtain ⟨ctx, hctx, ha⟩ := updateWith_absorbed (consumes_sha256Transform (n := 1) (by omega))
    (absorbed_init stack') hl (m := m) (by rw [List.length_nil]; omega)
    fun _ => consumes_sha256Transform (by rw [List.length_nil]; omega)
  rw [List.nil_append, hm] at ha
  rw [hdigest, sha256, avbSha256Update, avbSha256Final, hctx, Option.bind_eq_bind, Option.bind_some]
  exact finalWith_eq (consumes_sha256Transform (by omega)) (consumes_sha256Transform (by omega)) ha hlen

/-- `abc`, the first letter by itself and after an empty piece. -/
theorem portable_is_sha256_abc :
    digestWith sha256Transform (fun _ => 0) [⟨Mem.ofList [], 0, 0⟩, ⟨Mem.ofList [0x61], 0, 1⟩,
      ⟨Mem.ofList [0x62, 0x63], 0, 2⟩] = some (Sha256.hash [0x61, 0x62, 0x63]) :=
  (portable_is_sha256 (fun _ => 0) [⟨Mem.ofList [], 0, 0⟩, ⟨Mem.ofList [0x61], 0, 1⟩,
    ⟨Mem.ofList [0x62, 0x63], 0, 2⟩] (by decide)).1

/-! ## The variant with the cryptographic instructions -/

/-- No piece, after `n` bytes, fills the block buffer without bringing another whole block. -/
def Feeds : ℕ → List Piece → Prop
  | _, [] => True
  | n, p :: pieces => ¬ (64 ≤ n % 64 + p.len ∧ n % 64 + p.len < 128) ∧ Feeds (n + p.len) pieces

/-- Zero blocks are the one count on which the transforms differ. -/
theorem transforms_agree_iff (h : Hash) (m : Mem) (x1 : ℕ) {n : ℕ} (hn : n < 2 ^ 31) :
    sha256CeTransform h m (x1 + 64 * n) x1 n = sha256Transform h m (x1 + 64 * n) x1 n ↔ n ≠ 0 := by
  rw [consumes_sha256Transform hn _ _ _ _ le_rfl]
  constructor
  · rintro heq rfl
    rw [sha256CeTransform_zero _ (by omega)] at heq
    cases heq
  · intro h0
    exact consumes_sha256CeTransform (Nat.pos_of_ne_zero h0) (by omega) _ _ _ _ le_rfl

/-- The two variants of an update. -/
theorem updateWith_ce (h : Absorbed ctx msg) (p : Piece) (hlen : msg.length + p.len < 2 ^ 32) :
    updateWith sha256CeTransform ctx p.mem (p.data + p.len) p.data p.len =
      if 64 ≤ msg.length % 64 + p.len ∧ msg.length % 64 + p.len < 128 then none
      else updateWith sha256Transform ctx p.mem (p.data + p.len) p.data p.len := by
  have hce := consumes_sha256CeTransform (n := 1) (by omega) (by omega)
  have hc := consumes_sha256Transform (n := 1) (by omega)
  by_cases hshort : msg.length % 64 + p.len < 64
  · rw [if_neg (by omega), updateWith_short h le_rfl hshort, updateWith_short h le_rfl hshort]
  · have hfill := Nat.not_lt.mp hshort
    have hctx := h.len
    rw [updateWith_long hce h le_rfl hfill hlen]
    by_cases hnone : msg.length % 64 + p.len < 128
    · rw [if_pos ⟨hfill, hnone⟩, show (msg.length % 64 + p.len) / 64 - 1 = 0 by omega,
        sha256CeTransform_zero _ (by omega), Option.map_none]
    · rw [if_neg fun hno => hnone hno.2, updateWith_long hc h le_rfl hfill hlen,
        consumes_sha256Transform (by omega) _ _ _ _ (by omega),
        consumes_sha256CeTransform (by omega) (by omega) _ _ _ _ (by omega)]

/-- The updates with the instructions go the way of the portable ones, or end in a fault. -/
theorem absorbWith_ce (h : Absorbed ctx msg) {pieces : List Piece}
    (hlen : (msg ++ message pieces).length < 2 ^ 32) :
    (Feeds msg.length pieces →
        absorbWith sha256CeTransform ctx pieces = absorbWith sha256Transform ctx pieces) ∧
      (¬ Feeds msg.length pieces → absorbWith sha256CeTransform ctx pieces = none) := by
  induction pieces generalizing ctx msg with
  | nil => exact ⟨fun _ => by rw [absorbWith, absorbWith, List.foldlM_nil, List.foldlM_nil],
      fun hno => absurd trivial hno⟩
  | cons p pieces ih =>
    have hp := length_bytes p
    rw [message_cons, ← List.append_assoc] at hlen
    have hlen' : msg.length + p.len < 2 ^ 32 := by
      rw [List.length_append, List.length_append, hp] at hlen
      omega
    obtain ⟨ctx1, hrun, h1⟩ := updateWith_absorbed (consumes_sha256Transform (n := 1) (by omega)) h
      (le_refl (p.data + p.len)) hlen' (m := p.mem) fun _ => consumes_sha256Transform (by omega)
    have hnext := ih h1 hlen
    rw [List.length_append, Mem.length_read] at hnext
    rw [absorbWith_cons, absorbWith_cons, updateWith_ce h p hlen', hrun, Option.bind_some, Feeds]
    by_cases hgap : 64 ≤ msg.length % 64 + p.len ∧ msg.length % 64 + p.len < 128
    · rw [if_pos hgap, Option.bind_none]
      exact ⟨fun hf => absurd hgap hf.1, fun _ => rfl⟩
    · rw [if_neg hgap, Option.bind_some]
      exact ⟨fun hf => hnext.1 hf.2, fun hno => hnext.2 fun hf => hno ⟨hgap, hf⟩⟩

/-- The transforms agree on every count of blocks but zero. For a message in pieces the contexts
after the updates and the digests agree if and only if no piece leads to such a count. -/
theorem armv8_agrees_iff (stack : Mem) (pieces : List Piece)
    (hlen : (message pieces).length < 2 ^ 29) :
    (∀ (h : Hash) (m : Mem) (x1 n : ℕ), n < 2 ^ 31 →
      (sha256CeTransform h m (x1 + 64 * n) x1 n = sha256Transform h m (x1 + 64 * n) x1 n ↔ n ≠ 0)) ∧
      (absorbWith sha256CeTransform (avbSha256Init stack) pieces =
            absorbWith sha256Transform (avbSha256Init stack) pieces ∧
          digestWith sha256CeTransform stack pieces = digestWith sha256Transform stack pieces ↔
        Feeds 0 pieces) := by
  refine ⟨fun h m x1 n hn => transforms_agree_iff h m x1 hn, ?_⟩
  have hlen' : ([] ++ message pieces).length < 2 ^ 32 := by
    rw [List.nil_append]
    omega
  obtain ⟨hyes, hno⟩ := absorbWith_ce (absorbed_init stack) hlen'
  obtain ⟨ctx, hrun, h⟩ := absorbWith_absorbed (absorbed_init stack) hlen'
  constructor
  · rintro ⟨habsorb, -⟩
    by_contra hf
    rw [hno hf, hrun] at habsorb
    cases habsorb
  · intro hf
    have habsorb := hyes hf
    refine ⟨habsorb, ?_⟩
    rw [List.nil_append] at h
    rw [digestWith_eq stack hlen, digestWith, habsorb, hrun, Option.bind_eq_bind, Option.bind_some]
    exact finalWith_eq (consumes_sha256CeTransform (by omega) (by omega))
      (consumes_sha256CeTransform (by omega) (by omega)) h hlen

theorem armv8_agrees_abc :
    digestWith sha256CeTransform (fun _ => 0) [⟨Mem.ofList [0x61], 0, 1⟩, ⟨Mem.ofList [0x62, 0x63], 0, 2⟩] =
      digestWith sha256Transform (fun _ => 0) [⟨Mem.ofList [0x61], 0, 1⟩, ⟨Mem.ofList [0x62, 0x63], 0, 2⟩] :=
  ((armv8_agrees_iff (fun _ => 0) [⟨Mem.ofList [0x61], 0, 1⟩, ⟨Mem.ofList [0x62, 0x63], 0, 2⟩]
    (by decide)).2.mpr ⟨by decide, by decide, trivial⟩).2

/-- One update with a whole block: the portable variant has its digest, and the other one runs
past the data. -/
theorem one_block_faults :
    digestWith sha256Transform (fun _ => 0) [⟨fun _ => 0, 0, 64⟩] =
        some (Sha256.hash (List.replicate 64 0)) ∧
      digestWith sha256CeTransform (fun _ => 0) [⟨fun _ => 0, 0, 64⟩] = none := by
  have hmsg : message [⟨fun _ => 0, 0, 64⟩] = List.replicate 64 0 := by
    rw [message_cons, message, List.flatMap_nil, List.append_nil, Piece.bytes, read_const]
  have hlen : (message [⟨fun _ => 0, 0, 64⟩]).length = 64 := by rw [hmsg, List.length_replicate]
  constructor
  · rw [digestWith_eq _ (by omega), hmsg]
  · have hnone := (absorbWith_ce (absorbed_init fun _ => 0) (by rw [List.nil_append]; omega)).2
      (fun hf => hf.1 ⟨by decide, by decide⟩ : ¬ Feeds 0 [⟨fun _ => 0, 0, 64⟩])
    rw [digestWith, hnone]
    rfl

end RCar.Bl2.Portable
