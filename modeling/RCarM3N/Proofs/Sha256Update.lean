import RCarM3N.Model.Sha256Portable
import RCarM3N.Proofs.Sha256

/-! The C code around a SHA-256 transform: what the context holds after any number of updates,
and the digest that is made of it. All that is asked of the transform is that it compresses the
blocks it is given. -/

namespace RCar.Bl2.Portable

open Sha256

variable {transform : Hash → Mem → ℕ → ℕ → ℕ → Option Hash} {ctx : AvbSHA256Ctx} {msg : List UInt8}

/-- The transform compresses the `n` blocks at an address, whatever comes after them. -/
def Consumes (transform : Hash → Mem → ℕ → ℕ → ℕ → Option Hash) (n : ℕ) : Prop :=
  ∀ (h : Hash) (m : Mem) (limit x1 : ℕ), x1 + 64 * n ≤ limit →
    transform h m limit x1 n = some (compressBlocks n h (m.read x1 (64 * n)))

theorem compressBlocks_append (n : ℕ) (h : Hash) {l : List UInt8} (l' : List UInt8)
    (hn : 64 * n ≤ l.length) : compressBlocks n h (l ++ l') = compressBlocks n h l := by
  rw [← compressBlocks_take, List.take_append_of_le_length hn, compressBlocks_take]

/-- An update that does not fill the block buffer. -/
theorem updateWith_short (h : Absorbed ctx msg) {m : Mem} {limit data len : ℕ}
    (hl : data + len ≤ limit) (hlen : msg.length % 64 + len < 64) :
    updateWith transform ctx m limit data len =
      some { ctx with block := ctx.block.copy ctx.len m data len, len := ctx.len + len } := by
  have hctx := h.len
  have hrem : min len ((AVB_SHA256_BLOCK_SIZE + 2 ^ 32 - ctx.len) % 2 ^ 32) = len := by
    rw [AVB_SHA256_BLOCK_SIZE]
    omega
  have hload : load ctx.block ctx.len m limit data len = some (ctx.block.copy ctx.len m data len) :=
    if_pos hl
  unfold updateWith
  simp only [hrem]
  rw [hload, Option.bind_eq_bind, Option.bind_some,
    Nat.mod_eq_of_lt (by omega : ctx.len + len < 2 ^ 32), AVB_SHA256_BLOCK_SIZE, if_pos (by omega)]
  rfl

theorem absorbed_short (h : Absorbed ctx msg) (m : Mem) (data : ℕ) {len : ℕ}
    (hlen : msg.length % 64 + len < 64) :
    Absorbed { ctx with block := ctx.block.copy ctx.len m data len, len := ctx.len + len }
      (msg ++ m.read data len) := by
  have hctx := h.len
  have hdiv : (msg ++ m.read data len).length / 64 = msg.length / 64 := by
    rw [List.length_append, Mem.length_read]
    omega
  refine ⟨?_, ?_, ?_, ?_⟩
  · rw [hdiv, compressBlocks_append _ _ _ (by omega), h.h]
  · rw [hdiv, h.totLen]
  · change ctx.len + len = _
    rw [List.length_append, Mem.length_read]
    omega
  · rw [hdiv, List.drop_append_of_le_length (by omega), ← h.block]
    simp only
    rw [Mem.read_append, Mem.read_copy_out _ _ _ _ _ _ _ (by omega),
      Mem.read_copy_in _ _ _ _ _ _ _ (by omega) (by omega)]
    simp

/-- The block buffer when an update has filled it. -/
theorem read_filled (h : Absorbed ctx msg) (m : Mem) {data len : ℕ}
    (hlen : 64 ≤ msg.length % 64 + len) :
    (ctx.block.copy ctx.len m data (64 - ctx.len)).read 0 64 =
      ((msg ++ m.read data len).drop (64 * (msg.length / 64))).take 64 := by
  have hctx := h.len
  have hread : (ctx.block.copy ctx.len m data (64 - ctx.len)).read 0 (ctx.len + (64 - ctx.len)) =
      ctx.block.read 0 ctx.len ++ m.read data (64 - ctx.len) := by
    rw [Mem.read_append, Mem.read_copy_out _ _ _ _ _ _ _ (by omega),
      Mem.read_copy_in _ _ _ _ _ _ _ (by omega) (by omega)]
    simp
  rw [Nat.add_sub_cancel' (by omega)] at hread
  have hdrop : (msg.drop (64 * (msg.length / 64))).length = ctx.len := by
    rw [List.length_drop]
    omega
  rw [hread, h.block, List.drop_append_of_le_length (by omega), List.take_append, hdrop,
    List.take_of_length_le (by omega), Mem.take_read _ _ _ _ (by omega)]

/-- An update that fills the block buffer, compresses it and then the whole blocks that follow. -/
theorem updateWith_long (h1 : Consumes transform 1) (h : Absorbed ctx msg) {m : Mem}
    {limit data len : ℕ} (hl : data + len ≤ limit) (hlen : 64 ≤ msg.length % 64 + len)
    (hlen' : msg.length + len < 2 ^ 32) :
    updateWith transform ctx m limit data len =
      (transform (compressBlocks (msg.length / 64 + 1) H0 (msg ++ m.read data len)) m limit
        (data + (64 - ctx.len)) ((msg.length % 64 + len) / 64 - 1)).map fun h =>
          { h
            totLen := 64 * ((msg.length + len) / 64)
            len := (msg.length + len) % 64
            block := (ctx.block.copy ctx.len m data (64 - ctx.len)).copy 0 m
              (data + (64 - ctx.len) + 64 * ((msg.length % 64 + len) / 64 - 1))
              ((msg.length + len) % 64) } := by
  have hctx := h.len
  have htot := h.totLen
  have hrem : min len ((AVB_SHA256_BLOCK_SIZE + 2 ^ 32 - ctx.len) % 2 ^ 32) = 64 - ctx.len := by
    rw [AVB_SHA256_BLOCK_SIZE]
    omega
  have hload : load ctx.block ctx.len m limit data (64 - ctx.len) =
      some (ctx.block.copy ctx.len m data (64 - ctx.len)) := if_pos (by omega)
  have hfull : ¬ (ctx.len + len) % 2 ^ 32 < AVB_SHA256_BLOCK_SIZE := by
    rw [AVB_SHA256_BLOCK_SIZE, Nat.mod_eq_of_lt (by omega)]
    omega
  have hfirst : transform ctx.h (ctx.block.copy ctx.len m data (64 - ctx.len))
      (2 * AVB_SHA256_BLOCK_SIZE) 0 1 =
        some (compressBlocks (msg.length / 64 + 1) H0 (msg ++ m.read data len)) := by
    rw [h1 _ _ _ _ (by decide), Nat.mul_one, read_filled h m hlen, compressBlocks_add,
      compressBlocks_append _ _ _ (by omega), ← h.h]
    have htake := compressBlocks_take 1 ctx.h
      ((msg ++ m.read data len).drop (64 * (msg.length / 64)))
    rw [Nat.mul_one] at htake
    rw [htake]
  have hnb : (len - (64 - ctx.len)) / AVB_SHA256_BLOCK_SIZE = (msg.length % 64 + len) / 64 - 1 := by
    rw [AVB_SHA256_BLOCK_SIZE]
    omega
  have hmod : (len - (64 - ctx.len)) % AVB_SHA256_BLOCK_SIZE = (msg.length + len) % 64 := by
    rw [AVB_SHA256_BLOCK_SIZE]
    omega
  have hrest : load (ctx.block.copy ctx.len m data (64 - ctx.len)) 0 m limit
      (data + (64 - ctx.len) + 64 * ((msg.length % 64 + len) / 64 - 1)) ((msg.length + len) % 64) =
        some ((ctx.block.copy ctx.len m data (64 - ctx.len)).copy 0 m
          (data + (64 - ctx.len) + 64 * ((msg.length % 64 + len) / 64 - 1))
          ((msg.length + len) % 64)) := if_pos (by omega)
  have htotal : (ctx.totLen + 64 * ((msg.length % 64 + len) / 64 - 1 + 1)) % 2 ^ 32 =
      64 * ((msg.length + len) / 64) := by
    rw [htot]
    omega
  unfold updateWith
  simp only [hrem]
  rw [hload, Option.bind_eq_bind, Option.bind_some, if_neg hfull, hfirst, Option.bind_eq_bind,
    Option.bind_some, hnb, hmod, hrest, htotal]
  exact Option.map_eq_bind.symm

/-- An update appends its bytes to the message. -/
theorem updateWith_absorbed (h1 : Consumes transform 1) (h : Absorbed ctx msg) {m : Mem}
    {limit data len : ℕ} (hl : data + len ≤ limit) (hlen : msg.length + len < 2 ^ 32)
    (hn : 64 ≤ msg.length % 64 + len → Consumes transform ((msg.length % 64 + len) / 64 - 1)) :
    ∃ ctx', updateWith transform ctx m limit data len = some ctx' ∧
      Absorbed ctx' (msg ++ m.read data len) := by
  by_cases hshort : msg.length % 64 + len < 64
  · exact ⟨_, updateWith_short h hl hshort, absorbed_short h m data hshort⟩
  · have hfill := Nat.not_lt.mp hshort
    have hctx := h.len
    rw [updateWith_long h1 h hl hfill hlen, hn hfill _ _ _ _ (by omega)]
    refine ⟨_, rfl, ?_⟩
    have hlength : (msg ++ m.read data len).length = msg.length + len := by
      rw [List.length_append, Mem.length_read]
    have hdiv : (msg.length + len) / 64 = msg.length / 64 + 1 + ((msg.length % 64 + len) / 64 - 1) := by
      omega
    have hdrop : ∀ k, (msg ++ m.read data len).drop (64 * (msg.length / 64 + 1 + k)) =
        (m.read (data + (64 - ctx.len)) (len - (64 - ctx.len))).drop (64 * k) := by
      intro k
      rw [← Mem.drop_read _ _ _ _ (by omega), List.drop_drop, List.drop_append,
        List.drop_eq_nil_of_le (by omega), List.nil_append]
      congr 1
      omega
    refine ⟨?_, ?_, ?_, ?_⟩
    · have h0 := hdrop 0
      rw [Nat.add_zero, Nat.mul_zero, List.drop_zero] at h0
      rw [hlength, hdiv, compressBlocks_add (msg.length / 64 + 1), h0,
        ← compressBlocks_take _ _ (m.read _ (len - (64 - ctx.len))), Mem.take_read _ _ _ _ (by omega)]
    · rw [hlength]
    · rw [hlength]
    · simp only
      rw [Mem.read_copy_in _ _ _ _ _ _ _ (by omega) (by omega), hlength, hdiv, hdrop,
        Mem.drop_read _ _ _ _ (by omega)]
      congr 1
      omega

/-- The own block is padded to one or two blocks, and compressed. -/
theorem finalWith_eq (h1 : Consumes transform 1) (h2 : Consumes transform 2) (h : Absorbed ctx msg)
    (hlen : msg.length < 2 ^ 29) : finalWith transform ctx = some (Sha256.hash msg) := by
  obtain ⟨nb, hnb⟩ : ∃ nb, nb = if 55 < msg.length % 64 then 2 else 1 := ⟨_, rfl⟩
  have hnb' : (if AVB_SHA256_BLOCK_SIZE - 9 < ctx.len % AVB_SHA256_BLOCK_SIZE then 2 else 1) = nb := by
    rw [hnb, h.len]
    simp only [AVB_SHA256_BLOCK_SIZE, Nat.mod_mod, Nat.reduceSub]
  have hbits : (ctx.totLen + ctx.len) * 8 % 2 ^ 32 = 8 * msg.length := by
    rw [h.totLen, h.len]
    omega
  have hpad : (pad msg).length / 64 = msg.length / 64 + nb := by
    rw [length_pad, hnb]
    split <;> omega
  have hsize : ctx.len + 1 + (64 * nb - 5 - ctx.len) + 4 = 64 * nb := by
    rw [h.len, hnb]
    split <;> omega
  have hlimit : 0 + 64 * nb ≤ 2 * AVB_SHA256_BLOCK_SIZE := by
    rw [hnb, AVB_SHA256_BLOCK_SIZE]
    split <;> omega
  have htail := read_padded ctx.block ctx.len (64 * nb - 5 - ctx.len)
    (UInt32.ofNat (8 * msg.length))
  rw [h.block, hsize, h.len, ← drop_pad hlen hnb, ← h.len,
    show 1 + (64 * nb - 5 - ctx.len + 4) = 64 * nb - ctx.len by omega,
    show ctx.len + 1 + (64 * nb - 5 - ctx.len) = 64 * nb - 4 by omega] at htail
  have hhead : ctx.h = compressBlocks (msg.length / 64) H0 (pad msg) := by
    rw [h.h, ← compressBlocks_take, ← compressBlocks_take _ _ (pad msg)]
    congr 1
    simp only [pad, List.append_assoc]
    rw [List.take_append_of_le_length (by omega)]
  have hn : Consumes transform nb := by
    rw [hnb]
    split
    · exact h2
    · exact h1
  unfold finalWith
  simp only [hnb', hbits]
  rw [hn _ _ _ _ hlimit, htail, hhead, ← compressBlocks_add, ← hpad]
  rfl

theorem absorbed_init (stack : Mem) : Absorbed (avbSha256Init stack) [] := ⟨rfl, rfl, rfl, rfl⟩

/-! ## The variant with the cryptographic instructions -/

theorem consumes_sha256CeTransform {n : ℕ} (h0 : 0 < n) (h1 : n < 2 ^ 32) :
    Consumes sha256CeTransform n :=
  fun h m limit x1 hl => sha256CeTransform_eq m limit x1 n h h0 h1 hl

end RCar.Bl2.Portable

namespace RCar.Bl2

open Portable

/-- The digest is that of the standard, whatever was on the stack, unless the length is from 64 to
127: then no whole block follows the first one, and the transform is asked for none. -/
theorem sha256_eq (stack m : Mem) {limit data len : ℕ} (hl : data + len ≤ limit)
    (hlimit : limit < 2 ^ 38) (hlen : len < 2 ^ 29) :
    sha256 stack m limit data len =
      if 64 ≤ len ∧ len < 128 then none else some (Sha256.hash (m.read data len)) := by
  have h1 := consumes_sha256CeTransform (n := 1) (by omega) (by omega)
  have h2 := consumes_sha256CeTransform (n := 2) (by omega) (by omega)
  have hinit := absorbed_init stack
  rw [sha256, Portable.avbSha256Update_eq, Portable.avbSha256Final_eq]
  split
  · rename_i h
    have hzero : (List.length (α := UInt8) [] % 64 + len) / 64 - 1 = 0 := by
      rw [List.length_nil]
      omega
    rw [updateWith_long h1 hinit hl (by simpa using h.1) (by rw [List.length_nil]; omega), hzero,
      sha256CeTransform_zero _ (by omega)]
    rfl
  · rename_i h
    obtain ⟨ctx, hctx, ha⟩ := updateWith_absorbed h1 hinit hl (by rw [List.length_nil]; omega) fun hfill =>
      consumes_sha256CeTransform (by rw [List.length_nil] at hfill ⊢; omega)
        (by rw [List.length_nil]; omega)
    rw [List.nil_append] at ha
    rw [hctx, Option.bind_eq_bind, Option.bind_some,
      finalWith_eq h1 h2 ha (by rw [Mem.length_read]; exact hlen)]

end RCar.Bl2
