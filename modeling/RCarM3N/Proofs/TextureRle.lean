import RCarM3N.Model.TextureRle

/-! What the run-length decoder writes for a list of packets, and what it reads of a byte string. Its size counter falls
behind the read pointer at every run of length 1. -/

namespace RCar.Texture

open Prog

variable {bpp : ℕ} {s t : Decoder} {src : ℕ → UInt8} {p size fuel : ℕ} {dst : UInt32}

/-! ## The format -/

/-- A run of `count + 1` equal pixels, or `count + 1` pixels one by one. -/
inductive Packet (bpp : ℕ) where
  | run (count : Fin 128) (pixel : Vector UInt8 bpp)
  | literal (count : Fin 128) (pixels : Vector UInt8 ((count + 1) * bpp))

namespace Packet

def encode : Packet bpp → List UInt8
  | .run count pixel => (0x80 ||| UInt8.ofNat count) :: pixel.toList
  | .literal count pixels => UInt8.ofNat count :: pixels.toList

def decode : Packet bpp → List UInt8
  | .run count pixel => (List.replicate (count + 1) pixel.toList).flatten
  | .literal _ pixels => pixels.toList

/-- A run of length 1. -/
def single : Packet bpp → Bool
  | .run count _ => count = 0
  | .literal _ _ => false

end Packet

def encodeAll (ps : List (Packet bpp)) : List UInt8 := ps.flatMap Packet.encode

def decodeAll (ps : List (Packet bpp)) : List UInt8 := ps.flatMap Packet.decode

def singles (ps : List (Packet bpp)) : ℕ := ps.countP Packet.single

/-- The `n` bytes of the memory from `p` on. -/
def bytesAt (src : ℕ → UInt8) (p n : ℕ) : List UInt8 := (List.range' p n).map src

/-- Bytes written one after the other from an address on. -/
def placed (dst : UInt32) : List UInt8 → List (UInt32 × UInt8)
  | [] => []
  | b :: l => (dst, b) :: placed (dst + 1) l

/-- The bytes stand in the memory from `p` on. -/
def Holds (src : ℕ → UInt8) (p : ℕ) (l : List UInt8) : Prop := bytesAt src p l.length = l

/-- The decoded pixels are written, consecutively, and nothing else. -/
def WritesExactly (bpp : ℕ) (ps : List (Packet bpp)) : Prop :=
  ∀ src dst, Holds src 0 (encodeAll ps) → ∃ reads,
    (locDecompressRLE dst (encodeAll ps).length bpp).run ⟨src, [], []⟩ =
      (some (), ⟨src, reads, placed dst (decodeAll ps)⟩)

/-- Nothing but the given bytes is read. -/
def ReadsWithin (bpp : ℕ) (l : List UInt8) : Prop :=
  ∀ src dst, Holds src 0 l → ∀ i ∈ ((locDecompressRLE dst l.length bpp).run ⟨src, [], []⟩).2.reads, i < l.length

/-- Whole packets of which none is a run of length 1, and at most one byte after them. -/
def Whole (bpp : ℕ) (l : List UInt8) : Prop :=
  ∃ (ps : List (Packet bpp)) (tail : List UInt8), singles ps = 0 ∧ tail.length ≤ 1 ∧ l = encodeAll ps ++ tail

/-! ## Bytes -/

@[simp] theorem length_bytesAt (src : ℕ → UInt8) (p n : ℕ) : (bytesAt src p n).length = n := by
  simp [bytesAt]

theorem bytesAt_succ (src : ℕ → UInt8) (p n : ℕ) : bytesAt src p (n + 1) = src p :: bytesAt src (p + 1) n := by
  rw [bytesAt, List.range'_succ, List.map_cons, bytesAt]

theorem bytesAt_add (src : ℕ → UInt8) (p m n : ℕ) :
    bytesAt src p (m + n) = bytesAt src p m ++ bytesAt src (p + m) n := by
  rw [bytesAt, ← List.range'_append_1, List.map_append, bytesAt, bytesAt]

theorem holds_append {l m : List UInt8} :
    Holds src p (l ++ m) ↔ Holds src p l ∧ Holds src (p + l.length) m := by
  unfold Holds
  rw [List.length_append, bytesAt_add]
  constructor
  · intro h
    exact List.append_inj h (length_bytesAt src p l.length)
  · rintro ⟨hl, hm⟩
    rw [hl, hm]

theorem placed_append (dst : UInt32) (l m : List UInt8) :
    placed dst (l ++ m) = placed dst l ++ placed (dst + UInt32.ofNat l.length) m := by
  induction l generalizing dst with
  | nil => simp [placed]
  | cons b l ih =>
    have haddr : dst + 1 + UInt32.ofNat l.length = dst + UInt32.ofNat (l.length + 1) := by
      rw [UInt32.ofNat_add, UInt32.add_assoc, UInt32.add_comm 1]
      rfl
    rw [List.cons_append, placed, ih, haddr, placed, List.cons_append, List.length_cons]

@[simp] theorem length_placed (dst : UInt32) (l : List UInt8) : (placed dst l).length = l.length := by
  induction l generalizing dst with
  | nil => rfl
  | cons b l ih => rw [placed, List.length_cons, ih, List.length_cons]

/-! ## A pixel -/

@[simp] theorem run_readSrc (p : ℕ) (s : Decoder) :
    (readSrc p).run s = (some (s.src p), { s with reads := s.reads ++ [p] }) := rfl

@[simp] theorem run_locVMemWrite8 (dst : UInt32) (v : UInt8) (s : Decoder) :
    (locVMemWrite8 dst v).run s = (some (), { s with writes := s.writes ++ [(dst, v)] }) := rfl

theorem run_copyBytes (n : ℕ) (dst : UInt32) (p : ℕ) (s : Decoder) : (copyBytes dst p n).run s = (some (), { s with
    reads := s.reads ++ List.range' p n
    writes := s.writes ++ placed dst (bytesAt s.src p n) }) := by
  induction n generalizing dst p s with
  | zero => simp [copyBytes, bytesAt, placed]
  | succ n ih =>
    unfold copyBytes
    rw [run_bind_of_some (run_readSrc p s), run_bind_of_some (run_locVMemWrite8 _ _ _), ih, bytesAt_succ,
      List.range'_succ, placed, List.append_assoc, List.append_assoc]
    rfl

/-- The value that four bytes are put together to; the loops leave out what they do not read. -/
def joined (b0 b1 b2 b3 : UInt8) : UInt32 :=
  0 ||| b0.toUInt32 <<< UInt32.ofNat (8 * 0) ||| b1.toUInt32 <<< UInt32.ofNat (8 * 1) |||
    b2.toUInt32 <<< UInt32.ofNat (8 * 2) ||| b3.toUInt32 <<< UInt32.ofNat (8 * 3)

theorem joined_bytes (b0 b1 b2 b3 : UInt8) :
    (joined b0 b1 b2 b3).toUInt8 = b0 ∧ (joined b0 b1 b2 b3 >>> 8).toUInt8 = b1 ∧
      (joined b0 b1 b2 b3 >>> 8 >>> 8).toUInt8 = b2 ∧ (joined b0 b1 b2 b3 >>> 8 >>> 8 >>> 8).toUInt8 = b3 := by
  refine ⟨?_, ?_, ?_, ?_⟩ <;>
  · apply UInt8.toBitVec_inj.mp
    apply BitVec.eq_of_getLsbD_eq
    intro i hi
    interval_cases i <;> simp [joined]

theorem joined_two (b0 b1 : UInt8) : joined b0 b1 0 0 =
    0 ||| b0.toUInt32 <<< UInt32.ofNat (8 * 0) ||| b1.toUInt32 <<< UInt32.ofNat (8 * 1) := by
  simp [joined]

theorem run_locD2DWritePixel (dst : UInt32) (p bpp : ℕ) (s : Decoder) :
    (locD2DWritePixel dst p bpp).run s = (some (), { s with
      reads := s.reads ++ List.range' p bpp
      writes := s.writes ++ placed dst (bytesAt s.src p bpp) }) := by
  unfold locD2DWritePixel
  split
  · have hcollect : (collect p 0 0 4).run s = (some (joined (s.src p) (s.src (p + 1)) (s.src (p + 2)) (s.src (p + 3))),
        { s with reads := s.reads ++ List.range' p 4 }) := by
      simp only [collect, run_bind_of_some (run_readSrc _ _), run_pure, List.append_assoc]
      rfl
    obtain ⟨h0, h1, h2, h3⟩ := joined_bytes (s.src p) (s.src (p + 1)) (s.src (p + 2)) (s.src (p + 3))
    rw [run_bind_of_some hcollect]
    simp only [locVMemWrite32, vmemWrite, run_bind_of_some (run_locVMemWrite8 _ _ _), run_pure, h0, h1, h2, h3,
      List.append_assoc]
    rfl
  · have hcollect : (collect p 0 0 2).run s = (some (joined (s.src p) (s.src (p + 1)) 0 0),
        { s with reads := s.reads ++ List.range' p 2 }) := by
      rw [joined_two]
      simp only [collect, run_bind_of_some (run_readSrc _ _), run_pure, List.append_assoc]
      rfl
    obtain ⟨h0, h1, -, -⟩ := joined_bytes (s.src p) (s.src (p + 1)) 0 0
    rw [run_bind_of_some hcollect]
    simp only [locVMemWrite16, vmemWrite, run_bind_of_some (run_locVMemWrite8 _ _ _), run_pure, h0, h1,
      List.append_assoc]
    rfl
  · exact run_copyBytes bpp dst p s

/-! ## A packet -/

theorem saturating_sub (m n : ℕ) : (if m ≥ n then m - n else 0) = m - n := by
  split_ifs <;> omega

theorem rlePixels_run_succ (n : ℕ) (dst : UInt32) (q p size : ℕ) :
    rlePixels true q bpp (n + 1) dst p size = (do
      locD2DWritePixel dst q bpp
      rlePixels true q bpp n (dst + UInt32.ofNat bpp) (q + bpp) (if n = 1 then size - bpp else size)) := by
  rw [rlePixels]
  simp only [saturating_sub, Bool.true_eq_false, false_or, true_and, if_true]

theorem rlePixels_literal_succ (n : ℕ) (dst : UInt32) (q p size : ℕ) :
    rlePixels false q bpp (n + 1) dst p size = (do
      locD2DWritePixel dst p bpp
      rlePixels false q bpp n (dst + UInt32.ofNat bpp) (p + bpp) (size - bpp)) := by
  rw [rlePixels]
  simp only [saturating_sub, true_or, if_true, Bool.false_eq_true, if_false]

theorem address_succ (dst : UInt32) (n bpp : ℕ) :
    dst + UInt32.ofNat bpp + UInt32.ofNat (n * bpp) = dst + UInt32.ofNat ((n + 1) * bpp) := by
  rw [UInt32.add_assoc, ← UInt32.ofNat_add, Nat.add_comm bpp, ← Nat.succ_mul]

/-- What the pixels of a run leave: the size is reduced when one of two or more is left. -/
theorem run_rlePixels_run (n : ℕ) (dst : UInt32) (q p size : ℕ) (s : Decoder) :
    (rlePixels true q bpp (n + 1) dst p size).run s =
      (some (dst + UInt32.ofNat ((n + 1) * bpp), q + bpp, if n = 0 then size else size - bpp), { s with
        reads := s.reads ++ (List.replicate (n + 1) (List.range' q bpp)).flatten
        writes := s.writes ++ placed dst (List.replicate (n + 1) (bytesAt s.src q bpp)).flatten }) := by
  induction n generalizing dst p size s with
  | zero =>
    rw [rlePixels_run_succ, run_bind_of_some (run_locD2DWritePixel dst q bpp s)]
    simp [rlePixels]
  | succ n ih =>
    have hsize : (if n = 0 then if n + 1 = 1 then size - bpp else size
        else (if n + 1 = 1 then size - bpp else size) - bpp) = size - bpp := by
      by_cases hn : n = 0
      · simp [hn]
      · simp [hn]
    have hwrites : placed dst (bytesAt s.src q bpp) ++
        placed (dst + UInt32.ofNat bpp) (List.replicate (n + 1) (bytesAt s.src q bpp)).flatten =
        placed dst (List.replicate (n + 1 + 1) (bytesAt s.src q bpp)).flatten := by
      rw [List.replicate_succ (n := n + 1), List.flatten_cons, placed_append, length_bytesAt]
    rw [rlePixels_run_succ, run_bind_of_some (run_locD2DWritePixel dst q bpp s), ih, address_succ, hsize,
      if_neg (Nat.succ_ne_zero n)]
    simp only [List.append_assoc, hwrites]
    rw [← List.flatten_cons, ← List.replicate_succ]

theorem run_rlePixels_literal (n : ℕ) (dst : UInt32) (q p size : ℕ) (s : Decoder) :
    (rlePixels false q bpp n dst p size).run s =
      (some (dst + UInt32.ofNat (n * bpp), p + n * bpp, size - n * bpp), { s with
        reads := s.reads ++ List.range' p (n * bpp)
        writes := s.writes ++ placed dst (bytesAt s.src p (n * bpp)) }) := by
  induction n generalizing dst p size s with
  | zero => simp [rlePixels, bytesAt, placed]
  | succ n ih =>
    have hlen : (n + 1) * bpp = bpp + n * bpp := by rw [Nat.succ_mul, Nat.add_comm]
    rw [rlePixels_literal_succ, run_bind_of_some (run_locD2DWritePixel dst p bpp s), ih, address_succ, hlen,
      bytesAt_add, placed_append, length_bytesAt, ← List.range'_append_1, Nat.sub_sub, Nat.add_assoc]
    simp only [List.append_assoc]

namespace Packet

/-- The offsets read for a packet that stands at `p`. -/
def readsAt (p : ℕ) : Packet bpp → List ℕ
  | .run count _ => p :: (List.replicate (count + 1) (List.range' (p + 1) bpp)).flatten
  | .literal count _ => p :: List.range' (p + 1) ((count + 1) * bpp)

/-- What is taken off the size for it: for a run of length 1 only the header. -/
def taken (pkt : Packet bpp) : ℕ := if pkt.single then 1 else pkt.encode.length

@[simp] theorem length_encode_run (count : Fin 128) (pixel : Vector UInt8 bpp) :
    (run count pixel).encode.length = bpp + 1 := by
  simp [encode]

@[simp] theorem length_encode_literal (count : Fin 128) (pixels : Vector UInt8 ((count + 1) * bpp)) :
    (literal count pixels).encode.length = (count + 1) * bpp + 1 := by
  simp [encode]

theorem encode_pos (hbpp : 0 < bpp) (pkt : Packet bpp) : 2 ≤ pkt.encode.length := by
  cases pkt with
  | run count pixel =>
    rw [length_encode_run]
    omega
  | literal count pixels =>
    rw [length_encode_literal]
    exact Nat.succ_le_succ (Nat.mul_pos (Nat.succ_pos _) hbpp)

theorem decode_pos (hbpp : 0 < bpp) (pkt : Packet bpp) : 0 < pkt.decode.length := by
  cases pkt with
  | run count pixel => simpa [decode] using hbpp
  | literal count pixels => simpa [decode] using hbpp

theorem mem_readsAt (hbpp : 0 < bpp) (p : ℕ) (pkt : Packet bpp) (i : ℕ) :
    i ∈ pkt.readsAt p ↔ p ≤ i ∧ i < p + pkt.encode.length := by
  cases pkt with
  | run count pixel =>
    simp only [readsAt, List.mem_cons, List.mem_flatten, List.mem_replicate, length_encode_run]
    constructor
    · rintro (rfl | ⟨l, ⟨-, rfl⟩, hi⟩)
      · omega
      · rw [List.mem_range'_1] at hi
        omega
    · intro h
      by_cases hi : i = p
      · exact .inl hi
      · exact .inr ⟨_, ⟨Nat.succ_ne_zero _, rfl⟩, List.mem_range'_1.mpr (by omega)⟩
  | literal count pixels =>
    simp only [readsAt, List.mem_cons, List.mem_range'_1, length_encode_literal]
    omega

end Packet

theorem header_run (count : Fin 128) :
    ((0x80 ||| UInt8.ofNat count) &&& 0x7F).toNat = count ∧ (0x80 ||| UInt8.ofNat count) >>> 7 ≠ 0 := by
  revert count
  decide

theorem header_literal (count : Fin 128) :
    (UInt8.ofNat count &&& 0x7F).toNat = count ∧ ¬UInt8.ofNat count >>> 7 ≠ 0 := by
  revert count
  decide

theorem holds_cons {b : UInt8} {l : List UInt8} : Holds src p (b :: l) ↔ src p = b ∧ Holds src (p + 1) l := by
  unfold Holds
  rw [List.length_cons, bytesAt_succ, List.cons.injEq]

/-- One round of the loop decodes one packet. -/
theorem run_rlePackets_packet (fuel : ℕ) (dst : UInt32) {pkt : Packet bpp} (h : Holds s.src p pkt.encode) (hsize : 2 ≤ size) :
    (rlePackets bpp (fuel + 1) dst p size).run s =
      (rlePackets bpp fuel (dst + UInt32.ofNat pkt.decode.length) (p + pkt.encode.length) (size - pkt.taken)).run
        { s with reads := s.reads ++ pkt.readsAt p, writes := s.writes ++ placed dst pkt.decode } := by
  rw [rlePackets, if_pos (by omega), run_bind_of_some (run_readSrc p s)]
  cases pkt with
  | run count pixel =>
    obtain ⟨hheader, hpixel⟩ := holds_cons.mp h
    obtain ⟨hcount, hrle⟩ := header_run count
    unfold Holds at hpixel
    rw [Vector.length_toList] at hpixel
    simp only [hheader, hcount, decide_eq_true hrle, if_neg (show ¬size - 1 = 0 by omega)]
    rw [run_bind_of_some (run_rlePixels_run _ _ _ _ _ _)]
    have hdecode : (Packet.run count pixel).decode.length = (count + 1) * bpp := by simp [Packet.decode]
    have hsize' : (if (count : ℕ) = 0 then size - 1 else size - 1 - bpp) = size - (Packet.run count pixel).taken := by
      by_cases hcount0 : count = 0
      · simp [Packet.taken, Packet.single, hcount0]
      · simp [Packet.taken, Packet.single, hcount0, Nat.sub_sub, Nat.add_comm]
    rw [hdecode, hsize', hpixel]
    simp only [Packet.length_encode_run, Packet.readsAt, Packet.decode, List.append_assoc, List.singleton_append,
      Nat.add_assoc, Nat.add_comm 1 bpp]
  | literal count pixels =>
    obtain ⟨hheader, hpixels⟩ := holds_cons.mp h
    obtain ⟨hcount, hrle⟩ := header_literal count
    unfold Holds at hpixels
    rw [Vector.length_toList] at hpixels
    simp only [hheader, hcount, decide_eq_false hrle, if_neg (show ¬size - 1 = 0 by omega)]
    rw [run_bind_of_some (run_rlePixels_literal _ _ _ _ _ _)]
    have hdecode : (Packet.literal count pixels).decode.length = (count + 1) * bpp := by simp [Packet.decode]
    have hsize' : size - 1 - (count + 1) * bpp = size - (Packet.literal count pixels).taken := by
      simp [Packet.taken, Packet.single, Nat.sub_sub, Nat.add_comm]
    rw [hdecode, hsize', hpixels]
    simp only [Packet.length_encode_literal, Packet.readsAt, Packet.decode, List.append_assoc, List.singleton_append,
      Nat.add_assoc, Nat.add_comm 1 ((count + 1) * bpp)]

/-! ## The packet that stands at an offset -/

theorem header_decoded (h : UInt8) : (h &&& 0x7F).toNat < 128 ∧
    (h >>> 7 ≠ 0 → 0x80 ||| UInt8.ofNat (h &&& 0x7F).toNat = h) ∧
    (¬h >>> 7 ≠ 0 → UInt8.ofNat (h &&& 0x7F).toNat = h) := by
  have hall : ∀ n : Fin 256, (UInt8.ofNat n &&& 0x7F).toNat < 128 ∧
      (UInt8.ofNat n >>> 7 ≠ 0 → 0x80 ||| UInt8.ofNat (UInt8.ofNat n &&& 0x7F).toNat = UInt8.ofNat n) ∧
      (¬UInt8.ofNat n >>> 7 ≠ 0 → UInt8.ofNat (UInt8.ofNat n &&& 0x7F).toNat = UInt8.ofNat n) := by decide +kernel
  have hthis := hall ⟨h.toNat, h.toNat_lt⟩
  rwa [UInt8.ofNat_toNat] at hthis

def vectorAt (src : ℕ → UInt8) (p n : ℕ) : Vector UInt8 n := ⟨(bytesAt src p n).toArray, by simp⟩

@[simp] theorem toList_vectorAt (src : ℕ → UInt8) (p n : ℕ) : (vectorAt src p n).toList = bytesAt src p n := by
  simp [vectorAt]

/-- Any memory holds a packet at any offset. -/
def packetAt (bpp : ℕ) (src : ℕ → UInt8) (p : ℕ) : Packet bpp :=
  if src p >>> 7 ≠ 0 then .run ⟨(src p &&& 0x7F).toNat, (header_decoded _).1⟩ (vectorAt src (p + 1) bpp)
  else .literal ⟨(src p &&& 0x7F).toNat, (header_decoded _).1⟩ (vectorAt src (p + 1) _)

theorem holds_packetAt (bpp : ℕ) (src : ℕ → UInt8) (p : ℕ) : Holds src p (packetAt bpp src p).encode := by
  obtain ⟨-, hrun, hliteral⟩ := header_decoded (src p)
  unfold packetAt
  split_ifs with hrle
  · simp only [Packet.encode, holds_cons, hrun hrle, toList_vectorAt, true_and]
    unfold Holds
    rw [length_bytesAt]
  · simp only [Packet.encode, holds_cons, hliteral hrle, toList_vectorAt, true_and]
    unfold Holds
    rw [length_bytesAt]

/-! ## The loop -/

theorem run_rlePackets_zero (fuel : ℕ) (dst : UInt32) (p : ℕ) (s : Decoder) :
    (rlePackets bpp fuel dst p 0).run s = (some (), s) := by
  cases fuel <;> rfl

theorem run_rlePackets_one (fuel : ℕ) (dst : UInt32) (p : ℕ) (s : Decoder) :
    (rlePackets bpp (fuel + 1) dst p 1).run s = (some (), { s with reads := s.reads ++ [p] }) := rfl

/-- The loop returns, and only adds to what was read and written. -/
theorem rlePackets_extends (bpp fuel : ℕ) (dst : UInt32) (p size : ℕ) (s : Decoder) :
    ∃ reads writes, (rlePackets bpp fuel dst p size).run s =
      (some (), { s with reads := s.reads ++ reads, writes := s.writes ++ writes }) := by
  induction fuel generalizing dst p size s with
  | zero => exact ⟨[], [], by simp [rlePackets]⟩
  | succ fuel ih =>
    match size with
    | 0 => exact ⟨[], [], by simp [run_rlePackets_zero]⟩
    | 1 => exact ⟨[p], [], by simp [run_rlePackets_one]⟩
    | size + 2 =>
      obtain ⟨reads, writes, hrun⟩ := ih (dst + UInt32.ofNat (packetAt bpp s.src p).decode.length)
        (p + (packetAt bpp s.src p).encode.length) (size + 2 - (packetAt bpp s.src p).taken) { s with
          reads := s.reads ++ (packetAt bpp s.src p).readsAt p
          writes := s.writes ++ placed dst (packetAt bpp s.src p).decode }
      rw [run_rlePackets_packet fuel dst (holds_packetAt bpp s.src p) (Nat.le_add_left 2 size), hrun]
      exact ⟨_, _, by simp only [List.append_assoc]; rfl⟩

theorem encodeAll_cons (pkt : Packet bpp) (ps : List (Packet bpp)) :
    encodeAll (pkt :: ps) = pkt.encode ++ encodeAll ps := rfl

theorem decodeAll_cons (pkt : Packet bpp) (ps : List (Packet bpp)) :
    decodeAll (pkt :: ps) = pkt.decode ++ decodeAll ps := rfl

theorem singles_cons (pkt : Packet bpp) (ps : List (Packet bpp)) :
    bpp * singles (pkt :: ps) = (if pkt.single then bpp else 0) + bpp * singles ps := by
  rw [singles, List.countP_cons, Nat.mul_add, Nat.add_comm, singles]
  congr 1
  cases pkt.single <;> simp

/-- A run of length 1 leaves its pixel in the size. -/
theorem Packet.length_eq_taken (pkt : Packet bpp) :
    pkt.encode.length = pkt.taken + if pkt.single then bpp else 0 := by
  cases pkt with
  | run count pixel =>
    unfold taken
    cases hsingle : (run count pixel).single <;> simp [Nat.add_comm]
  | literal count pixels => simp [taken, single]

theorem Packet.taken_pos (pkt : Packet bpp) : 0 < pkt.taken := by
  unfold taken
  split_ifs
  · exact Nat.one_pos
  · cases pkt <;> simp

/-- The size that is left too large after packets: a pixel for each run of length 1. -/
theorem run_rlePackets_all (hbpp : 0 < bpp) (ps : List (Packet bpp)) (extra : ℕ) (dst : UInt32) (p : ℕ) (s : Decoder)
    (h : Holds s.src p (encodeAll ps)) (hfuel : (encodeAll ps).length + extra ≤ fuel) :
    ∃ fuel' reads, extra + bpp * singles ps ≤ fuel' ∧ (∀ i ∈ reads, i < p + (encodeAll ps).length) ∧
      (rlePackets bpp fuel dst p ((encodeAll ps).length + extra)).run s =
        (rlePackets bpp fuel' (dst + UInt32.ofNat (decodeAll ps).length) (p + (encodeAll ps).length)
          (extra + bpp * singles ps)).run
          { s with reads := s.reads ++ reads, writes := s.writes ++ placed dst (decodeAll ps) } := by
  induction ps generalizing fuel extra dst p s with
  | nil => exact ⟨fuel, [], by simpa [encodeAll, singles] using hfuel, by simp, by simp [encodeAll, decodeAll, singles, placed]⟩
  | cons pkt ps ih =>
    rw [encodeAll_cons] at h hfuel ⊢
    obtain ⟨hpkt, hrest⟩ := holds_append.mp h
    have hpos := pkt.encode_pos hbpp
    have htaken := pkt.length_eq_taken
    have hround := pkt.taken_pos
    rw [List.length_append] at hfuel ⊢
    obtain ⟨fuel, rfl⟩ : ∃ n, fuel = n + 1 := ⟨fuel - 1, by omega⟩
    have hsize : pkt.encode.length + (encodeAll ps).length + extra - pkt.taken =
        (encodeAll ps).length + (extra + if pkt.single then bpp else 0) := by omega
    obtain ⟨fuel', reads, hfuel', hreads, hrun⟩ := @ih fuel (extra + if pkt.single then bpp else 0)
      (dst + UInt32.ofNat pkt.decode.length) (p + pkt.encode.length) { s with
        reads := s.reads ++ pkt.readsAt p
        writes := s.writes ++ placed dst pkt.decode } hrest (by omega)
    rw [singles_cons, ← Nat.add_assoc]
    refine ⟨fuel', pkt.readsAt p ++ reads, hfuel', fun i hi => ?_, ?_⟩
    · rcases List.mem_append.mp hi with hpart | hpart
      · have := ((Packet.mem_readsAt hbpp p pkt i).mp hpart).2
        omega
      · have := hreads i hpart
        omega
    · rw [run_rlePackets_packet fuel dst hpkt (by omega), hsize, hrun, decodeAll_cons, List.length_append, UInt32.ofNat_add,
        placed_append, ← UInt32.add_assoc, ← Nat.add_assoc]
      simp only [List.append_assoc]

/-! ## The claims of the decoder -/

/-- A memory that holds some bytes from its start. -/
def memory (l : List UInt8) (i : ℕ) : UInt8 := l.getD i 0

theorem holds_memory (l : List UInt8) : Holds (memory l) 0 l := by
  unfold Holds bytesAt
  apply List.ext_getElem
  · simp
  · intro i _ hi
    simp [memory, List.getElem?_eq_getElem hi]

theorem writesExactly_iff (hbpp : 0 < bpp) (ps : List (Packet bpp)) : WritesExactly bpp ps ↔ bpp * singles ps ≤ 1 := by
  constructor
  · intro hexact
    by_contra hmany
    obtain ⟨reads, hrun⟩ := hexact (memory (encodeAll ps)) 0 (holds_memory _)
    obtain ⟨fuel', reads', hfuel', -, hall⟩ := run_rlePackets_all hbpp ps 0 0 0 ⟨memory (encodeAll ps), [], []⟩
      (holds_memory _) (Nat.le_of_eq (Nat.add_zero _))
    obtain ⟨fuel', rfl⟩ : ∃ n, fuel' = n + 1 := ⟨fuel' - 1, by omega⟩
    -- a packet more is decoded from behind the encoding
    generalize hpkt : packetAt bpp (memory (encodeAll ps)) (0 + (encodeAll ps).length) = pkt
    have hholds := holds_packetAt bpp (memory (encodeAll ps)) (0 + (encodeAll ps).length)
    rw [hpkt] at hholds
    rw [run_rlePackets_packet _ _ hholds (by omega)] at hall
    obtain ⟨reads'', writes, hmore⟩ := rlePackets_extends bpp fuel'
      (0 + UInt32.ofNat (decodeAll ps).length + UInt32.ofNat pkt.decode.length)
      (0 + (encodeAll ps).length + pkt.encode.length) (0 + bpp * singles ps - pkt.taken) _
    have hboth := hrun.symm.trans (hall.trans hmore)
    have hlen := congrArg (fun r => r.2.writes.length) hboth
    have hpos := pkt.decode_pos hbpp
    simp only [List.nil_append, List.length_append, length_placed] at hlen
    omega
  · intro hfew src dst hsrc
    obtain ⟨fuel', reads, hfuel', -, hall⟩ := run_rlePackets_all hbpp ps 0 dst 0 ⟨src, [], []⟩ hsrc
      (Nat.le_of_eq (Nat.add_zero _))
    rw [Nat.zero_add] at hall hfuel'
    unfold locDecompressRLE
    rw [Nat.add_zero] at hall
    rw [hall]
    rcases Nat.le_one_iff_eq_zero_or_eq_one.mp hfew with h0 | h1
    · rw [h0, run_rlePackets_zero]
      exact ⟨_, rfl⟩
    · obtain ⟨fuel', rfl⟩ : ∃ n, fuel' = n + 1 := ⟨fuel' - 1, by omega⟩
      rw [h1, run_rlePackets_one]
      exact ⟨_, rfl⟩

/-- Where the size is ahead of the `n` bytes by `extra` and nothing behind them is read, it is not ahead, and what is
left of them is whole. -/
theorem whole_of_within (hbpp : 0 < bpp) {n : ℕ} (extra : ℕ) (hfuel : size ≤ fuel) (hp : p ≤ n)
    (hsize : p + size = n + extra)
    (hreads : ∀ i ∈ ((rlePackets bpp fuel dst p size).run s).2.reads, i < n) :
    extra = 0 ∧ Whole bpp (bytesAt s.src p (n - p)) := by
  induction fuel generalizing dst p size s extra with
  | zero =>
    obtain ⟨rfl, rfl⟩ : extra = 0 ∧ n = p := by omega
    exact ⟨rfl, [], [], rfl, by simp, by simp [encodeAll, bytesAt]⟩
  | succ fuel ih =>
    match size with
    | 0 =>
      obtain ⟨rfl, rfl⟩ : extra = 0 ∧ n = p := by omega
      exact ⟨rfl, [], [], rfl, by simp, by simp [encodeAll, bytesAt]⟩
    | 1 =>
      have hread : p < n := hreads p (by simp [run_rlePackets_one])
      obtain ⟨rfl, rfl⟩ : extra = 0 ∧ n = p + 1 := by omega
      exact ⟨rfl, [], bytesAt s.src p 1, rfl, by simp, by simp [encodeAll]⟩
    | size + 2 =>
      generalize hpkt : packetAt bpp s.src p = pkt
      have hholds := holds_packetAt bpp s.src p
      rw [hpkt] at hholds
      have hround := run_rlePackets_packet fuel dst hholds (Nat.le_add_left 2 size)
      rw [hround] at hreads
      -- the packet itself is read, so it lies in the bytes
      have hin : p + pkt.encode.length ≤ n := by
        obtain ⟨reads, writes, hmore⟩ := rlePackets_extends bpp fuel
          (dst + UInt32.ofNat pkt.decode.length) (p + pkt.encode.length) (size + 2 - pkt.taken)
          { s with reads := s.reads ++ pkt.readsAt p, writes := s.writes ++ placed dst pkt.decode }
        have hpos := pkt.encode_pos hbpp
        have hlast : p + pkt.encode.length - 1 ∈ pkt.readsAt p :=
          (Packet.mem_readsAt hbpp p pkt _).mpr ⟨by omega, by omega⟩
        have := hreads (p + pkt.encode.length - 1) (by rw [hmore]; simp [hlast])
        omega
      have htaken := pkt.length_eq_taken
      have hround := pkt.taken_pos
      obtain ⟨hextra, hwhole⟩ := ih (extra + if pkt.single then bpp else 0) (by omega) hin (by omega) hreads
      cases hsingle : pkt.single with
      | true =>
        rw [hsingle, if_pos rfl] at hextra
        omega
      | false =>
        obtain ⟨ps, tail, hps, htail, hbytes⟩ := hwhole
        refine ⟨by omega, pkt :: ps, tail, ?_, htail, ?_⟩
        · rw [singles, List.countP_cons, hsingle]
          exact hps
        · have hsplit : n - p = pkt.encode.length + (n - (p + pkt.encode.length)) := by omega
          unfold Holds at hholds
          rw [hsplit, bytesAt_add, hholds, hbytes, encodeAll_cons, List.append_assoc]

theorem readsWithin_iff (hbpp : 0 < bpp) (l : List UInt8) : ReadsWithin bpp l ↔ Whole bpp l := by
  constructor
  · intro hwithin
    have hreads := hwithin (memory l) 0 (holds_memory l)
    have hwhole := (whole_of_within hbpp 0 le_rfl (Nat.zero_le _) (Nat.zero_add _) hreads).2
    have hbytes : bytesAt (memory l) 0 l.length = l := holds_memory l
    rwa [Nat.sub_zero, hbytes] at hwhole
  · rintro ⟨ps, tail, hps, htail, rfl⟩ src dst hsrc i hi
    obtain ⟨fuel', reads, hfuel', hreads, hall⟩ := run_rlePackets_all hbpp ps tail.length dst 0 ⟨src, [], []⟩
      (holds_append.mp hsrc).1 (Nat.le_of_eq (List.length_append).symm)
    rw [hps, Nat.mul_zero, Nat.add_zero] at hall hfuel'
    rw [locDecompressRLE, List.length_append] at hi
    rw [List.length_append] at hall ⊢
    rw [hall] at hi
    rcases Nat.le_one_iff_eq_zero_or_eq_one.mp htail with h0 | h1
    · rw [h0, run_rlePackets_zero] at hi
      have := hreads i (by simpa using hi)
      omega
    · obtain ⟨fuel', rfl⟩ : ∃ n, fuel' = n + 1 := ⟨fuel' - 1, by omega⟩
      rw [h1, run_rlePackets_one] at hi
      simp only [List.nil_append, List.mem_append, List.mem_singleton] at hi
      rcases hi with hi | rfl
      · have := hreads i hi
        omega
      · omega

/-- The decoder writes what a list of packets says when it has at most one run of length 1, and one only with pixels of
one byte; it reads only the bytes of a string that is whole packets without such runs, and perhaps a header behind. -/
theorem locDecompressRLE_iff (hbpp : 0 < bpp) (ps : List (Packet bpp)) (l : List UInt8) :
    (WritesExactly bpp ps ↔ bpp * singles ps ≤ 1) ∧ (ReadsWithin bpp l ↔ Whole bpp l) :=
  ⟨writesExactly_iff hbpp ps, readsWithin_iff hbpp l⟩

/-- A run of one pixel of four bytes: the decoder goes on behind it. -/
theorem single_run_overruns : ¬∀ bpp, 1 ≤ bpp → bpp ≤ 4 → ∀ ps : List (Packet bpp), WritesExactly bpp ps := by
  intro hall
  have hexact := hall 4 (by decide) (by decide) [.run 0 #v[1, 2, 3, 4]]
  exact absurd ((writesExactly_iff (by decide) _).mp hexact) (by decide)

/-- A literal and a run of two pixels of three bytes. -/
theorem two_packets_decoded :
    WritesExactly 3 [.literal 0 #v[1, 2, 3], .run 1 #v[4, 5, 6]] ∧
      ReadsWithin 3 [0x00, 1, 2, 3, 0x81, 4, 5, 6] :=
  ⟨(locDecompressRLE_iff (by decide) _ []).1.mpr (by decide),
    (locDecompressRLE_iff (by decide) [] _).2.mpr
      ⟨[.literal 0 #v[1, 2, 3], .run 1 #v[4, 5, 6]], [], by decide, by decide, by decide⟩⟩

end RCar.Texture
