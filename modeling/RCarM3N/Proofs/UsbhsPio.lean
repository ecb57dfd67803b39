import RCarM3N.Model.UsbhsPio

/-! The PIO handlers move the bytes of a request and no others. The calls of a push leave whole packets behind until the
last one, those of a pop take whole packets until the one that ends the request; a call that finds the FIFO closed leaves
everything as it is. -/

namespace RCar.UsbhsPio

open Usbhsg

/-! ## Push -/

section Push

variable {maxp buf len n : ℕ} {mem : Mem} {tx : Packetizer UInt8} {running : Bool} {pkt : Pkt} {f : Fifo}

/-- A call finds the FIFO open for writing. -/
def PushOpen (f : Fifo) : Prop := f.selected = true ∧ f.accessible = true ∧ f.ready = true

theorem read_four (mem : Mem) (a : ℕ) : mem.read a 4 =
    [byte32 (mem.le32 a) 0, byte32 (mem.le32 a) 1, byte32 (mem.le32 a) 2, byte32 (mem.le32 a) 3] := by
  simp only [Mem.byte32_le32, Nat.lt_add_one, Nat.one_lt_ofNat, Nat.ofNat_pos, Nat.reduceLT]
  rfl

theorem run_iowrite32Rep (mem : Mem) (buf n : ℕ) (tx : Packetizer UInt8) :
    (iowrite32Rep mem buf n).foldl (PortWrite.run maxp) tx = tx.appendAll maxp (mem.read buf (4 * n)) := by
  unfold iowrite32Rep
  induction n with
  | zero => rfl
  | succ n ih =>
    rw [List.range_succ, List.map_append, List.foldl_append, ih, Nat.mul_succ, Mem.read_append, read_four,
      Packetizer.appendAll_append]
    rfl

theorem run_iowrite8 (lane : ℕ → ℕ) (mem : Mem) (buf n : ℕ) (tx : Packetizer UInt8) :
    ((List.range n).map fun i => PortWrite.iowrite8 (lane i) (mem (buf + i))).foldl (PortWrite.run maxp) tx =
      tx.appendAll maxp (mem.read buf n) := by
  rw [List.foldl_map, Mem.read, Packetizer.appendAll, List.foldl_map]
  rfl

/-- The words and the bytes behind them are the bytes of the buffer, in order. -/
theorem run_writePort (mem : Mem) (buf len : ℕ) (tx : Packetizer UInt8) :
    (writePort mem buf len).foldl (PortWrite.run maxp) tx = tx.appendAll maxp (mem.read buf len) := by
  unfold writePort
  rw [List.foldl_append]
  split_ifs with h
  · have hwhole : len - len % 4 = 4 * (len / 4) := by omega
    have hlen : len = 4 * (len / 4) + len % 4 := by omega
    rw [run_iowrite32Rep, hwhole, run_iowrite8, ← Packetizer.appendAll_append, ← Mem.read_append, ← hlen]
  · rw [Nat.sub_self, Nat.add_zero, run_iowrite8]
    rfl

theorem usbhsfPioTryPush_toOutcome (maxp : ℕ) (running : Bool) (mem : Mem) (buf : ℕ) (pkt : Pkt) (f : Fifo) :
    (usbhsfPioTryPush maxp running mem buf pkt f).toOutcome = Usbhsg.usbhsfPioTryPush maxp running pkt f := by
  unfold usbhsfPioTryPush Usbhsg.usbhsfPioTryPush
  cases f.selected <;> cases f.accessible <;> cases f.ready <;> rfl

/-- A call at a closed FIFO writes nothing, leaves the request as it is and does not report. -/
theorem push_closed (maxp : ℕ) (running : Bool) (mem : Mem) (buf : ℕ) (pkt : Pkt) (hf : ¬ PushOpen f) :
    (usbhsfPioTryPush maxp running mem buf pkt f).pkt = pkt ∧
      (usbhsfPioTryPush maxp running mem buf pkt f).isDone = false ∧
      (usbhsfPioTryPush maxp running mem buf pkt f).writes = [] := by
  unfold PushOpen at hf
  unfold usbhsfPioTryPush
  cases hs : f.selected <;> cases ha : f.accessible <;> cases hr : f.ready <;> simp_all

theorem push_open (hf : PushOpen f) :
    usbhsfPioTryPush maxp running mem buf pkt f =
      let totalLen := min (pkt.length - pkt.actual) maxp
      let writes := writePort mem (buf + pkt.actual) totalLen
      let actual := pkt.actual + totalLen
      let isDone := if actual < pkt.length then false else if totalLen < maxp then true else !pkt.zero
      ⟨⟨{ pkt with actual := actual }, !isDone, isDone⟩, 0, if totalLen < maxp then writes ++ [.bval] else writes⟩ := by
  obtain ⟨hs, ha, hr⟩ := hf
  simp only [usbhsfPioTryPush, hs, ha, hr]
  rfl

/-- An open call sends the next bytes as one packet. -/
theorem push_writes (hmaxp : 1 ≤ maxp) (hf : PushOpen f) (htx : tx.pending = []) :
    (usbhsfPioTryPush maxp running mem buf pkt f).writes.foldl (PortWrite.run maxp) tx =
      ⟨[], tx.sent ++ [mem.read (buf + pkt.actual) (min (pkt.length - pkt.actual) maxp)]⟩ := by
  rw [push_open hf]
  generalize hlen : min (pkt.length - pkt.actual) maxp = len
  dsimp only
  split_ifs with h
  · rw [List.foldl_append, run_writePort, Packetizer.appendAll_short (by simpa [htx] using h)]
    simp [PortWrite.run, Packetizer.flush, htx]
  · have hfull : len = maxp := by omega
    have hne : mem.read (buf + pkt.actual) len ≠ [] := List.ne_nil_of_length_pos (by rw [Mem.length_read]; omega)
    rw [run_writePort, Packetizer.appendAll_full hne (by simp [htx, hfull]), htx, List.nil_append]

/-- The calls before the report: whole packets, and the last of them is followed by another one. -/
structure Sending (maxp : ℕ) (mem : Mem) (buf length : ℕ) (zero : Bool) (r : PushRun) : Prop where
  pkt_length : r.pkt.length = length
  pkt_zero : r.pkt.zero = zero
  actual_le : r.pkt.actual ≤ length
  whole : maxp ∣ r.pkt.actual
  again : r.pkt.actual = length → length ≠ 0 → zero = true
  pending : r.tx.pending = []
  full : ∀ p ∈ r.tx.sent, p.length = maxp
  flatten : r.tx.sent.flatten = mem.read buf r.pkt.actual

/-- The request after the report. -/
structure Sent (maxp : ℕ) (mem : Mem) (buf length : ℕ) (zero : Bool) (r : PushRun) : Prop where
  actual : r.pkt.actual = length
  pending : r.tx.pending = []
  carries : Carries maxp (length % maxp ≠ 0 ∨ zero = true ∨ length = 0) (mem.read buf length) r.tx.sent

/-- What holds after every call. -/
def PushRight (maxp : ℕ) (mem : Mem) (buf length : ℕ) (zero : Bool) (r : PushRun) : Prop :=
  (r.reports = 0 ∧ Sending maxp mem buf length zero r) ∨ (r.reports = 1 ∧ Sent maxp mem buf length zero r)

variable {length : ℕ} {zero : Bool} {r : PushRun}

theorem Sending.start (maxp : ℕ) (mem : Mem) (buf req : ℕ) (handler : Handler) (length : ℕ) (zero running : Bool) :
    Sending maxp mem buf length zero ⟨⟨req, handler, length, zero, 0⟩, running, ⟨[], []⟩, 0⟩ where
  pkt_length := rfl
  pkt_zero := rfl
  actual_le := Nat.zero_le _
  whole := Nat.dvd_zero _
  again := fun h hlen => absurd h.symm hlen
  pending := rfl
  full := by simp
  flatten := rfl

theorem Sending.congr {r' : PushRun} (h : Sending maxp mem buf length zero r) (hpkt : r'.pkt = r.pkt)
    (htx : r'.tx = r.tx) : Sending maxp mem buf length zero r' := by
  cases r'
  subst hpkt htx
  exact ⟨h.pkt_length, h.pkt_zero, h.actual_le, h.whole, h.again, h.pending, h.full, h.flatten⟩

theorem PushRun.call_closed (maxp : ℕ) (mem : Mem) (buf : ℕ) (r : PushRun) (hf : ¬ PushOpen f) :
    (r.call maxp mem buf f).pkt = r.pkt ∧ (r.call maxp mem buf f).tx = r.tx ∧
      (r.call maxp mem buf f).reports = r.reports := by
  obtain ⟨hpkt, hdone, hwrites⟩ := push_closed maxp r.running mem buf r.pkt hf
  unfold PushRun.call
  split_ifs with h
  · exact ⟨rfl, rfl, rfl⟩
  · simp [hpkt, hdone, hwrites]

/-- A whole packet, with another one to follow. -/
theorem Sending.next (h : Sending maxp mem buf length zero r) (hmaxp : r.pkt.actual + maxp ≤ length)
    (hagain : r.pkt.actual + maxp = length → zero = true) : Sending maxp mem buf length zero
      ⟨{ r.pkt with actual := r.pkt.actual + maxp }, running,
        ⟨[], r.tx.sent ++ [mem.read (buf + r.pkt.actual) maxp]⟩, n⟩ where
  pkt_length := h.pkt_length
  pkt_zero := h.pkt_zero
  actual_le := hmaxp
  whole := Nat.dvd_add h.whole dvd_rfl
  again := fun heq _ => hagain heq
  pending := rfl
  full := by simpa [or_imp, forall_and] using h.full
  flatten := by simp [h.flatten, Mem.read_append]

/-- The packet that ends the request. -/
theorem Sending.last (h : Sending maxp mem buf length zero r) (hlen : len ≤ maxp) (hmaxp : 1 ≤ maxp)
    (hactual : r.pkt.actual + len = length) (hend : len < maxp ∨ zero = false) : Sent maxp mem buf length zero
      ⟨{ r.pkt with actual := r.pkt.actual + len }, running,
        ⟨[], r.tx.sent ++ [mem.read (buf + r.pkt.actual) len]⟩, n⟩ where
  actual := hactual
  pending := rfl
  carries := by
    obtain ⟨k, hk⟩ := h.whole
    have hshort : len < maxp ↔ length % maxp ≠ 0 ∨ zero = true ∨ length = 0 := by
      rcases Nat.lt_or_eq_of_le hlen with hlt | rfl
      · have hmod : length % maxp = len := by rw [← hactual, hk, Nat.mul_add_mod, Nat.mod_eq_of_lt hlt]
        have hagain := h.again
        rw [hmod]
        refine ⟨fun _ => ?_, fun _ => hlt⟩
        by_cases hzero : len = 0
        · rw [hzero, Nat.add_zero] at hactual
          exact Or.inr (or_iff_not_imp_right.mpr (hagain hactual))
        · exact Or.inl hzero
      · have hmod : length % len = 0 := by rw [← hactual, hk, ← Nat.mul_succ, Nat.mul_mod_right]
        have hzero := hend.resolve_left (lt_irrefl _)
        simp [hmod, hzero]
        omega
    have hread : r.tx.sent.flatten ++ mem.read (buf + r.pkt.actual) len = mem.read buf length := by
      rw [h.flatten, ← Mem.read_append, hactual]
    rw [← hread]
    exact Carries.concat h.full (by rw [Mem.length_read]; exact hlen) (by rw [Mem.length_read]; exact hshort)

/-- The packet that an open call sends. -/
theorem Sending.call_open (h : Sending maxp mem buf length zero r) (hmaxp : 1 ≤ maxp) (hreports : r.reports = 0)
    (hf : PushOpen f) : PushRight maxp mem buf length zero (r.call maxp mem buf f) := by
  obtain rfl := h.pkt_length
  obtain rfl := h.pkt_zero
  have hle := h.actual_le
  rw [PushRun.call, if_neg (by simp [hreports])]
  dsimp only
  rw [push_writes hmaxp hf h.pending, push_open hf, hreports]
  by_cases hmore : r.pkt.actual + min (r.pkt.length - r.pkt.actual) maxp < r.pkt.length
  · -- the rest does not fit into this packet
    have hlen : min (r.pkt.length - r.pkt.actual) maxp = maxp := by omega
    rw [hlen] at hmore ⊢
    exact Or.inl ⟨by simp [hmore], h.next (by omega) (by omega)⟩
  · have hactual : r.pkt.actual + min (r.pkt.length - r.pkt.actual) maxp = r.pkt.length := by omega
    by_cases hshort : min (r.pkt.length - r.pkt.actual) maxp < maxp
    · exact Or.inr ⟨by simp [hmore, hshort], h.last (by omega) hmaxp hactual (Or.inl hshort)⟩
    · have hlen : min (r.pkt.length - r.pkt.actual) maxp = maxp := by omega
      rw [hlen] at hmore hactual ⊢
      cases hzero : r.pkt.zero with
      | true =>
        -- a packet of no bytes has to follow
        exact Or.inl ⟨by simp [hmore], hzero ▸ h.next (by omega) fun _ => hzero⟩
      | false => exact Or.inr ⟨by simp [hmore], hzero ▸ h.last le_rfl hmaxp hactual (Or.inr hzero)⟩

theorem PushRight.call (h : PushRight maxp mem buf length zero r) (hmaxp : 1 ≤ maxp) (f : Fifo) :
    PushRight maxp mem buf length zero (r.call maxp mem buf f) := by
  rcases h with ⟨hreports, h⟩ | ⟨hreports, h⟩
  · by_cases hf : PushOpen f
    · exact h.call_open hmaxp hreports hf
    · obtain ⟨hpkt, htx, hsame⟩ := PushRun.call_closed maxp mem buf r hf
      exact Or.inl ⟨hsame.trans hreports, h.congr hpkt htx⟩
  · rw [PushRun.call, if_pos (by simp [hreports])]
    exact Or.inr ⟨hreports, h⟩

/-- What is left to do. -/
def PushRun.left (r : PushRun) : ℕ := if r.reports = 0 then r.pkt.length - r.pkt.actual + 1 else 0

theorem PushRun.left_call_open (hmaxp : 1 ≤ maxp) (hf : PushOpen f) (hleft : r.left ≠ 0) :
    (r.call maxp mem buf f).left < r.left := by
  have hreports : r.reports = 0 := by
    by_contra h
    exact hleft (if_neg h)
  rw [PushRun.call, if_neg (by simp [hreports]), PushRun.left, PushRun.left, if_pos hreports]
  dsimp only
  rw [push_open hf, hreports]
  dsimp only
  by_cases hmore : r.pkt.actual < r.pkt.length
  · have hlen : 1 ≤ min (r.pkt.length - r.pkt.actual) maxp := by omega
    split_ifs <;> omega
  · have hlen : min (r.pkt.length - r.pkt.actual) maxp = 0 := by omega
    simp [hlen, hmore, Nat.lt_of_succ_le hmaxp]

theorem PushRun.left_call_le (hmaxp : 1 ≤ maxp) (f : Fifo) : (r.call maxp mem buf f).left ≤ r.left := by
  by_cases hleft : r.left = 0
  · have hreports : r.reports ≠ 0 := by
      intro h
      rw [PushRun.left, if_pos h] at hleft
      omega
    rw [PushRun.call, if_pos hreports]
  · by_cases hf : PushOpen f
    · exact (PushRun.left_call_open hmaxp hf hleft).le
    · obtain ⟨hpkt, -, hsame⟩ := PushRun.call_closed maxp mem buf r hf
      rw [PushRun.left, PushRun.left, hpkt, hsame]

theorem PushRight.run (hmaxp : 1 ≤ maxp) (h : PushRight maxp mem buf length zero r) (fifo : ℕ → Fifo) (n : ℕ) :
    PushRight maxp mem buf length zero (pushRun maxp mem buf r fifo n) := by
  induction n with
  | zero => exact h
  | succ n ih => exact ih.call hmaxp (fifo n)

/-- A FIFO that opens again and again is enough for the report. -/
theorem PushRight.reported (hmaxp : 1 ≤ maxp) (h : PushRight maxp mem buf length zero r) (fifo : ℕ → Fifo)
    (hopen : ∀ n, ∃ m ≥ n, PushOpen (fifo m)) : ∃ n, (pushRun maxp mem buf r fifo n).reports = 1 := by
  obtain ⟨n, hn⟩ := exists_zero (fun n => (pushRun maxp mem buf r fifo n).left)
    (fun n => PushRun.left_call_le hmaxp (fifo n)) (fun n hf => PushRun.left_call_open hmaxp hf) hopen
  refine ⟨n, ?_⟩
  rcases h.run hmaxp fifo n with ⟨hreports, -⟩ | ⟨hreports, -⟩
  · rw [PushRun.left, if_pos hreports] at hn
    omega
  · exact hreports

end Push

/-! ## Pop -/

section Pop

variable {maxp buf len n k : ℕ} {mem : Mem} {p : RxPacket} {ps : List RxPacket} {running : Bool} {pkt : Pkt} {f : Fifo}

/-- A call finds the FIFO open for reading. -/
def PopOpen (f : Fifo) : Prop := f.selected = true ∧ f.ready = true

theorem update_copy (m : Mem) (d : ℕ) (src : Mem) (s n : ℕ) :
    Function.update (m.copy d src s n) (d + n) (src (s + n)) = m.copy d src s (n + 1) := by
  have hlast : src.read (s + n) 1 = [src (s + n)] := rfl
  rw [← Mem.copy_append, Mem.copy_eq_put _ (d + n), hlast, Mem.put_singleton]

theorem ioread32_cons (p : RxPacket) (ps : List RxPacket) (pos : ℕ) :
    (⟨p :: ps, pos⟩ : RxFifo).ioread32 = (p.data.le32 pos, ⟨p :: ps, pos + 4⟩) := rfl

theorem ioread32Rep_cons (n buf : ℕ) (mem : Mem) (pos : ℕ) :
    ioread32Rep n buf mem ⟨p :: ps, pos⟩ = (mem.copy buf p.data pos (4 * n), ⟨p :: ps, pos + 4 * n⟩) := by
  induction n generalizing buf mem pos with
  | zero => simp [ioread32Rep]
  | succ n ih =>
    rw [ioread32Rep, ioread32_cons, ih, Mem.setLe32_le32, Mem.copy_append]
    rw [Nat.mul_succ, Nat.add_comm (4 * n) 4, ← Nat.add_assoc]

/-- After `n` bytes of the rest the words that they are in were read. -/
theorem rest_turns (p : RxPacket) (ps : List RxPacket) (mem : Mem) (buf pos n : ℕ) : ∃ data,
    (List.range n).foldl (RestState.turn buf) ⟨0, mem, ⟨p :: ps, pos⟩⟩ =
      ⟨data, mem.copy buf p.data pos n, ⟨p :: ps, pos + 4 * ((n + 3) / 4)⟩⟩ ∧
        (n % 4 ≠ 0 → data = p.data.le32 (pos + 4 * (n / 4))) := by
  induction n with
  | zero => exact ⟨0, by simp, fun h => absurd rfl h⟩
  | succ n ih =>
    obtain ⟨data, hs, hdata⟩ := ih
    refine ⟨p.data.le32 (pos + 4 * (n / 4)), ?_, fun h => by rw [show (n + 1) / 4 = n / 4 by omega]⟩
    have hbyte : byte32 (p.data.le32 (pos + 4 * (n / 4))) (n % 4) = p.data (pos + n) := by
      rw [Mem.byte32_le32 _ _ (Nat.mod_lt _ (by decide))]
      congr 1
      omega
    rw [List.range_succ, List.foldl_append, hs, List.foldl_cons, List.foldl_nil, RestState.turn]
    split_ifs with h
    · rw [ioread32_cons, show 4 * ((n + 3) / 4) = 4 * (n / 4) by omega]
      dsimp only
      rw [hbyte, update_copy]
      congr 2
      omega
    · rw [hdata h]
      dsimp only
      rw [hbyte, update_copy]
      congr 3
      omega

/-- The words and the bytes behind them are the first bytes of the packet, and the place of the port is at or behind the
last of them. -/
theorem readPort_cons (p : RxPacket) (ps : List RxPacket) (mem : Mem) (buf len : ℕ) : ∃ pos, len ≤ pos ∧ (0 < len → 0 < pos) ∧
    readPort buf len mem ⟨p :: ps, 0⟩ = (mem.copy buf p.data 0 len, ⟨p :: ps, pos⟩) := by
  unfold readPort
  split_ifs with h
  · obtain ⟨data, hs, -⟩ := rest_turns p ps (mem.copy buf p.data 0 (4 * (len / 4)))
      (buf + 4 * (len / 4)) (0 + 4 * (len / 4)) (len % 4)
    have hwhole : len - len % 4 = 4 * (len / 4) := by omega
    have hlen : 4 * (len / 4) + len % 4 = len := by omega
    refine ⟨0 + 4 * (len / 4) + 4 * ((len % 4 + 3) / 4), by omega, by omega, ?_⟩
    rw [ioread32Rep_cons]
    dsimp only
    rw [hwhole]
    rw [hs, Mem.copy_append, hlen]
  · obtain ⟨data, hs, -⟩ := rest_turns p ps mem buf 0 len
    refine ⟨0 + 4 * ((len + 3) / 4), by omega, by omega, ?_⟩
    dsimp only
    rw [Nat.sub_self, Nat.add_zero, hs]

theorem usbhsfPioTryPop_toOutcome (maxp : ℕ) (running : Bool) (mem : Mem) (buf : ℕ) (pkt : Pkt) (f : Fifo) (rx : RxFifo) :
    (usbhsfPioTryPop maxp running mem buf pkt f rx).toOutcome = Usbhsg.usbhsfPioTryPop maxp running pkt f := by
  unfold usbhsfPioTryPop Usbhsg.usbhsfPioTryPop
  cases f.selected <;> cases f.ready
  · rfl
  · rfl
  · rfl
  · simp only [Bool.not_true, Bool.or_self, Bool.false_eq_true, if_false]
    by_cases hdone : pkt.actual + min (pkt.length - pkt.actual) f.rcvLen = pkt.length ∨
        min (pkt.length - pkt.actual) f.rcvLen < maxp
    · simp only [if_pos hdone, decide_eq_true hdone, if_true]
      split_ifs with h
      · simp [h]
      · simp [h]
    · simp only [if_neg hdone, decide_eq_false hdone, Bool.false_eq_true, if_false]
      split_ifs with h
      · simp [h]
      · simp [h]

theorem atPort_nil (f : Fifo) : ¬ PopOpen ((⟨[], n⟩ : RxFifo).atPort f) := by
  simp [PopOpen, RxFifo.atPort, RxFifo.ctr]

theorem atPort_cons (p : RxPacket) (ps : List RxPacket) (n : ℕ) (f : Fifo) :
    (⟨p :: ps, n⟩ : RxFifo).atPort f = { f with rcvLen := p.len } := by
  have hlen : (FRDY ||| p.len) &&& DTLN_MASK = p.len := by
    rw [Nat.and_or_distrib_right, show FRDY &&& DTLN_MASK = 0 by decide, Nat.zero_or]
    exact Nat.and_two_pow_sub_one_of_lt_two_pow (n := 12) (Nat.lt_succ_of_le p.fits)
  have hready : (FRDY ||| p.len) &&& FRDY ≠ 0 := by
    rw [Nat.and_or_distrib_right, Nat.and_self]
    intro h
    exact absurd (Nat.or_eq_zero_iff.mp h).1 (by decide)
  simp [RxFifo.atPort, RxFifo.ctr, hlen, hready]

/-- The bytes of the packets, in the order in which they were received. -/
def stream (packets : List RxPacket) : List UInt8 := packets.flatMap RxPacket.bytes

@[simp] theorem stream_nil : stream [] = [] := rfl

@[simp] theorem stream_concat (packets : List RxPacket) (p : RxPacket) :
    stream (packets ++ [p]) = stream packets ++ p.bytes := by
  simp [stream]

@[simp] theorem length_bytes (p : RxPacket) : p.bytes.length = p.len := Mem.length_read _ _ _

/-- The packets end a request of this length: they fill it, or one of them is short. -/
def Ended (maxp length : ℕ) (packets : List RxPacket) : Prop :=
  packets ≠ [] ∧ (length ≤ (stream packets).length ∨ ∃ p ∈ packets, p.len < maxp)

/-- The calls have taken these packets: what is stored are their bytes, as far as the request has room for them, nothing
else is written, and the report comes with the packet that ends the request. -/
structure Received (maxp buf length : ℕ) (mem : Mem) (taken : List RxPacket) (r : PopRun) : Prop where
  actual : r.pkt.actual = ((stream taken).take length).length
  mem : r.mem = mem.put buf ((stream taken).take length)
  once : r.reports ≤ 1
  done : r.reports = 1 ↔ Ended maxp length taken
  first : ∀ q, q <+: taken → Ended maxp length q → q = taken

/-- What holds after every call, with the packets that are still to come. -/
structure Receiving (maxp buf length : ℕ) (mem : Mem) (taken rest : List RxPacket) (r : PopRun) : Prop
    extends Received maxp buf length mem taken r where
  pkt_length : r.pkt.length = length
  rx : r.reports = 0 → r.rx = ⟨rest, 0⟩

variable {length : ℕ} {taken rest : List RxPacket} {r : PopRun}

theorem Receiving.start (maxp buf req : ℕ) (handler : Handler) (length : ℕ) (zero running : Bool) (mem : Mem)
    (packets : List RxPacket) :
    Receiving maxp buf length mem [] packets ⟨⟨req, handler, length, zero, 0⟩, running, mem, ⟨packets, 0⟩, 0⟩ where
  actual := by simp
  mem := by simp
  once := Nat.zero_le _
  done := by simp [Ended]
  first := fun q hq _ => List.prefix_nil.mp hq
  pkt_length := rfl
  rx := fun _ => rfl

@[simp] theorem settle_zero (packets : List RxPacket) : (⟨packets, 0⟩ : RxFifo).settle = ⟨packets, 0⟩ := by
  cases packets with
  | nil => rfl
  | cons p packets => simp [RxFifo.settle]

/-- Nothing happens at a closed FIFO, or at one without a packet. -/
theorem PopRun.call_closed (hreports : r.reports = 0) (hrx : r.rx = ⟨rest, 0⟩) (hf : ¬ PopOpen (r.rx.atPort f)) :
    r.call maxp buf f = r := by
  have hsettle : r.rx.settle = r.rx := by rw [hrx, settle_zero]
  rw [PopRun.call, if_neg (by simp [hreports])]
  unfold PopOpen at hf
  unfold usbhsfPioTryPop
  cases hs : (r.rx.atPort f).selected with
  | false => simp [hsettle]
  | true =>
    cases hr : (r.rx.atPort f).ready with
    | false => simp [hsettle]
    | true => exact absurd ⟨hs, hr⟩ hf

theorem pop_open {rx : RxFifo} (hf : PopOpen f) :
    usbhsfPioTryPop maxp running mem buf pkt f rx =
      let totalLen := min (pkt.length - pkt.actual) f.rcvLen
      let actual := pkt.actual + totalLen
      let isDone : Bool := actual = pkt.length ∨ totalLen < maxp
      let running := if isDone then false else running
      if f.rcvLen = 0 then
        ⟨⟨{ pkt with actual := actual, zero := true }, running, isDone⟩, 0, mem, rx.clear⟩
      else
        let s := readPort (buf + pkt.actual) totalLen mem rx
        ⟨⟨{ pkt with actual := actual }, running, isDone⟩, 0, s.1, s.2⟩ := by
  obtain ⟨hs, hr⟩ := hf
  simp only [usbhsfPioTryPop, hs, hr]
  rfl

/-- What an open call does with the packet that waits. -/
theorem PopRun.call_open (maxp buf : ℕ) (hreports : r.reports = 0) (hrx : r.rx = ⟨p :: rest, 0⟩) (hf : PopOpen f) :
    let len := min (r.pkt.length - r.pkt.actual) p.len
    let r' := r.call maxp buf f
    r'.pkt.length = r.pkt.length ∧ r'.pkt.actual = r.pkt.actual + len ∧
      r'.mem = r.mem.copy (buf + r.pkt.actual) p.data 0 len ∧
      (r'.reports = if r.pkt.actual + len = r.pkt.length ∨ len < maxp then 1 else 0) ∧
      (len = p.len → r'.rx = ⟨rest, 0⟩) := by
  have hf' : PopOpen { f with rcvLen := p.len } := hf
  rw [PopRun.call, if_neg (by simp [hreports]), hrx, atPort_cons]
  dsimp only
  rw [pop_open hf', hreports]
  dsimp only
  by_cases hzero : p.len = 0
  · rw [if_pos hzero]
    exact ⟨rfl, rfl, by simp [hzero], by simp [Bool.toNat], fun _ => settle_zero rest⟩
  · obtain ⟨pos, hpos, hpos', hread⟩ := readPort_cons p rest r.mem (buf + r.pkt.actual)
      (min (r.pkt.length - r.pkt.actual) p.len)
    rw [if_neg hzero, hread]
    refine ⟨rfl, rfl, rfl, ?_, fun hlen => ?_⟩
    · simp [Bool.toNat]
    · have hend : 0 < pos ∧ p.len ≤ pos := ⟨hpos' (by omega), by omega⟩
      exact if_pos hend

/-- Nothing that was taken so far ends the request. -/
theorem Received.not_ended (h : Received maxp buf length mem taken r) (hreports : r.reports = 0) :
    ¬ Ended maxp length taken := by
  intro hended
  have hdone := h.done.mpr hended
  omega

theorem stream_le (h : ¬ Ended maxp length taken) : (stream taken).length ≤ length := by
  cases taken with
  | nil => simp
  | cons p taken =>
    by_contra hlong
    exact h ⟨by simp, Or.inl (by omega)⟩

/-- The packet that is taken next ends the request when it fills it or is short. -/
theorem ended_concat (h : ¬ Ended maxp length taken) (hle : (stream taken).length ≤ length) :
    Ended maxp length (taken ++ [p]) ↔
      (stream taken).length + min (length - (stream taken).length) p.len = length ∨
        min (length - (stream taken).length) p.len < maxp := by
  have hlong : taken ≠ [] → ∀ q ∈ taken, maxp ≤ q.len := by
    intro hne q hq
    by_contra hshort
    exact h ⟨hne, Or.inr ⟨q, hq, by omega⟩⟩
  unfold Ended
  rw [stream_concat, List.length_append, length_bytes]
  refine ⟨fun ⟨_, hend⟩ => ?_, fun hend => ⟨by simp, ?_⟩⟩
  · rcases hend with hfull | ⟨q, hq, hshort⟩
    · exact Or.inl (by omega)
    · rcases List.mem_append.mp hq with hq | hq
      · have := hlong (List.ne_nil_of_mem hq) q hq
        omega
      · rw [List.mem_singleton.mp hq] at hshort
        exact Or.inr (by omega)
  · by_cases hfull : length ≤ (stream taken).length + p.len
    · exact Or.inl hfull
    · exact Or.inr ⟨p, by simp, by omega⟩

/-- The packet that waits is taken. -/
theorem Receiving.call_open (h : Receiving maxp buf length mem taken (p :: rest) r)
    (hreports : r.reports = 0) (hf : PopOpen f) :
    Receiving maxp buf length mem (taken ++ [p]) rest (r.call maxp buf f) := by
  have hnot := h.not_ended hreports
  have hle := stream_le hnot
  have hall : (stream taken).take length = stream taken := List.take_of_length_le hle
  have hactual := h.actual
  have hmem := h.mem
  rw [hall] at hactual hmem
  obtain ⟨hlength, hactual', hmem', hreports', hrx'⟩ := PopRun.call_open maxp buf hreports (h.rx hreports) hf
  rw [h.pkt_length, hactual] at hactual' hmem' hreports' hrx'
  rw [h.pkt_length] at hlength
  have hended := ended_concat (p := p) hnot hle
  generalize r.call maxp buf f = r' at *
  generalize hlen : min (length - (stream taken).length) p.len = len at *
  have hstored : (stream (taken ++ [p])).take length = stream taken ++ p.data.read 0 len := by
    rw [stream_concat, List.take_append, hall, RxPacket.bytes, Mem.take_read_min, hlen]
  refine ⟨⟨?_, ?_, ?_, ?_, ?_⟩, hlength, ?_⟩
  · rw [hactual', hstored, List.length_append, Mem.length_read]
  · rw [hmem', hmem, hstored, Mem.copy_eq_put, Mem.put_append]
  · rw [hreports']
    split_ifs <;> omega
  · rw [hreports', hended]
    split_ifs with hend <;> simp [hend]
  · intro q hq hq'
    rcases List.prefix_concat_iff.mp hq with heq | hq
    · exact heq
    · exact absurd (h.first q hq hq' ▸ hq') hnot
  · intro hgoes
    apply hrx'
    rw [hreports'] at hgoes
    split_ifs at hgoes
    omega

theorem Receiving.call (h : Receiving maxp buf length mem taken rest r) (f : Fifo) :
    ∃ taken' rest', taken' ++ rest' = taken ++ rest ∧ Receiving maxp buf length mem taken' rest' (r.call maxp buf f) := by
  by_cases hreports : r.reports = 0
  · by_cases hf : PopOpen (r.rx.atPort f)
    · rw [h.rx hreports] at hf
      cases rest with
      | nil => exact absurd hf (atPort_nil f)
      | cons p rest =>
        rw [atPort_cons] at hf
        exact ⟨taken ++ [p], rest, by simp, h.call_open hreports hf⟩
    · rw [PopRun.call_closed hreports (h.rx hreports) hf]
      exact ⟨taken, rest, rfl, h⟩
  · rw [PopRun.call, if_pos hreports]
    exact ⟨taken, rest, rfl, h⟩

theorem Receiving.run (h : Receiving maxp buf length mem taken rest r) (fifo : ℕ → Fifo) (n : ℕ) :
    ∃ taken' rest', taken' ++ rest' = taken ++ rest ∧
      Receiving maxp buf length mem taken' rest' (popRun maxp buf r fifo n) := by
  induction n with
  | zero => exact ⟨taken, rest, rfl, h⟩
  | succ n ih =>
    obtain ⟨taken', rest', heq, h'⟩ := ih
    obtain ⟨taken'', rest'', heq', h''⟩ := h'.call (fifo n)
    exact ⟨taken'', rest'', heq'.trans heq, h''⟩

/-- The packets that are still to come. -/
def PopRun.left (r : PopRun) : ℕ := if r.reports = 0 then r.rx.packets.length else 0

theorem PopRun.left_pos (hleft : r.left ≠ 0) : r.reports = 0 ∧ r.rx.packets ≠ [] := by
  unfold PopRun.left at hleft
  split_ifs at hleft with h
  · exact ⟨h, List.ne_nil_of_length_pos (Nat.pos_of_ne_zero hleft)⟩
  · exact absurd rfl hleft

theorem Receiving.left_call_open (h : Receiving maxp buf length mem taken rest r) (hf : PopOpen f) (hleft : r.left ≠ 0) :
    (r.call maxp buf f).left < r.left := by
  obtain ⟨hreports, hne⟩ := PopRun.left_pos hleft
  have hrx := h.rx hreports
  cases rest with
  | nil =>
    rw [hrx] at hne
    exact absurd rfl hne
  | cons p rest =>
    have h' := h.call_open hreports hf
    rw [PopRun.left, PopRun.left, if_pos hreports, hrx, List.length_cons]
    split_ifs with hgoes
    · rw [h'.rx hgoes]
      exact Nat.lt_succ_self _
    · exact Nat.succ_pos _

theorem Receiving.left_call_le (h : Receiving maxp buf length mem taken rest r) (f : Fifo) :
    (r.call maxp buf f).left ≤ r.left := by
  by_cases hreports : r.reports = 0
  · by_cases hf : PopOpen (r.rx.atPort f)
    · by_cases hleft : r.left = 0
      · rw [PopRun.left, if_pos hreports, h.rx hreports, List.length_eq_zero_iff] at hleft
        change rest = [] at hleft
        rw [h.rx hreports, hleft] at hf
        exact absurd hf (atPort_nil f)
      · obtain ⟨-, hne⟩ := PopRun.left_pos hleft
        obtain ⟨p, ps, hps⟩ := List.exists_cons_of_ne_nil hne
        have hf' : PopOpen f := by
          rw [show r.rx = ⟨p :: ps, r.rx.pos⟩ by rw [← hps], atPort_cons] at hf
          exact hf
        exact (h.left_call_open hf' hleft).le
    · rw [PopRun.call_closed hreports (h.rx hreports) hf]
  · rw [PopRun.call, if_pos hreports]

/-- A FIFO that opens again and again, with packets that end the request, is enough for the report. -/
theorem Receiving.reported (h : Receiving maxp buf length mem taken rest r) (fifo : ℕ → Fifo)
    (hopen : ∀ n, ∃ m ≥ n, PopOpen (fifo m)) (hended : Ended maxp length (taken ++ rest)) :
    ∃ n, (popRun maxp buf r fifo n).reports = 1 := by
  obtain ⟨n, hn⟩ := exists_zero (fun n => (popRun maxp buf r fifo n).left)
    (fun n => by
      obtain ⟨taken', rest', -, h'⟩ := h.run fifo n
      exact h'.left_call_le (fifo n))
    (fun n hf hleft => by
      obtain ⟨taken', rest', -, h'⟩ := h.run fifo n
      exact h'.left_call_open hf hleft) hopen
  obtain ⟨taken', rest', heq, h'⟩ := h.run fifo n
  refine ⟨n, ?_⟩
  by_contra hreports
  have hgoes : (popRun maxp buf r fifo n).reports = 0 := by
    have honce := h'.once
    omega
  rw [PopRun.left, if_pos hgoes, h'.rx hgoes, List.length_eq_zero_iff] at hn
  change rest' = [] at hn
  rw [hn, List.append_nil] at heq
  exact h'.not_ended hgoes (heq ▸ hended)

end Pop

/-! ## Both ways -/

/-- A request of any length at any place of memory is pushed as its bytes, in whole packets and one that ends it, and
popped as the bytes of the packets that were received, up to the one that ends it. -/
theorem pio_moves_request (maxp : ℕ) (hmaxp : 1 ≤ maxp) (mem : Mem) (buf req : ℕ) (handler : Handler) (length : ℕ)
    (zero running : Bool) (fifo : ℕ → Fifo) :
    (let push := pushRun maxp mem buf ⟨⟨req, handler, length, zero, 0⟩, running, ⟨[], []⟩, 0⟩ fifo;
      (∀ n, PushRight maxp mem buf length zero (push n)) ∧
        ((∀ n, ∃ m ≥ n, PushOpen (fifo m)) → ∃ n, (push n).reports = 1)) ∧
      ∀ packets : List RxPacket,
        let pop := popRun maxp buf ⟨⟨req, handler, length, zero, 0⟩, running, mem, ⟨packets, 0⟩, 0⟩ fifo
        (∀ n, ∃ taken, taken <+: packets ∧ Received maxp buf length mem taken (pop n)) ∧
          ((∀ n, ∃ m ≥ n, PopOpen (fifo m)) → Ended maxp length packets → ∃ n, (pop n).reports = 1) := by
  refine ⟨?_, fun packets => ?_⟩
  · have h : PushRight maxp mem buf length zero ⟨⟨req, handler, length, zero, 0⟩, running, ⟨[], []⟩, 0⟩ :=
      Or.inl ⟨rfl, Sending.start maxp mem buf req handler length zero running⟩
    exact ⟨h.run hmaxp fifo, h.reported hmaxp fifo⟩
  · have h := Receiving.start maxp buf req handler length zero running mem packets
    refine ⟨fun n => ?_, h.reported fifo⟩
    obtain ⟨taken, rest, heq, hreceived⟩ := h.run fifo n
    exact ⟨taken, ⟨rest, heq⟩, hreceived.toReceived⟩

def openFifo : ℕ → Fifo := fun _ => ⟨false, true, true, true, 0⟩

/-- Two packets of two bytes at most, the second of them short. -/
def twoPackets : List RxPacket := [⟨fun i => UInt8.ofNat i, 2, by decide⟩, ⟨fun i => UInt8.ofNat (7 * i), 1, by decide⟩]

theorem pio_moves_request_three :
    (∃ n, PushRight 2 (fun a => UInt8.ofNat a) 5 3 false (pushRun 2 (fun a => UInt8.ofNat a) 5
        ⟨⟨0, .usbhsFifoPioPush, 3, false, 0⟩, false, ⟨[], []⟩, 0⟩ openFifo n) ∧
      (pushRun 2 (fun a => UInt8.ofNat a) 5
        ⟨⟨0, .usbhsFifoPioPush, 3, false, 0⟩, false, ⟨[], []⟩, 0⟩ openFifo n).reports = 1) ∧
      ∃ n, (popRun 2 5 ⟨⟨0, .usbhsFifoPioPop, 3, false, 0⟩, true, fun _ => 0, ⟨twoPackets, 0⟩, 0⟩ openFifo n).reports = 1 := by
  have hpush := pio_moves_request 2 (by decide) (fun a => UInt8.ofNat a) 5 0 .usbhsFifoPioPush 3 false false openFifo
  have hpop := pio_moves_request 2 (by decide) (fun _ => 0) 5 0 .usbhsFifoPioPop 3 false true openFifo
  obtain ⟨n, hn⟩ := hpush.1.2 fun n => ⟨n, le_rfl, rfl, rfl, rfl⟩
  refine ⟨⟨n, hpush.1.1 n, hn⟩, (hpop.2 twoPackets).2 (fun n => ⟨n, le_rfl, rfl, rfl⟩) ⟨by simp [twoPackets], Or.inl ?_⟩⟩
  simp [twoPackets, stream]

end RCar.UsbhsPio
