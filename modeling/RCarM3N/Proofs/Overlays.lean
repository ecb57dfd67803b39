import RCarM3N.Model.Overlays

/-! Overlays that are applied one after the other: the tree at the load address is always the one with
the overlays that have been counted, and the list that is printed names them as long as it agrees with the
order in the command line. -/

namespace RCar.DeviceTree

variable {T : Type} {lib : Libfdt T} {o : DtOverlays T} {platId : UInt32}

/-! ## The table -/

theorem DtOverlays.info_getElem? (o : DtOverlays T) (i : ℕ) : o.info[i]? = (o.entries[i]?).map (⟨·, i⟩) := by
  simp [DtOverlays.info, getDtInfo]

/-- The index of an entry is its place. -/
theorem DtOverlays.idxs_eq (o : DtOverlays T) : o.idxs = o.orderIdx := by
  have hself : ∀ l : List ℕ, (∀ i ∈ l, i < o.entries.length) →
      (l.filterMap fun i => (o.info[i]?).map (·.idx)) = l := by
    intro l hl
    induction l with
    | nil => rfl
    | cons i l ih =>
      rw [List.filterMap_cons, DtOverlays.info_getElem?, List.getElem?_eq_getElem (hl i List.mem_cons_self)]
      simp only [Option.map_some, ih fun j hj => hl j (List.mem_cons_of_mem _ hj)]
  exact hself o.orderIdx o.order_lt

theorem readOrder_lt (maxSize n : ℕ) (s : List UInt8) : ∀ i ∈ readOrder maxSize n s, i < maxSize := by
  induction n generalizing s with
  | zero => simp [readOrder]
  | succ n ih =>
    intro i hi
    rw [readOrder] at hi
    split_ifs at hi
    · simp at hi
    · obtain ⟨hlt, rfl | hi⟩ : (ustrtoul s).1.toNat < maxSize ∧ (i = (ustrtoul s).1.toNat ∨ _) := by simpa using hi
      · exact hlt
      · split at hi
        · exact ih _ i hi
        · simp at hi

theorem getOverlayOrder_lt (nullText : List UInt8) (bootargs : Option (List UInt8)) (maxSize : ℕ) :
    ∀ i ∈ getOverlayOrder nullText bootargs maxSize, i < maxSize := by
  unfold getOverlayOrder
  split
  · exact readOrder_lt _ _ _
  · simp

/-! ## Trees with overlays -/

variable (lib o platId) in
/-- The tree with one more overlay, when this is for the platform and can be applied. -/
def extend (fdt : T) (n : ℕ) : Option T := do
  let entry ← o.entries[n]?
  if entry.id ≠ platId ∧ entry.id ≠ RCAR_GENERIC_PLAT_ID then none
  let opened := lib.openInto fdt (lib.totalsize fdt + lib.totalsize entry.tree)
  if opened.1 = false then none
  let applied := lib.overlayApply opened.2 entry.tree
  if applied.1 = false then none
  return applied.2

variable (lib o platId) in
/-- The tree with a list of overlays, in this order. -/
def grown (base : T) (order : List ℕ) : Option T := order.foldlM (extend lib o platId) base

theorem grown_cons (base : T) (n : ℕ) (order : List ℕ) :
    grown lib o platId base (n :: order) = (extend lib o platId base n).bind fun t => grown lib o platId t order :=
  rfl

/-- A list of overlays ends where one of them cannot be applied. -/
theorem grown_take_none {base : T} {order : List ℕ} {k m : ℕ} (h : grown lib o platId base (order.take k) = none)
    (hkm : k ≤ m) : grown lib o platId base (order.take m) = none := by
  obtain ⟨j, rfl⟩ := Nat.exists_eq_add_of_le hkm
  unfold grown at h ⊢
  rw [List.take_add, List.foldlM_append, h]
  rfl

/-- The first `k` overlays can be applied and give the tree `fdt`; the next one cannot. -/
structure Longest (lib : Libfdt T) (o : DtOverlays T) (platId : UInt32) (base : T) (order : List ℕ) (k : ℕ)
    (fdt : T) : Prop where
  le_length : k ≤ order.length
  grown_eq : grown lib o platId base (order.take k) = some fdt
  next_none : k < order.length → grown lib o platId base (order.take (k + 1)) = none

theorem Longest.lt_of_grown {base fdt t : T} {order : List ℕ} {k i : ℕ}
    (h : Longest lib o platId base order k fdt) (hi : i < order.length)
    (hgrown : grown lib o platId base (order.take (i + 1)) = some t) : i < k := by
  by_contra hki
  have hnone := grown_take_none (h.next_none (by omega)) (show k + 1 ≤ i + 1 by omega)
  rw [hnone] at hgrown
  cases hgrown

theorem Longest.grown_of_lt {base fdt : T} {order : List ℕ} {k i : ℕ}
    (h : Longest lib o platId base order k fdt) (hi : i < k) :
    ∃ t, grown lib o platId base (order.take (i + 1)) = some t := by
  rw [← Option.isSome_iff_exists, Option.isSome_iff_ne_none]
  intro hnone
  have := grown_take_none hnone (show i + 1 ≤ k by omega)
  rw [h.grown_eq] at this
  cases this

/-! ## Room -/

variable (lib o platId) in
/-- An overlay is no longer than its entry says, and the buffer has room for the tree with it. -/
def Room (maxDtSize : ℕ) (fdt : T) (n : ℕ) : Prop :=
  ∀ entry, o.entries[n]? = some entry → entry.id = platId ∨ entry.id = RCAR_GENERIC_PLAT_ID →
    lib.totalsize entry.tree ≤ entry.dtSize ∧ lib.totalsize fdt + lib.totalsize entry.tree ≤ maxDtSize

variable (lib o platId) in
/-- There is room for every overlay that is reached. -/
def Fits (maxDtSize : ℕ) (base : T) (order : List ℕ) : Prop :=
  ∀ i n, order[i]? = some n → ∀ fdt, grown lib o platId base (order.take i) = some fdt →
    Room lib o platId maxDtSize fdt n

theorem fits_cons {maxDtSize : ℕ} {base : T} {n : ℕ} {order : List ℕ} :
    Fits lib o platId maxDtSize base (n :: order) ↔ Room lib o platId maxDtSize base n ∧
      ∀ fdt, extend lib o platId base n = some fdt → Fits lib o platId maxDtSize fdt order := by
  constructor
  · intro h
    refine ⟨h 0 n rfl base rfl, fun fdt hfdt i m him t ht => h (i + 1) m him t ?_⟩
    rw [List.take_succ_cons, grown_cons, hfdt]
    exact ht
  · rintro ⟨hroom, hrest⟩ i m him fdt hfdt
    cases i with
    | zero =>
      cases him
      cases hfdt
      exact hroom
    | succ i =>
      rw [List.take_succ_cons, grown_cons] at hfdt
      obtain ⟨t, ht, hfdt⟩ := Option.bind_eq_some_iff.mp hfdt
      exact hrest t ht i m him fdt hfdt

theorem extend_of_entry {entry : DtTableEntry T} {n : ℕ} (h : o.entries[n]? = some entry) (fdt : T) :
    extend lib o platId fdt n =
      if entry.id ≠ platId ∧ entry.id ≠ RCAR_GENERIC_PLAT_ID then none
      else
        let opened := lib.openInto fdt (lib.totalsize fdt + lib.totalsize entry.tree)
        if opened.1 = false then none
        else
          let applied := lib.overlayApply opened.2 entry.tree
          if applied.1 = false then none else some applied.2 := by
  unfold extend
  rw [h]
  simp only [Option.bind_eq_bind, Option.bind_some]
  split_ifs <;> rfl

theorem room_of_entry {entry : DtTableEntry T} {n maxDtSize : ℕ} (h : o.entries[n]? = some entry) (fdt : T) :
    Room lib o platId maxDtSize fdt n ↔ (entry.id = platId ∨ entry.id = RCAR_GENERIC_PLAT_ID →
      lib.totalsize entry.tree ≤ entry.dtSize ∧ lib.totalsize fdt + lib.totalsize entry.tree ≤ maxDtSize) := by
  unfold Room
  rw [h]
  simp

variable (lib platId) in
/-- One iteration: without room a buffer is left, and an overlay that cannot be applied ends the loop. -/
theorem applyLoop_cons {maxDtSize n : ℕ} (hn : n < o.size) (order : List ℕ) (fdt : T) (count : ℕ) :
    (¬ Room lib o platId maxDtSize fdt n ∧
      applyLoop lib o platId maxDtSize (n :: order) fdt fdt count = none) ∨
    (Room lib o platId maxDtSize fdt n ∧
      applyLoop lib o platId maxDtSize (n :: order) fdt fdt count =
        match extend lib o platId fdt n with
        | none => some (fdt, count)
        | some t => applyLoop lib o platId maxDtSize order t t (count + 1)) := by
  have hentry : o.entries[n]? = some o.entries[n] := List.getElem?_eq_getElem hn
  rw [room_of_entry hentry, extend_of_entry hentry, applyLoop, if_neg (by omega), DtOverlays.info_getElem?, hentry]
  simp only [Option.map_some]
  by_cases hforeign : o.entries[n].id ≠ platId ∧ o.entries[n].id ≠ RCAR_GENERIC_PLAT_ID
  · rw [if_pos hforeign, if_pos hforeign]
    exact Or.inr ⟨fun h => absurd h (not_or.mpr hforeign), rfl⟩
  · have hown : o.entries[n].id = platId ∨ o.entries[n].id = RCAR_GENERIC_PLAT_ID := by
      rwa [not_and_or, not_not, not_not] at hforeign
    rw [if_neg hforeign, if_neg hforeign]
    by_cases hroom : o.entries[n].dtSize < lib.totalsize o.entries[n].tree ∨
        maxDtSize < lib.totalsize fdt + lib.totalsize o.entries[n].tree
    · rw [if_pos hroom]
      refine Or.inl ⟨fun h => ?_, rfl⟩
      have := h hown
      omega
    · rw [if_neg hroom]
      refine Or.inr ⟨fun _ => by omega, ?_⟩
      cases hopened : (lib.openInto fdt (lib.totalsize fdt + lib.totalsize o.entries[n].tree)).1 with
      | false => rfl
      | true =>
        simp only [Bool.not_true, Bool.false_eq_true, if_false, Bool.true_eq_false]
        split_ifs <;> simp_all

/-- The loop stops before the first overlay that cannot be applied, or leaves a buffer on its way there. -/
theorem applyLoop_eq {maxDtSize : ℕ} {order : List ℕ} (horder : ∀ n ∈ order, n < o.size) (fdt : T) (count : ℕ) :
    (¬ Fits lib o platId maxDtSize fdt order ∧
      applyLoop lib o platId maxDtSize order fdt fdt count = none) ∨
    (Fits lib o platId maxDtSize fdt order ∧ ∃ k t, Longest lib o platId fdt order k t ∧
      applyLoop lib o platId maxDtSize order fdt fdt count = some (t, count + k)) := by
  induction order generalizing fdt count with
  | nil =>
    refine Or.inr ⟨fun i n hi => by simp at hi, 0, fdt, ⟨le_refl _, rfl, fun h => by simp at h⟩, rfl⟩
  | cons n order ih =>
    rw [fits_cons]
    rcases applyLoop_cons lib platId (horder n List.mem_cons_self) order fdt count with
      ⟨hroom, hrun⟩ | ⟨hroom, hrun⟩
    · exact Or.inl ⟨fun h => hroom h.1, hrun⟩
    rw [hrun]
    cases hext : extend lib o platId fdt n with
    | none =>
      refine Or.inr ⟨⟨hroom, fun t ht => by cases ht⟩, 0, fdt, ⟨Nat.zero_le _, rfl, fun _ => ?_⟩, rfl⟩
      rw [List.take_succ_cons, grown_cons, hext]
      rfl
    | some t =>
      rcases ih (fun m hm => horder m (List.mem_cons_of_mem _ hm)) t (count + 1) with
        ⟨hfits, hnone⟩ | ⟨hfits, k, t', hlongest, hsome⟩
      · exact Or.inl ⟨fun h => hfits (h.2 t rfl), hnone⟩
      · refine Or.inr ⟨⟨hroom, fun u hu => Option.some.inj hu ▸ hfits⟩, k + 1, t', ⟨?_, ?_, fun hk => ?_⟩, ?_⟩
        · exact Nat.succ_le_succ hlongest.le_length
        · rw [List.take_succ_cons, grown_cons, hext]
          exact hlongest.grown_eq
        · rw [List.take_succ_cons, grown_cons, hext]
          exact hlongest.next_none (Nat.lt_of_succ_lt_succ hk)
        · rw [show count + (k + 1) = count + 1 + k by omega]
          exact hsome

/-- The size of the tree of an entry. -/
def DtOverlays.treeSize (lib : Libfdt T) (o : DtOverlays T) (n : ℕ) : ℕ :=
  ((o.entries[n]?).map fun entry => lib.totalsize entry.tree).getD 0

def DtOverlays.dtSize (o : DtOverlays T) (n : ℕ) : ℕ := ((o.entries[n]?).map (·.dtSize)).getD 0

theorem totalsize_extend {fdt t : T} {n : ℕ} (h : extend lib o platId fdt n = some t) :
    lib.totalsize t = lib.totalsize fdt + o.treeSize lib n := by
  cases hentry : o.entries[n]? with
  | none =>
    rw [extend, hentry] at h
    cases h
  | some entry =>
    rw [extend_of_entry hentry] at h
    split_ifs at h with hforeign
    simp only at h
    split_ifs at h with hopened happlied
    obtain rfl := Option.some.inj h
    rw [lib.totalsize_overlayApply _ _ (by simpa using happlied), lib.totalsize_openInto _ _ (by simpa using hopened)]
    simp [DtOverlays.treeSize, hentry]

theorem totalsize_grown {order : List ℕ} {base t : T} (h : grown lib o platId base order = some t) :
    lib.totalsize t = lib.totalsize base + (order.map (o.treeSize lib)).sum := by
  induction order generalizing base with
  | nil =>
    cases h
    simp
  | cons n order ih =>
    rw [grown_cons] at h
    obtain ⟨u, hu, h⟩ := Option.bind_eq_some_iff.mp h
    rw [ih h, totalsize_extend hu, List.map_cons, List.sum_cons]
    omega

theorem calculateMaxDtSize_eq (o : DtOverlays T) (base : DtTableEntry T) (order : List ℕ) :
    calculateMaxDtSize o base order = base.dtSize + (order.map o.dtSize).sum := by
  have hfold : ∀ size, order.foldl (fun size dtNum => size + ((o.info[dtNum]?).map (·.entry.dtSize)).getD 0) size
      = size + (order.map o.dtSize).sum := by
    induction order with
    | nil => simp
    | cons n order ih =>
      intro size
      rw [List.foldl_cons, ih, List.map_cons, List.sum_cons, DtOverlays.info_getElem?, Option.map_map]
      simp only [DtOverlays.dtSize, Function.comp_def]
      omega
  exact hfold _

/-- Tables that give the sizes of their trees need no more than the buffers have. -/
theorem fits_of_sizes {base : DtTableEntry T} {loadAddr : T} (order : List ℕ)
    (hbase : lib.totalsize loadAddr ≤ base.dtSize) (hentries : ∀ n, o.treeSize lib n ≤ o.dtSize n) :
    lib.totalsize loadAddr ≤ calculateMaxDtSize o base order ∧
      Fits lib o platId (calculateMaxDtSize o base order) loadAddr order := by
  rw [calculateMaxDtSize_eq]
  refine ⟨by omega, fun i n hi fdt hfdt entry hentry _ => ?_⟩
  have hsize := hentries n
  simp only [DtOverlays.treeSize, DtOverlays.dtSize, hentry, Option.map_some, Option.getD_some] at hsize
  refine ⟨hsize, ?_⟩
  have hsum : ((order.take (i + 1)).map (o.treeSize lib)).sum ≤ (order.map o.dtSize).sum := by
    calc ((order.take (i + 1)).map (o.treeSize lib)).sum
        ≤ ((order.take (i + 1)).map o.dtSize).sum := List.sum_le_sum fun n _ => hentries n
      _ ≤ (order.map o.dtSize).sum := by
          conv_rhs => rw [← List.take_append_drop (i + 1) order, List.map_append, List.sum_append]
          exact Nat.le_add_right _ _
  obtain ⟨hlt, rfl⟩ := List.getElem?_eq_some_iff.mp hi
  rw [List.take_succ_eq_append_getElem hlt, List.map_append, List.sum_append, List.map_singleton,
    List.sum_singleton] at hsum
  have htree : o.treeSize lib order[i] = lib.totalsize entry.tree := by simp [DtOverlays.treeSize, hentry]
  rw [totalsize_grown hfdt]
  omega

/-! ## The tree that is loaded -/

variable (lib o platId) in
/-- There is room for the base tree and for every overlay that is reached. -/
def BuffersFit (base : DtTableEntry T) (loadAddr : T) (order : List ℕ) : Prop :=
  order ≠ [] → lib.totalsize loadAddr ≤ calculateMaxDtSize o base order ∧
    Fits lib o platId (calculateMaxDtSize o base order) loadAddr order

theorem buffersFit_of_sizes {base : DtTableEntry T} {loadAddr : T} (order : List ℕ)
    (hbase : lib.totalsize loadAddr ≤ base.dtSize) (hentries : ∀ n, o.treeSize lib n ≤ o.dtSize n) :
    BuffersFit lib o platId base loadAddr order :=
  fun _ => fits_of_sizes order hbase hentries

variable (lib o platId) in
theorem applyAllOverlays_eq (nullText : List UInt8) (bootargs : Option (List UInt8)) (base : DtTableEntry T)
    (loadAddr : T) :
    (¬ BuffersFit lib o platId base loadAddr (getOverlayOrder nullText bootargs o.size) ∧
      applyAllOverlays lib o platId nullText bootargs base loadAddr = none) ∨
    (BuffersFit lib o platId base loadAddr (getOverlayOrder nullText bootargs o.size) ∧ ∃ k t,
      Longest lib o platId loadAddr (getOverlayOrder nullText bootargs o.size) k t ∧
        applyAllOverlays lib o platId nullText bootargs base loadAddr = some (t, k)) := by
  have hlt := getOverlayOrder_lt nullText bootargs o.size
  unfold applyAllOverlays BuffersFit
  generalize getOverlayOrder nullText bootargs o.size = order at hlt ⊢
  simp only
  split_ifs with hnil hsize
  · subst hnil
    exact Or.inr ⟨fun h => absurd rfl h, 0, loadAddr, ⟨le_refl _, rfl, fun h => by simp at h⟩, rfl⟩
  · exact Or.inl ⟨fun h => by have := (h hnil).1; omega, rfl⟩
  · rcases applyLoop_eq hlt loadAddr 0 with ⟨hfits, hnone⟩ | ⟨hfits, k, t, hlongest, hsome⟩
    · exact Or.inl ⟨fun h => hfits (h hnil).2, hnone⟩
    · exact Or.inr ⟨fun _ => ⟨Nat.not_lt.mp hsize, hfits⟩, k, t, hlongest, by rw [hsome, Nat.zero_add]⟩

theorem Longest.unique {base t t' : T} {order : List ℕ} {k k' : ℕ} (h : Longest lib o platId base order k t)
    (h' : Longest lib o platId base order k' t') : k = k' ∧ t = t' := by
  have hle : ∀ {k k' : ℕ} {t t' : T}, Longest lib o platId base order k t →
      Longest lib o platId base order k' t' → k' ≤ k := by
    intro k k' t t' h h'
    cases k' with
    | zero => exact Nat.zero_le _
    | succ i => exact h.lt_of_grown (by have := h'.le_length; omega) h'.grown_eq
  obtain rfl := le_antisymm (hle h' h) (hle h h')
  exact ⟨rfl, Option.some.inj (h.grown_eq.symm.trans h'.grown_eq)⟩

variable (lib o platId) in
/-- What is left at the load address is the base tree with the longest good prefix of the order, no buffer
has been left, and what is printed is this prefix. -/
def KeepsGoodPrefix (nullText : List UInt8) (bootargs : Option (List UInt8)) (base : DtTableEntry T)
    (loadAddr : T) : Prop :=
  ∃ r, loadOverlays lib o platId nullText bootargs base loadAddr = some r ∧
    Longest lib o platId loadAddr (getOverlayOrder nullText r.bootargs o.size) r.appliedOverlays r.loadAddr ∧
      r.printed = (getOverlayOrder nullText r.bootargs o.size).take r.appliedOverlays

variable (lib o platId) in
/-- The order in `order_idx` is the one in the command line, as far as this can be applied. -/
def OrdersAgree (loadAddr : T) (order : List ℕ) : Prop :=
  ∀ i < order.length, ∀ fdt, grown lib o platId loadAddr (order.take (i + 1)) = some fdt →
    o.orderIdx[i]? = order[i]?

theorem Longest.ordersAgree_iff {base t : T} {order : List ℕ} {k : ℕ} (h : Longest lib o platId base order k t) :
    OrdersAgree lib o platId base order ↔ k ≤ o.orderIdx.length ∧ o.orderIdx.take k = order.take k := by
  constructor
  · intro hagree
    have heq : ∀ i < k, o.orderIdx[i]? = order[i]? := by
      intro i hi
      obtain ⟨t, ht⟩ := h.grown_of_lt hi
      exact hagree i (by have := h.le_length; omega) t ht
    constructor
    · cases k with
      | zero => exact Nat.zero_le _
      | succ i =>
        have hi := heq i (Nat.lt_succ_self i)
        rw [List.getElem?_eq_getElem (show i < order.length by have := h.le_length; omega)] at hi
        exact (List.getElem?_eq_some_iff.mp hi).1
    · apply List.ext_getElem?
      intro i
      rw [List.getElem?_take, List.getElem?_take]
      split_ifs with hi
      · exact heq i hi
      · rfl
  · rintro ⟨hle, htake⟩ i hi fdt hfdt
    have hik := h.lt_of_grown hi hfdt
    have := congrArg (·[i]?) htake
    simpa [List.getElem?_take, hik] using this

/-- The tree with the longest good prefix is loaded and reported if and only if no buffer is left and the
order of the overlays is the one in the command line. -/
theorem keepsGoodPrefix_iff (lib : Libfdt T) (o : DtOverlays T) (platId : UInt32) (nullText : List UInt8)
    (bootargs : Option (List UInt8)) (base : DtTableEntry T) (loadAddr : T) :
    KeepsGoodPrefix lib o platId nullText bootargs base loadAddr ↔
      ∃ bootargs', addDtboIndex o bootargs = some bootargs' ∧
        BuffersFit lib o platId base loadAddr (getOverlayOrder nullText bootargs' o.size) ∧
        OrdersAgree lib o platId loadAddr (getOverlayOrder nullText bootargs' o.size) := by
  unfold KeepsGoodPrefix loadOverlays
  cases hbootargs : addDtboIndex o bootargs with
  | none => simp
  | some bootargs' =>
    rcases applyAllOverlays_eq lib o platId nullText bootargs' base loadAddr with
      ⟨hfits, hnone⟩ | ⟨hfits, k, t, hlongest, hsome⟩
    · simp [hnone, hfits]
    · simp only [Option.bind_eq_bind, Option.bind_some, hsome, Option.some.injEq, exists_eq_left',
        hlongest.ordersAgree_iff, DtOverlays.idxs_eq, hfits, true_and]
      split_ifs with hk
      · constructor
        · rintro ⟨r, hr, -⟩
          cases hr
        · rintro ⟨hle, -⟩
          omega
      · constructor
        · rintro ⟨r, hr, -, hprinted⟩
          cases hr
          exact ⟨Nat.not_lt.mp hk, hprinted⟩
        · rintro ⟨-, htake⟩
          exact ⟨_, rfl, hlongest, htake⟩

/-- Trees as the lists of their overlays, with a size. -/
def listFdt : Libfdt (ℕ × List ℕ) where
  totalsize := Prod.fst
  openInto fdt n := (true, (n, fdt.2))
  overlayApply fdt fdto := (true, (fdt.1, fdt.2 ++ fdto.2))
  totalsize_openInto _ _ _ := rfl
  totalsize_overlayApply _ _ _ := rfl

def twoOverlays : DtOverlays (ℕ × List ℕ) where
  entries := [⟨0x0a779500, 8, (8, [1])⟩, ⟨0x0a779500, 8, (8, [2])⟩]
  orderIdx := [0]
  order_lt := by decide
  order_le := by decide

/-- With an old order in the command line, this one is applied and the new one is printed. -/
theorem oldOrder_not_printed : ¬ ∀ (lib : Libfdt (ℕ × List ℕ)) (o : DtOverlays (ℕ × List ℕ)) (platId : UInt32)
    (nullText : List UInt8) (bootargs : Option (List UInt8)) (base : DtTableEntry (ℕ × List ℕ))
    (loadAddr : ℕ × List ℕ), KeepsGoodPrefix lib o platId nullText bootargs base loadAddr := by
  intro h
  let bootargs := Fastboot.ascii "androidboot.dtbo_idx=1"
  obtain ⟨r, hr, -, hprinted⟩ := h listFdt twoOverlays 0x0a779500 [] (some bootargs) ⟨0x0a779500, 100, (100, [])⟩ (100, [])
  have hrun : (loadOverlays listFdt twoOverlays 0x0a779500 [] (some bootargs) ⟨0x0a779500, 100, (100, [])⟩
      (100, [])).map (fun r => (r.printed, (getOverlayOrder [] r.bootargs 2).take r.appliedOverlays)) =
        some ([0], [1]) := by decide +kernel
  rw [hr] at hrun
  obtain ⟨hleft, hright⟩ := Prod.mk.inj (Option.some.inj hrun)
  rw [hleft] at hprinted
  exact absurd (hprinted.trans hright) (by decide)

end RCar.DeviceTree
