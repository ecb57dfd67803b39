import RCarM3N.Model.Sha256Unrolled
import RCarM3N.Proofs.Sha256Portable

/-! The unrolled transform is the looped one. In round `j` the unrolled code keeps the variables where they
are and renames them: the role that the loop has at index `i` stands at index `i - j`, modulo 8. -/

namespace RCar.Bl2.Portable

open Sha256 (Hash compress)

/-- The names that line `j` of the rounds gives to the variables. -/
def rolesAt (j : ℕ) : Exp :=
  let k := Fin.ofNat 8 j
  ⟨0 - k, 1 - k, 2 - k, 3 - k, 4 - k, 5 - k, 6 - k, 7 - k, j⟩

theorem expLines_eq : expLines = (List.range 64).map rolesAt := by decide

theorem packLines_eq : packLines = (List.range 16).map fun j => (4 * j, j) := by decide

theorem scrLines_eq : scrLines = List.range' 16 48 := by decide

/-- The variables in their roles, before round `j`. -/
def view (k : Fin 8) (wv : Wv) : Hash :=
  ⟨wv (0 - k), wv (1 - k), wv (2 - k), wv (3 - k), wv (4 - k), wv (5 - k), wv (6 - k), wv (7 - k)⟩

/-- One line is one round: two variables change in place, and the roles move on by one. -/
theorem view_sha256Exp (w : ℕ → UInt32) (wv : Wv) (j : ℕ) :
    view (Fin.ofNat 8 (j + 1)) (sha256Exp w wv (rolesAt j)) = round w (view (Fin.ofNat 8 j) wv) j := by
  have hnext : Fin.ofNat 8 (j + 1) = Fin.ofNat 8 j + 1 := by
    apply Fin.ext
    simp [Fin.ofNat, Fin.val_add]
  rw [hnext]
  simp only [view, rolesAt, sha256Exp, round]
  generalize Fin.ofNat 8 j = k
  fin_cases k <;> rfl

/-- The lines up to the `n`-th one are the first `n` rounds. -/
theorem view_foldl (w : ℕ → UInt32) (wv : Wv) (n : ℕ) :
    view (Fin.ofNat 8 n) (((List.range n).map rolesAt).foldl (sha256Exp w) wv) =
      (List.range n).foldl (round w) (view 0 wv) := by
  induction n with
  | zero => rfl
  | succ n ih =>
    rw [List.range_succ, List.map_append, List.foldl_append, List.foldl_append, List.map_singleton,
      List.foldl_cons, List.foldl_nil, List.foldl_cons, List.foldl_nil, view_sha256Exp, ih]

@[simp] theorem view_ofHash (s : Hash) : view 0 (Wv.ofHash s) = s := rfl

theorem toHash_eq (wv : Wv) : wv.toHash = view 0 wv := rfl

theorem scheduleUnrolled_eq (m : Mem) (subBlock : ℕ) : scheduleUnrolled m subBlock = schedule m subBlock := by
  rw [scheduleUnrolled, schedule, packLines_eq, scrLines_eq, List.foldl_map]

theorem transformBlockUnrolled_eq (m : Mem) (h : Hash) (subBlock : ℕ) :
    transformBlockUnrolled m h subBlock = transformBlock m h subBlock := by
  have hview := view_foldl (schedule m subBlock) (Wv.ofHash h) 64
  rw [view_ofHash] at hview
  rw [transformBlockUnrolled, transformBlock, scheduleUnrolled_eq, expLines_eq, toHash_eq]
  exact congrArg h.add hview

/-- The two variants leave the same state, whatever the state before, the blocks and their number; and
the unrolled rounds are those of the standard. -/
theorem unrolled_is_looped :
    (∀ (h : Hash) (m : Mem) (limit message blockNb : ℕ),
      sha256TransformUnrolled h m limit message blockNb = sha256Transform h m limit message blockNb) ∧
    ∀ (h : Hash) (m : Mem) (subBlock : ℕ),
      transformBlockUnrolled m h subBlock = compress h (m.read subBlock 64) := by
  constructor
  · intro h m limit message blockNb
    simp only [sha256TransformUnrolled, sha256Transform, transformBlockUnrolled_eq]
  · intro h m subBlock
    rw [transformBlockUnrolled_eq, transformBlock_eq]

end RCar.Bl2.Portable
