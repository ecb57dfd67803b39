import RCarM3N.Model.Sha256Portable

/-! The block transform of the portable SHA-256 as it is compiled with `UNROLL_LOOPS`: every line of the
source is an entry of a list, in the source's order, and the macros of the lines are run over the lists. -/

namespace RCar.Bl2.Portable

open Sha256 (Hash)

/-- The eight working variables stay where they are; the lines name their roles. -/
abbrev Wv := Fin 8 → UInt32

/-- The arguments of `SHA256_EXP(a, b, c, d, e, f, g, h, j)`. -/
structure Exp where
  a : Fin 8
  b : Fin 8
  c : Fin 8
  d : Fin 8
  e : Fin 8
  f : Fin 8
  g : Fin 8
  h : Fin 8
  j : ℕ
deriving DecidableEq

def sha256Exp (w : ℕ → UInt32) (wv : Wv) (x : Exp) : Wv :=
  let t1 := wv x.h + sha256F2 (wv x.e) + ch (wv x.e) (wv x.f) (wv x.g) + sha256K.getD x.j 0 + w x.j
  let t2 := sha256F1 (wv x.a) + maj (wv x.a) (wv x.b) (wv x.c)
  let wv := Function.update wv x.d (wv x.d + t1)
  Function.update wv x.h (t1 + t2)

/-- The lines `PACK32(&sub_block[..], &w[..])`. -/
def packLines : List (ℕ × ℕ) :=
  [(0, 0), (4, 1), (8, 2), (12, 3), (16, 4), (20, 5), (24, 6), (28, 7), (32, 8), (36, 9), (40, 10), (44, 11),
    (48, 12), (52, 13), (56, 14), (60, 15)]

/-- The lines `SHA256_SCR(..)`. -/
def scrLines : List ℕ :=
  [16, 17, 18, 19, 20, 21, 22, 23, 24, 25, 26, 27, 28, 29, 30, 31, 32, 33, 34, 35, 36, 37, 38, 39,
    40, 41, 42, 43, 44, 45, 46, 47, 48, 49, 50, 51, 52, 53, 54, 55, 56, 57, 58, 59, 60, 61, 62, 63]

/-- The lines `SHA256_EXP(..)`. -/
def expLines : List Exp :=
  [⟨0, 1, 2, 3, 4, 5, 6, 7, 0⟩, ⟨7, 0, 1, 2, 3, 4, 5, 6, 1⟩,
    ⟨6, 7, 0, 1, 2, 3, 4, 5, 2⟩, ⟨5, 6, 7, 0, 1, 2, 3, 4, 3⟩,
    ⟨4, 5, 6, 7, 0, 1, 2, 3, 4⟩, ⟨3, 4, 5, 6, 7, 0, 1, 2, 5⟩,
    ⟨2, 3, 4, 5, 6, 7, 0, 1, 6⟩, ⟨1, 2, 3, 4, 5, 6, 7, 0, 7⟩,
    ⟨0, 1, 2, 3, 4, 5, 6, 7, 8⟩, ⟨7, 0, 1, 2, 3, 4, 5, 6, 9⟩,
    ⟨6, 7, 0, 1, 2, 3, 4, 5, 10⟩, ⟨5, 6, 7, 0, 1, 2, 3, 4, 11⟩,
    ⟨4, 5, 6, 7, 0, 1, 2, 3, 12⟩, ⟨3, 4, 5, 6, 7, 0, 1, 2, 13⟩,
    ⟨2, 3, 4, 5, 6, 7, 0, 1, 14⟩, ⟨1, 2, 3, 4, 5, 6, 7, 0, 15⟩,
    ⟨0, 1, 2, 3, 4, 5, 6, 7, 16⟩, ⟨7, 0, 1, 2, 3, 4, 5, 6, 17⟩,
    ⟨6, 7, 0, 1, 2, 3, 4, 5, 18⟩, ⟨5, 6, 7, 0, 1, 2, 3, 4, 19⟩,
    ⟨4, 5, 6, 7, 0, 1, 2, 3, 20⟩, ⟨3, 4, 5, 6, 7, 0, 1, 2, 21⟩,
    ⟨2, 3, 4, 5, 6, 7, 0, 1, 22⟩, ⟨1, 2, 3, 4, 5, 6, 7, 0, 23⟩,
    ⟨0, 1, 2, 3, 4, 5, 6, 7, 24⟩, ⟨7, 0, 1, 2, 3, 4, 5, 6, 25⟩,
    ⟨6, 7, 0, 1, 2, 3, 4, 5, 26⟩, ⟨5, 6, 7, 0, 1, 2, 3, 4, 27⟩,
    ⟨4, 5, 6, 7, 0, 1, 2, 3, 28⟩, ⟨3, 4, 5, 6, 7, 0, 1, 2, 29⟩,
    ⟨2, 3, 4, 5, 6, 7, 0, 1, 30⟩, ⟨1, 2, 3, 4, 5, 6, 7, 0, 31⟩,
    ⟨0, 1, 2, 3, 4, 5, 6, 7, 32⟩, ⟨7, 0, 1, 2, 3, 4, 5, 6, 33⟩,
    ⟨6, 7, 0, 1, 2, 3, 4, 5, 34⟩, ⟨5, 6, 7, 0, 1, 2, 3, 4, 35⟩,
    ⟨4, 5, 6, 7, 0, 1, 2, 3, 36⟩, ⟨3, 4, 5, 6, 7, 0, 1, 2, 37⟩,
    ⟨2, 3, 4, 5, 6, 7, 0, 1, 38⟩, ⟨1, 2, 3, 4, 5, 6, 7, 0, 39⟩,
    ⟨0, 1, 2, 3, 4, 5, 6, 7, 40⟩, ⟨7, 0, 1, 2, 3, 4, 5, 6, 41⟩,
    ⟨6, 7, 0, 1, 2, 3, 4, 5, 42⟩, ⟨5, 6, 7, 0, 1, 2, 3, 4, 43⟩,
    ⟨4, 5, 6, 7, 0, 1, 2, 3, 44⟩, ⟨3, 4, 5, 6, 7, 0, 1, 2, 45⟩,
    ⟨2, 3, 4, 5, 6, 7, 0, 1, 46⟩, ⟨1, 2, 3, 4, 5, 6, 7, 0, 47⟩,
    ⟨0, 1, 2, 3, 4, 5, 6, 7, 48⟩, ⟨7, 0, 1, 2, 3, 4, 5, 6, 49⟩,
    ⟨6, 7, 0, 1, 2, 3, 4, 5, 50⟩, ⟨5, 6, 7, 0, 1, 2, 3, 4, 51⟩,
    ⟨4, 5, 6, 7, 0, 1, 2, 3, 52⟩, ⟨3, 4, 5, 6, 7, 0, 1, 2, 53⟩,
    ⟨2, 3, 4, 5, 6, 7, 0, 1, 54⟩, ⟨1, 2, 3, 4, 5, 6, 7, 0, 55⟩,
    ⟨0, 1, 2, 3, 4, 5, 6, 7, 56⟩, ⟨7, 0, 1, 2, 3, 4, 5, 6, 57⟩,
    ⟨6, 7, 0, 1, 2, 3, 4, 5, 58⟩, ⟨5, 6, 7, 0, 1, 2, 3, 4, 59⟩,
    ⟨4, 5, 6, 7, 0, 1, 2, 3, 60⟩, ⟨3, 4, 5, 6, 7, 0, 1, 2, 61⟩,
    ⟨2, 3, 4, 5, 6, 7, 0, 1, 62⟩, ⟨1, 2, 3, 4, 5, 6, 7, 0, 63⟩]

def scheduleUnrolled (m : Mem) (subBlock : ℕ) : ℕ → UInt32 :=
  let w := packLines.foldl (fun w line => Function.update w line.2 (pack32 m (subBlock + line.1))) fun _ => 0
  scrLines.foldl sha256Scr w

/-- The array `wv` as it is filled from the chaining value, and as it is added to it. -/
def Wv.ofHash (s : Hash) : Wv := ![s.a, s.b, s.c, s.d, s.e, s.f, s.g, s.h]

def Wv.toHash (wv : Wv) : Hash := ⟨wv 0, wv 1, wv 2, wv 3, wv 4, wv 5, wv 6, wv 7⟩

def transformBlockUnrolled (m : Mem) (h : Hash) (subBlock : ℕ) : Hash :=
  h.add (Wv.toHash (expLines.foldl (sha256Exp (scheduleUnrolled m subBlock)) (Wv.ofHash h)))

/-- The loop over the blocks is the one of the other variant. -/
def sha256TransformUnrolled (h : Hash) (m : Mem) (limit message blockNb : ℕ) : Option Hash :=
  (List.range (if blockNb < 2 ^ 31 then blockNb else 0)).foldlM (fun h i =>
    let subBlock := message + 64 * i
    if subBlock + 64 ≤ limit then some (transformBlockUnrolled m h subBlock) else none) h

end RCar.Bl2.Portable
