import Mathlib

/-! FIFO queues whose items leave them with a report: the log of what was accepted and what was reported, and what holds
between it and the queues. Every item is reported once for each time it was accepted, when it leaves its queue, and the
items of one queue that are reported with the status `good` are reported in the order in which they were accepted. -/

namespace RCar

/-- An item is accepted into a queue, or reported with a status when it leaves it. -/
inductive QueueEvent (κ α σ : Type) where
  | accepted (k : κ) (a : α)
  | completed (k : κ) (a : α) (status : σ)

namespace QueueEvent

variable {κ α σ : Type} {good status : σ} {log : List (QueueEvent κ α σ)} {k k' : κ} {a : α}

def acceptedItems (log : List (QueueEvent κ α σ)) : List α :=
  log.filterMap fun
    | .accepted _ a => some a
    | .completed _ _ _ => none

def completedItems (log : List (QueueEvent κ α σ)) : List α :=
  log.filterMap fun
    | .accepted _ _ => none
    | .completed _ a _ => some a

@[simp] theorem acceptedItems_accepted : acceptedItems (log ++ [.accepted k a]) = acceptedItems log ++ [a] := by
  simp [acceptedItems]

@[simp] theorem acceptedItems_completed : acceptedItems (log ++ [.completed k a status]) = acceptedItems log := by
  simp [acceptedItems]

@[simp] theorem completedItems_accepted : completedItems (log ++ [.accepted k a]) = completedItems log := by
  simp [completedItems]

@[simp] theorem completedItems_completed :
    completedItems (log ++ [.completed k a status]) = completedItems log ++ [a] := by
  simp [completedItems]

variable [DecidableEq κ]

/-- What a queue accepted, in order. -/
def acceptedAt (log : List (QueueEvent κ α σ)) (k : κ) : List α :=
  log.filterMap fun
    | .accepted k' a => if k' = k then some a else none
    | .completed _ _ _ => none

@[simp] theorem acceptedAt_accepted :
    acceptedAt (log ++ [.accepted k a]) k' = acceptedAt log k' ++ if k = k' then [a] else [] := by
  by_cases h : k = k' <;> simp [acceptedAt, h]

@[simp] theorem acceptedAt_completed : acceptedAt (log ++ [.completed k a status]) k' = acceptedAt log k' := by
  simp [acceptedAt]

variable [DecidableEq σ]

/-- What left a queue with the status `good`, in order. -/
def finishedAt (good : σ) (log : List (QueueEvent κ α σ)) (k : κ) : List α :=
  log.filterMap fun
    | .accepted _ _ => none
    | .completed k' a status => if k' = k ∧ status = good then some a else none

@[simp] theorem finishedAt_accepted : finishedAt good (log ++ [.accepted k a]) k' = finishedAt good log k' := by
  simp [finishedAt]

@[simp] theorem finishedAt_completed : finishedAt good (log ++ [.completed k a status]) k' =
    finishedAt good log k' ++ if k = k' ∧ status = good then [a] else [] := by
  by_cases h : k = k' ∧ status = good <;> simp [finishedAt, h]

variable [DecidableEq α]

/-- The queues agree with the log. -/
structure Books (good : σ) (q : κ → List α) (log : List (QueueEvent κ α σ)) : Prop where
  nodup : ∀ k, (q k).Nodup
  apart : ∀ k k' a, a ∈ q k → a ∈ q k' → k = k'
  queued : ∀ k, ∀ a ∈ q k, (acceptedItems log).count a = (completedItems log).count a + 1
  gone : ∀ a, (∀ k, a ∉ q k) → (acceptedItems log).count a = (completedItems log).count a
  ordered : ∀ k, List.Sublist (finishedAt good log k ++ q k) (acceptedAt log k)

namespace Books

variable {q : κ → List α}

theorem nil (good : σ) : Books good (fun _ : κ => ([] : List α)) [] := by
  refine ⟨fun _ => .nil, fun _ _ _ h => ?_, fun _ _ h => ?_, fun _ _ => rfl, fun _ => .slnil⟩
  · cases h
  · cases h

/-- An item has been reported as often as it was accepted, or once less. -/
theorem completed_le (h : Books good q log) (a : α) : (completedItems log).count a ≤ (acceptedItems log).count a := by
  by_cases hq : ∃ k, a ∈ q k
  · obtain ⟨k, hk⟩ := hq
    rw [h.queued k a hk]
    exact Nat.le_succ _
  · rw [h.gone a fun k hk => hq ⟨k, hk⟩]

/-- The items of a queue that finished did so in the order in which they were accepted. -/
theorem finished_sublist (h : Books good q log) (k : κ) : List.Sublist (finishedAt good log k) (acceptedAt log k) :=
  (List.sublist_append_left _ _).trans (h.ordered k)

theorem accept (h : Books good q log) (hnew : ∀ k, a ∉ q k) (k : κ) :
    Books good (Function.update q k (q k ++ [a])) (log ++ [.accepted k a]) := by
  have hmem : ∀ j b, b ∈ Function.update q k (q k ++ [a]) j ↔ b ∈ q j ∨ j = k ∧ b = a := by
    intro j b
    by_cases hj : j = k
    · subst hj
      simp
    · simp [hj]
  refine ⟨fun j => ?_, fun j j' b hb hb' => ?_, fun j b hb => ?_, fun b hb => ?_, fun j => ?_⟩
  · by_cases hj : j = k
    · subst hj
      rw [Function.update_self]
      exact List.nodup_append.mpr ⟨h.nodup _, List.nodup_singleton a, by
        rintro b hb c hc rfl
        rw [List.mem_singleton.mp hc] at hb
        exact hnew _ hb⟩
    · rw [Function.update_of_ne hj]
      exact h.nodup j
  · rcases (hmem j b).mp hb with hq | ⟨rfl, rfl⟩
    · rcases (hmem j' b).mp hb' with hq' | ⟨rfl, rfl⟩
      · exact h.apart j j' b hq hq'
      · exact absurd hq (hnew j)
    · rcases (hmem j' b).mp hb' with hq' | ⟨rfl, -⟩
      · exact absurd hq' (hnew j')
      · rfl
  · rw [acceptedItems_accepted, completedItems_accepted, List.count_append]
    rcases (hmem j b).mp hb with hq | ⟨-, rfl⟩
    · have hne : b ≠ a := by
        rintro rfl
        exact hnew j hq
      rw [List.count_singleton, if_neg (by simpa using hne.symm), Nat.add_zero, h.queued j b hq]
    · rw [List.count_singleton_self, h.gone b hnew]
  · rw [acceptedItems_accepted, completedItems_accepted, List.count_append]
    have hne : b ≠ a := by
      rintro rfl
      exact hb k ((hmem k b).mpr (.inr ⟨rfl, rfl⟩))
    rw [List.count_singleton, if_neg (by simpa using hne.symm), Nat.add_zero]
    exact h.gone b fun j hj => hb j ((hmem j b).mpr (.inl hj))
  · rw [finishedAt_accepted, acceptedAt_accepted]
    by_cases hj : j = k
    · subst hj
      rw [Function.update_self, if_pos rfl, ← List.append_assoc]
      exact (h.ordered j).append (List.Sublist.refl _)
    · rw [Function.update_of_ne hj, if_neg (Ne.symm hj), List.append_nil]
      exact h.ordered j

theorem complete (h : Books good q log) (status : σ) (hmem : a ∈ q k) (hhead : status = good → (q k).head? = some a) :
    Books good (Function.update q k ((q k).erase a)) (log ++ [.completed k a status]) := by
  have hmem' : ∀ j b, b ∈ Function.update q k ((q k).erase a) j ↔ b ∈ q j ∧ b ≠ a := by
    intro j b
    by_cases hj : j = k
    · subst hj
      rw [Function.update_self, (h.nodup j).mem_erase_iff, and_comm]
    · rw [Function.update_of_ne hj]
      refine ⟨fun hb => ⟨hb, ?_⟩, And.left⟩
      rintro rfl
      exact hj (h.apart j k b hb hmem)
  refine ⟨fun j => ?_, fun j j' b hb hb' => ?_, fun j b hb => ?_, fun b hb => ?_, fun j => ?_⟩
  · by_cases hj : j = k
    · subst hj
      rw [Function.update_self]
      exact (h.nodup j).erase a
    · rw [Function.update_of_ne hj]
      exact h.nodup j
  · exact h.apart j j' b ((hmem' j b).mp hb).1 ((hmem' j' b).mp hb').1
  · obtain ⟨hq, hne⟩ := (hmem' j b).mp hb
    rw [acceptedItems_completed, completedItems_completed, List.count_append, List.count_singleton,
      if_neg (by simpa using hne.symm), Nat.add_zero, h.queued j b hq]
  · rw [acceptedItems_completed, completedItems_completed, List.count_append, List.count_singleton]
    by_cases hb' : b = a
    · subst hb'
      rw [if_pos (by simp), h.queued k b hmem]
    · rw [if_neg (by simpa using Ne.symm hb'), Nat.add_zero]
      exact h.gone b fun j hj => hb j ((hmem' j b).mpr ⟨hj, hb'⟩)
  · rw [acceptedAt_completed, finishedAt_completed]
    by_cases hj : j = k
    · subst hj
      rw [Function.update_self]
      by_cases hgood : status = good
      · obtain ⟨l, hl⟩ : ∃ l, q j = a :: l := by
          have hfirst := hhead hgood
          cases hq : q j with
          | nil => simp [hq] at hfirst
          | cons b l =>
            rw [hq, List.head?_cons, Option.some.injEq] at hfirst
            exact ⟨l, by rw [hfirst]⟩
        have hord := h.ordered j
        rw [hl] at hord ⊢
        rwa [if_pos ⟨rfl, hgood⟩, List.erase_cons_head, List.append_assoc]
      · rw [if_neg fun h => hgood h.2, List.append_nil]
        exact ((List.Sublist.refl _).append List.erase_sublist).trans (h.ordered j)
    · rw [Function.update_of_ne hj, if_neg fun h => hj h.1.symm, List.append_nil]
      exact h.ordered j

end Books

end QueueEvent

end RCar
