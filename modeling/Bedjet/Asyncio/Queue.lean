import Mathlib.Data.List.Basic

/-!
`asyncio.Queue` with a bound, and a producer that never waits: while the queue
is full it drops the oldest entry and tries again, so the newest entry wins.
-/

namespace Bedjet.Asyncio

@[ext] structure Queue (α : Type*) (capacity : ℕ) where
  entries : List α
  bounded : entries.length ≤ capacity

namespace Queue

variable {α : Type*} {capacity : ℕ}

def empty : Queue α capacity where
  entries := []
  bounded := Nat.zero_le capacity

/-- The loop of the producer: `put_nowait` if there is room, else `get_nowait`
and once more. -/
def putLoop (capacity : ℕ) (x : α) : List α → List α
  | [] => [x]
  | y :: ys => if (y :: ys).length < capacity then y :: ys ++ [x] else putLoop capacity x ys

/-- The newest entry is there, behind the newest of the others. -/
theorem putLoop_eq (capacity : ℕ) (x : α) (xs : List α) :
    ∃ kept, kept <:+ xs ∧ putLoop capacity x xs = kept ++ [x] := by
  induction xs with
  | nil => exact ⟨[], List.suffix_refl [], rfl⟩
  | cons y ys ih =>
      rw [putLoop]
      split
      · exact ⟨y :: ys, List.suffix_refl _, rfl⟩
      · obtain ⟨kept, hkept, heq⟩ := ih
        exact ⟨kept, hkept.trans (List.suffix_cons y ys), heq⟩

theorem length_putLoop (hpositive : 0 < capacity) (x : α) (xs : List α) :
    (putLoop capacity x xs).length ≤ capacity := by
  induction xs with
  | nil =>
      show 1 ≤ capacity
      omega
  | cons y ys ih =>
      rw [putLoop]
      split
      · rename_i hroom
        rw [List.length_append]
        show (y :: ys).length + 1 ≤ capacity
        omega
      · exact ih

def putNewest (hpositive : 0 < capacity) (q : Queue α capacity) (x : α) : Queue α capacity where
  entries := putLoop capacity x q.entries
  bounded := length_putLoop hpositive x q.entries

/-- What is left without the oldest entry. -/
def rest (q : Queue α capacity) : Queue α capacity where
  entries := q.entries.tail
  bounded := by
    rw [List.length_tail]
    exact Nat.le_trans (Nat.sub_le _ _) q.bounded

/-- `get_nowait`, or none if the queue is empty. -/
def get? (q : Queue α capacity) : Option (α × Queue α capacity) :=
  q.entries.head?.map fun x => (x, q.rest)

@[simp] theorem entries_empty : (empty : Queue α capacity).entries = [] := rfl

theorem get?_eq_none {q : Queue α capacity} (h : q.get? = none) : q.entries = [] := by
  simpa [get?] using h

theorem get?_eq_some {q q' : Queue α capacity} {x : α} (h : q.get? = some (x, q')) :
    q.entries = x :: q'.entries := by
  obtain ⟨y, hhead, hpair⟩ := Option.map_eq_some_iff.mp h
  obtain ⟨rfl, rfl⟩ : y = x ∧ q.rest = q' := by simpa using hpair
  exact (List.cons_head?_tail hhead).symm

theorem putNewest_entries (hpositive : 0 < capacity) (q : Queue α capacity) (x : α) :
    ∃ kept, kept <:+ q.entries ∧ (q.putNewest hpositive x).entries = kept ++ [x] :=
  putLoop_eq capacity x q.entries

theorem getLast?_putNewest (hpositive : 0 < capacity) (q : Queue α capacity) (x : α) :
    (q.putNewest hpositive x).entries.getLast? = some x := by
  obtain ⟨kept, -, heq⟩ := q.putNewest_entries hpositive x
  rw [heq]
  exact List.getLast?_concat

end Queue

end Bedjet.Asyncio
