import Mathlib.Algebra.BigOperators.Group.List.Basic
import Mathlib.Tactic.Abel

/-!
Additive checksums. The symbols of a word have weights in a commutative group,
and a word is balanced when its weights cancel. What a checksum of this kind
sees of a word is its weight, so the errors it misses are those that leave the
weight alone.
-/

namespace Bedjet.Codes

variable {α G : Type*} [AddCommGroup G] (w : α → G)

/-- The sum of the weights of the symbols. -/
def weight (xs : List α) : G :=
  (xs.map w).sum

/-- The weights of the word cancel. -/
def Balanced (xs : List α) : Prop :=
  weight w xs = 0

@[simp] theorem weight_nil : weight w [] = 0 := rfl

@[simp] theorem weight_cons (x : α) (xs : List α) : weight w (x :: xs) = w x + weight w xs := by
  simp [weight]

@[simp] theorem weight_append (xs ys : List α) :
    weight w (xs ++ ys) = weight w xs + weight w ys := by
  simp [weight]

theorem weight_take_add_weight_drop (xs : List α) (k : ℕ) :
    weight w (xs.take k) + weight w (xs.drop k) = weight w xs := by
  rw [← weight_append, List.take_append_drop]

variable {w}

/-- A symbol replaced changes the weight by the difference. -/
theorem weight_set {xs : List α} {i : ℕ} {x : α} (hx : xs[i]? = some x) (y : α) :
    weight w (xs.set i y) = weight w xs + (w y - w x) := by
  induction xs generalizing i with
  | nil => simp at hx
  | cons z xs ih =>
      cases i with
      | zero =>
          obtain rfl : z = x := by simpa using hx
          simp only [List.set_cons_zero, weight_cons]
          abel
      | succ i =>
          have hrest : xs[i]? = some x := by simpa using hx
          simp only [List.set_cons_succ, weight_cons, ih hrest]
          abel

/-- One symbol replaced by another is always seen. -/
theorem Balanced.not_set (hw : Function.Injective w) {xs : List α} (h : Balanced w xs) {i : ℕ}
    {x y : α} (hx : xs[i]? = some x) (hne : y ≠ x) : ¬Balanced w (xs.set i y) := by
  intro hset
  rw [Balanced, weight_set hx, h, zero_add, sub_eq_zero] at hset
  exact hne (hw hset)

/-- The one symbol that balances a word. -/
theorem balanced_append_singleton {xs : List α} {x : α} :
    Balanced w (xs ++ [x]) ↔ w x = -weight w xs := by
  rw [Balanced, weight_append, weight_cons, weight_nil, add_zero, add_eq_zero_iff_neg_eq, eq_comm]

/-- The head of one balanced word and the rest of another: what is seen is
whether the heads weigh the same. -/
theorem Balanced.splice_iff {xs ys : List α} (hys : Balanced w ys) (k : ℕ) :
    Balanced w (xs.take k ++ ys.drop k) ↔ weight w (xs.take k) = weight w (ys.take k) := by
  have hrest : weight w (ys.drop k) = -weight w (ys.take k) := by
    apply eq_neg_of_add_eq_zero_right
    rw [weight_take_add_weight_drop]
    exact hys
  rw [Balanced, weight_append, hrest, ← sub_eq_add_neg, sub_eq_zero]

end Bedjet.Codes
