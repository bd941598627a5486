import Mathlib.Algebra.Order.Field.Basic
import Mathlib.Algebra.Order.Floor.Ring
import Mathlib.Data.Int.ConditionallyCompleteOrder
import Mathlib.Tactic.Linarith
import Mathlib.Tactic.FieldSimp
import Mathlib.Tactic.GCongr
import Mathlib.Tactic.Ring

/-!
Rounding to a nearest integer, and snapping to the points of a grid by it. How
ties are broken does not matter for any of this.
-/

namespace Bedjet.Rounding

variable {K : Type*} [Field K] [LinearOrder K] [IsStrictOrderedRing K]

/-- The function picks a nearest integer. -/
structure Nearest (round : K → ℤ) : Prop where
  near : ∀ q, |(round q : K) - q| ≤ 1 / 2

namespace Nearest

variable {round : K → ℤ} {q q' : K} {n : ℤ}

theorem le_add (h : Nearest round) (q : K) : (round q : K) ≤ q + 1 / 2 := by
  have hright := (abs_le.mp (h.near q)).2
  linarith

theorem sub_le (h : Nearest round) (q : K) : q - 1 / 2 ≤ round q := by
  have hleft := (abs_le.mp (h.near q)).1
  linarith

theorem le_round (h : Nearest round) (hq : (n : K) ≤ q) : n ≤ round q := by
  have hround := h.sub_le q
  have hlt : (n : K) < round q + 1 := by linarith
  exact Int.lt_add_one_iff.mp (by exact_mod_cast hlt)

theorem round_le (h : Nearest round) (hq : q ≤ n) : round q ≤ n := by
  have hround := h.le_add q
  have hlt : (round q : K) < n + 1 := by linarith
  exact Int.lt_add_one_iff.mp (by exact_mod_cast hlt)

theorem intCast (h : Nearest round) (n : ℤ) : round (n : K) = n :=
  le_antisymm (h.round_le le_rfl) (h.le_round le_rfl)

/-- Values a whole unit apart cannot be rounded past each other, and values that
are closer than that have at most one midpoint between them. -/
theorem monotone (h : Nearest round) : Monotone round := by
  intro q q' hle
  by_contra hlt
  have hstep : round q' + 1 ≤ round q := not_le.mp hlt
  have hstep' : (round q' : K) + 1 ≤ round q := by exact_mod_cast hstep
  have hupper := h.le_add q
  have hlower := h.sub_le q'
  have heq : q = q' := le_antisymm hle (by linarith)
  rw [heq] at hlt
  exact hlt le_rfl

end Nearest

/-! ### Grids -/

/-- Points at equal distances. -/
structure Grid (K : Type*) [Field K] [LinearOrder K] where
  base : K
  step : K
  pos : 0 < step

namespace Grid

variable (g : Grid K) {round : K → ℤ} {q q' : K} {n m : ℤ}

def point (n : ℤ) : K :=
  g.base + g.step * n

/-- The index of the point that a value is snapped to. -/
def index (round : K → ℤ) (q : K) : ℤ :=
  round ((q - g.base) / g.step)

def snap (round : K → ℤ) (q : K) : K :=
  g.point (g.index round q)

theorem point_le_point : g.point n ≤ g.point m ↔ n ≤ m := by
  rw [point, point, add_le_add_iff_left, mul_le_mul_iff_of_pos_left g.pos, Int.cast_le]

theorem le_div_iff : (n : K) ≤ (q - g.base) / g.step ↔ g.point n ≤ q := by
  rw [le_div_iff₀ g.pos, point, mul_comm, le_sub_iff_add_le, add_comm]

theorem div_le_iff : (q - g.base) / g.step ≤ n ↔ q ≤ g.point n := by
  rw [div_le_iff₀ g.pos, point, mul_comm, sub_le_iff_le_add, add_comm]

theorem point_div (n : ℤ) : (g.point n - g.base) / g.step = n :=
  le_antisymm (g.div_le_iff.mpr le_rfl) (g.le_div_iff.mpr le_rfl)

theorem index_point (h : Nearest round) (n : ℤ) : g.index round (g.point n) = n := by
  rw [index, point_div, h.intCast]

theorem index_mono (h : Nearest round) : Monotone (g.index round) := by
  intro q q' hle
  apply h.monotone
  gcongr
  exact g.pos.le

/-- A value is moved by half a step at most. -/
theorem abs_snap_sub_le (h : Nearest round) (q : K) : |g.snap round q - q| ≤ g.step / 2 := by
  have hpos := g.pos
  have hdiff : g.snap round q - q =
      g.step * (round ((q - g.base) / g.step) - (q - g.base) / g.step) := by
    rw [snap, point, index]
    field_simp
    ring
  calc |g.snap round q - q|
      = g.step * |round ((q - g.base) / g.step) - (q - g.base) / g.step| := by
        rw [hdiff, abs_mul, abs_of_pos hpos]
    _ ≤ g.step * (1 / 2) := by
        gcongr
        exact h.near _
    _ = g.step / 2 := by ring

/-- A value is not moved past a point of the grid. -/
theorem le_index (h : Nearest round) (hq : g.point n ≤ q) : n ≤ g.index round q :=
  h.le_round (g.le_div_iff.mpr hq)

theorem index_le (h : Nearest round) (hq : q ≤ g.point n) : g.index round q ≤ n :=
  h.round_le (g.div_le_iff.mpr hq)

theorem point_le_snap (h : Nearest round) (hq : g.point n ≤ q) : g.point n ≤ g.snap round q :=
  g.point_le_point.mpr (g.le_index h hq)

theorem snap_le_point (h : Nearest round) (hq : q ≤ g.point n) : g.snap round q ≤ g.point n :=
  g.point_le_point.mpr (g.index_le h hq)

end Grid

end Bedjet.Rounding
