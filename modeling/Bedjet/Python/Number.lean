import Bedjet.Rounding.Grid
import Mathlib.Data.Rat.Floor
import Mathlib.Tactic.Linarith

/-!
Python numbers, as far as the program converts and compares them. A finite
`float` is taken at its exact value; what is kept of the binary format is the
range, since an operation that leaves it yields an infinity, and the three ways
in which `round` can answer.
-/

namespace Bedjet.Python

/-- `round(x)` of an exact value: the nearest integer, a tie going to the even
neighbour. -/
def roundHalfEven (q : ℚ) : ℤ :=
  if q - ⌊q⌋ < 1 / 2 then ⌊q⌋
  else if 1 / 2 < q - ⌊q⌋ then ⌊q⌋ + 1
  else if ⌊q⌋ % 2 = 0 then ⌊q⌋ else ⌊q⌋ + 1

theorem nearest_roundHalfEven : Rounding.Nearest roundHalfEven := by
  refine ⟨fun q => ?_⟩
  have hlow := Int.floor_le q
  have hhigh := Int.lt_floor_add_one q
  rw [roundHalfEven, abs_le]
  split_ifs <;> push_cast <;> constructor <;> linarith

@[simp] theorem roundHalfEven_intCast (n : ℤ) : roundHalfEven (n : ℚ) = n :=
  nearest_roundHalfEven.intCast n

/-- A Python `float`. -/
inductive Double
  | nan
  | inf (negative : Bool)
  | finite (value : ℚ)
  deriving DecidableEq

/-- What `round` raises on the values that have no nearest integer. -/
inductive ConversionError
  /-- `OverflowError: cannot convert float infinity to integer` -/
  | overflow
  /-- `ValueError: cannot convert float NaN to integer`, and the `ValueError`
  that refuses to write out an integer of more than 4300 digits -/
  | value
  deriving DecidableEq

namespace Double

/-- Neither NaN nor an infinity. -/
def isFinite : Double → Bool
  | .finite _ => true
  | .nan | .inf _ => false

/-- The least magnitude that rounds to an infinity: half a unit above the
largest finite double. -/
def overflowBound : ℚ := (2 ^ 1024 - 2 ^ 970 : ℕ)

/-- The result of a floating-point operation whose exact value is `q`. -/
def ofRat (q : ℚ) : Double :=
  if q ≤ -overflowBound then .inf true
  else if overflowBound ≤ q then .inf false
  else .finite q

/-- An operation of one `float` with finite constants that is increasing and
unbounded in it, as subtracting, and multiplying or dividing by a positive
constant are: the special values pass through. -/
def lift (f : ℚ → ℚ) : Double → Double
  | .nan => .nan
  | .inf negative => .inf negative
  | .finite q => ofRat (f q)

/-- `round(x)`. -/
def round : Double → Except ConversionError ℤ
  | .nan => .error .value
  | .inf _ => .error .overflow
  | .finite q => .ok (roundHalfEven q)

theorem ofRat_of_lt {q : ℚ} (hlo : -overflowBound < q) (hhi : q < overflowBound) :
    ofRat q = .finite q := by
  simp [ofRat, not_le.mpr hlo, not_le.mpr hhi]

theorem isFinite_ofRat {q : ℚ} :
    (ofRat q).isFinite ↔ -overflowBound < q ∧ q < overflowBound := by
  rw [ofRat]
  split_ifs with hlow hhigh
  · simp [isFinite, not_lt.mpr hlow]
  · simp [isFinite, not_lt.mpr hhigh]
  · simp [isFinite, not_le.mp hlow, not_le.mp hhigh]

theorem round_error_iff {x : Double} : (∃ e, x.round = .error e) ↔ x.isFinite = false := by
  cases x <;> simp [round, isFinite]

end Double

end Bedjet.Python
