import Bedjet.Python.Text
import Mathlib.Data.Int.Log

/-!
What Python makes of bytes and text that come from outside:
`bytes.decode("utf-8", errors="replace")`, `float(text)` and `int(x)`.
-/

namespace Bedjet.Python

/-! ### `bytes.decode` -/

/-- What may follow the first byte of a character: how many bytes, the range of
the first of them, and the bits the byte itself contributes. -/
structure Utf8Lead where
  count : ℕ
  low : ℕ := 0x80
  high : ℕ := 0xBF
  bits : ℕ

def utf8Lead (b : ℕ) : Option Utf8Lead :=
  if b < 0x80 then some { count := 0, bits := b }
  else if 0xC2 ≤ b && b ≤ 0xDF then some { count := 1, bits := b - 0xC0 }
  else if b = 0xE0 then some { count := 2, low := 0xA0, bits := 0 }
  else if b = 0xED then some { count := 2, high := 0x9F, bits := 0xD }
  else if 0xE1 ≤ b && b ≤ 0xEF then some { count := 2, bits := b - 0xE0 }
  else if b = 0xF0 then some { count := 3, low := 0x90, bits := 0 }
  else if b = 0xF4 then some { count := 3, high := 0x8F, bits := 4 }
  else if 0xF1 ≤ b && b ≤ 0xF3 then some { count := 3, bits := b - 0xF0 }
  else none

/-- The bytes that continue a character: its code point if none is missing, and
what follows those that are there. -/
def utf8Rest (low high bits : ℕ) : ℕ → Bytes → Option ℕ × Bytes
  | 0, bytes => (some bits, bytes)
  | _ + 1, [] => (none, [])
  | n + 1, b :: bytes =>
      if low ≤ b.toNat && b.toNat ≤ high then
        utf8Rest 0x80 0xBF (bits * 64 + b.toNat % 64) n bytes
      else (none, b :: bytes)

/-- Each maximal part of a character that is not one is replaced by U+FFFD. The
first argument bounds the length. -/
def decodeFrom : ℕ → Bytes → List Char
  | 0, _ | _, [] => []
  | n + 1, b :: bytes =>
      match utf8Lead b.toNat with
      | none => '\uFFFD' :: decodeFrom n bytes
      | some lead =>
          let (value, bytes) := utf8Rest lead.low lead.high lead.bits lead.count bytes
          (value.elim '\uFFFD' Char.ofNat) :: decodeFrom n bytes

/-- `data.decode("utf-8", errors="replace")` -/
def decodeUtf8 (data : Bytes) : String :=
  String.ofList (decodeFrom data.length data)

/-! ### `float` and `int` -/

namespace Double

/-- The double nearest to an exact value, a tie going to the even significand. -/
def nearest (q : ℚ) : Double :=
  let exponent := max (-1074) (Int.log 2 |q| - 52)
  if -overflowBound < q && q < overflowBound then
    .finite (roundHalfEven (q / 2 ^ exponent) * 2 ^ exponent)
  else .inf (q < 0)

/-- An operation like those of `lift`, whose result has to be rounded. -/
def rounded (f : ℚ → ℚ) : Double → Double
  | .nan => .nan
  | .inf negative => .inf negative
  | .finite q => nearest (f q)

/-- `int(x)`, which truncates -/
def toInt : Double → Except ConversionError ℤ
  | .nan => .error .value
  | .inf _ => .error .overflow
  | .finite q => .ok (if q < 0 then ⌈q⌉ else ⌊q⌋)

theorem toInt_error_iff {x : Double} : (∃ e, x.toInt = .error e) ↔ x.isFinite = false := by
  cases x <;> simp [toInt, isFinite]

/-- `x <= 0` -/
def isNonPositive : Double → Bool
  | .nan => false
  | .inf negative => negative
  | .finite q => q ≤ 0

end Double

/-- The white space and the decimal digits of other scripts, in ASCII; the
parser refuses what is then left of them. `decimal` is the Unicode database's
value of a digit. -/
def asciiNumber (decimal : Char → Option ℕ) (text : List Char) : List Char :=
  if text.all (·.toNat < 128) then text
  else text.map fun c =>
    if c.toNat < 127 then c
    else if isSpace c then ' '
    else (decimal c).elim '?' Nat.digitChar

/-- An underscore may stand between two digits. `none` is a `ValueError`. -/
def dropUnderscores (previous : Char) : List Char → Option (List Char)
  | [] => if previous = '_' then none else some []
  | c :: rest =>
      if c = '_' then
        if previous.isDigit then dropUnderscores c rest else none
      else if previous = '_' && !c.isDigit then none
      else (dropUnderscores c rest).map (c :: ·)

def digitsValue (digits : List Char) : ℕ :=
  digits.foldl (fun n c => n * 10 + (c.toNat - 48)) 0

/-- A sign, and what follows it. -/
def splitSign : List Char → Bool × List Char
  | '-' :: rest => (true, rest)
  | '+' :: rest => (false, rest)
  | text => (false, text)

/-- The exponent of a numeral: nothing, or an `e` with an integer. -/
def parseExponent : List Char → Option ℤ
  | [] => some 0
  | c :: rest =>
      let (negative, digits) := splitSign rest
      if (c = 'e' || c = 'E') && digits ≠ [] && digits.all Char.isDigit then
        some (if negative then -digitsValue digits else digitsValue digits)
      else none

/-- The value of a numeral without a sign. -/
def parseNumeral (text : List Char) : Option ℚ :=
  let whole := text.takeWhile Char.isDigit
  let (fraction, rest) :=
    match text.dropWhile Char.isDigit with
    | '.' :: rest => (rest.takeWhile Char.isDigit, rest.dropWhile Char.isDigit)
    | rest => ([], rest)
  if whole ++ fraction = [] then none
  else (parseExponent rest).map fun exponent =>
    digitsValue (whole ++ fraction) * (10 : ℚ) ^ (exponent - (fraction.length : ℤ))

/-- `float(text)`; `none` is a `ValueError` -/
def parseFloat (decimal : Char → Option ℕ) (text : String) : Option Double := do
  let isBlank (c : Char) : Bool := c = ' ' || 9 ≤ c.toNat && c.toNat ≤ 13
  let ascii := asciiNumber decimal text.toList
  let trimmed := ((ascii.dropWhile isBlank).reverse.dropWhile isBlank).reverse
  let (negative, number) := splitSign (← dropUnderscores ' ' trimmed)
  let name := String.ofList (number.map Char.toLower)
  if name = "inf" || name = "infinity" then some (.inf negative)
  else if name = "nan" then some .nan
  else
    let value ← parseNumeral number
    some (.nearest (if negative then -value else value))

/-- The value that a text gives to `float`, before it is rounded. -/
def exactValue (decimal : Char → Option ℕ) (text : String) : Option ℚ := do
  let isBlank (c : Char) : Bool := c = ' ' || 9 ≤ c.toNat && c.toNat ≤ 13
  let ascii := asciiNumber decimal text.toList
  let trimmed := ((ascii.dropWhile isBlank).reverse.dropWhile isBlank).reverse
  let (negative, number) := splitSign (← dropUnderscores ' ' trimmed)
  let name := String.ofList (number.map Char.toLower)
  if name = "inf" || name = "infinity" || name = "nan" then none
  else
    let value ← parseNumeral number
    some (if negative then -value else value)

theorem parseFloat_of_exactValue {decimal : Char → Option ℕ} {text : String} {q : ℚ}
    (h : exactValue decimal text = some q) : parseFloat decimal text = some (.nearest q) := by
  simp only [exactValue, parseFloat, Option.bind_eq_bind, Option.bind_eq_some_iff] at h ⊢
  obtain ⟨characters, hcharacters, h⟩ := h
  refine ⟨characters, hcharacters, ?_⟩
  split at h
  · simp at h
  · rename_i hname
    simp only [Bool.or_eq_true, decide_eq_true_eq, not_or] at hname
    obtain ⟨⟨hinf, hinfinity⟩, hnan⟩ := hname
    obtain ⟨value, hvalue, hq⟩ := Option.bind_eq_some_iff.mp h
    obtain rfl := Option.some.inj hq
    simp [hinf, hinfinity, hnan, hvalue]

end Bedjet.Python
