import Bedjet.Python.Text
import Mathlib.Data.List.TakeWhile

/-!
Python's `str` where any code point may stand in it: a header is decoded with a
lone surrogate for every byte that is no text, which no Lean `String` contains.
-/

namespace Bedjet.Python

abbrev CodePoint := Fin 0x110000

abbrev Str := List CodePoint

namespace Str

def point (c : Char) : CodePoint :=
  ⟨c.toNat, by
    rcases c.valid with h | h
    · exact h.trans (by decide)
    · exact h.2⟩

/-- A literal. -/
def of (text : String) : Str :=
  text.toList.map point

/-- The text, where no lone surrogate stands in it. -/
def text? (text : Str) : Option String :=
  (text.mapM fun (c : CodePoint) =>
    if c.val.isValidChar then some (Char.ofNat c.val) else none).map String.ofList

/-- `str.isspace` of one code point: no surrogate is a space -/
def isSpacePoint (c : CodePoint) : Bool :=
  isSpace (Char.ofNat c)

def lstrip (text : Str) : Str :=
  text.dropWhile isSpacePoint

def strip (text : Str) : Str :=
  (lstrip (lstrip text).reverse).reverse

/-- The second half of it. -/
def rstrip (text : Str) : Str :=
  (lstrip text.reverse).reverse

theorem isSpacePoint_of_visible {c : CodePoint} (h : 33 ≤ c.val ∧ c.val ≤ 126) :
    isSpacePoint c = false := by
  have hvalid : Nat.isValidChar c.val := .inl (by omega)
  have hchar : Char.ofNat c.val = Char.ofNatAux c.val hvalid := dif_pos hvalid
  have hval : (Char.ofNat c.val).toNat = c.val := by
    rw [hchar]
    rfl
  simp only [isSpacePoint, isSpace, hval, Bool.or_eq_false_iff, Bool.and_eq_false_iff,
    decide_eq_false_iff_not]
  omega

theorem prefix_rstrip (text : Str) : rstrip text <+: text := by
  have hsuffix : lstrip text.reverse <:+ text.reverse := List.dropWhile_suffix _
  simpa [rstrip] using List.reverse_prefix.mpr hsuffix

theorem rstrip_eq_nil_iff {text : Str} : rstrip text = [] ↔ ∀ c ∈ text, isSpacePoint c := by
  simp [rstrip, lstrip, List.dropWhile_eq_nil_iff]

/-- What a code point that is no space has before it stays. -/
theorem rstrip_append_cons {c : CodePoint} (hc : isSpacePoint c = false) (text rest : Str) :
    rstrip (text ++ c :: rest) = text ++ c :: rstrip rest := by
  have hreverse : (text ++ c :: rest).reverse = rest.reverse ++ c :: text.reverse := by simp
  rw [rstrip, hreverse, lstrip, List.dropWhile_append]
  split
  · rename_i hspaces
    have hrest : rstrip rest = [] := by
      simpa [rstrip, lstrip] using List.isEmpty_iff.mp hspaces
    simp [hc, hrest]
  · simp [rstrip, lstrip]

/-- Stripped of its padding, a text begins with what is no space. -/
theorem strip_append_cons {pad text rest : Str} {c : CodePoint}
    (hpad : ∀ d ∈ pad, isSpacePoint d) (htext : ∀ d ∈ text.head?, isSpacePoint d = false)
    (hc : isSpacePoint c = false) :
    strip (pad ++ (text ++ c :: rest)) = text ++ c :: rstrip rest := by
  have hleft : lstrip (pad ++ (text ++ c :: rest)) = text ++ c :: rest := by
    rw [lstrip, List.dropWhile_append_of_pos hpad]
    cases text with
    | nil => simp [hc]
    | cons d text => simp [htext d rfl]
  change rstrip (lstrip _) = _
  rw [hleft, rstrip_append_cons hc]

theorem strip_unpadded {text : Str} {c : CodePoint}
    (htext : ∀ d ∈ text.head?, isSpacePoint d = false) (hc : isSpacePoint c = false) (rest : Str) :
    strip (text ++ c :: rest) = text ++ c :: rstrip rest := by
  have hnone : ∀ d ∈ ([] : Str), isSpacePoint d := by simp
  simpa using strip_append_cons hnone htext hc

def isAscii (text : Str) : Bool :=
  text.all (·.val < 128)

/-- `'0' <= c <= '9'` -/
def isAsciiDigit (c : CodePoint) : Bool :=
  48 ≤ c.val && c.val ≤ 57

/-- The value of a hexadecimal digit. -/
def hexValue (c : CodePoint) : Option ℕ :=
  if isAsciiDigit c then some (c.val - 48)
  else if 65 ≤ c.val && c.val ≤ 70 then some (c.val - 55)
  else if 97 ≤ c.val && c.val ≤ 102 then some (c.val - 87)
  else none

/-- `text.lower()` of a text that is ASCII, as the name of a header is -/
def lowerAscii (text : Str) : Str :=
  text.map fun c => if 65 ≤ c.val && c.val ≤ 90 then c + 32 else c

/-- `f"{n:0{width}x}"` -/
def paddedHex (width n : ℕ) : String :=
  let digits := String.ofList (Nat.toDigits 16 n)
  String.ofList (List.replicate (width - digits.length) '0') ++ digits

end Str

/-- What the interpreter looks up in the Unicode database. -/
structure UnicodeTables where
  lower : Str → Str
  isPrintable : CodePoint → Bool

namespace UnicodeTables

variable (u : UnicodeTables)

/-- One code point within `repr(text)`. -/
def escape (quote c : CodePoint) : Str :=
  let n := c.val
  if c = quote || c = Str.point '\\' then [Str.point '\\', c]
  else if c = Str.point '\n' then Str.of "\\n"
  else if c = Str.point '\r' then Str.of "\\r"
  else if c = Str.point '\t' then Str.of "\\t"
  else if 32 ≤ n && n < 127 then [c]
  else if 127 < n && u.isPrintable c then [c]
  else if n < 0x100 then Str.of ("\\x" ++ Str.paddedHex 2 n)
  else if n < 0x10000 then Str.of ("\\u" ++ Str.paddedHex 4 n)
  else Str.of ("\\U" ++ Str.paddedHex 8 n)

/-- `repr(text)` -/
def repr (text : Str) : Str :=
  let quote := Str.point
    (if text.contains (Str.point '\'') && !text.contains (Str.point '"') then '"' else '\'')
  [quote] ++ text.flatMap (u.escape quote) ++ [quote]

end UnicodeTables

end Bedjet.Python
