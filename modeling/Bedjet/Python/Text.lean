import Bedjet.Python.Number

/-!
Python's text operations, as far as messages and mode names need them:
`bytes.hex`, the fixed-point and padded formats of an f-string, and the string
methods `strip`, `upper` and `lower`.
-/

namespace Bedjet.Python

abbrev Bytes := List UInt8

/-- `f"{n:0{width}d}"` -/
def padded (width n : ℕ) : String :=
  let digits := toString n
  String.ofList (List.replicate (width - digits.length) '0') ++ digits

/-- `f"{n:02x}"` for one byte -/
def hexByte (n : ℕ) : String :=
  String.ofList [Nat.digitChar (n / 16), Nat.digitChar (n % 16)]

/-- `data.hex(" ")` -/
def hex (data : Bytes) : String :=
  " ".intercalate (data.map fun b => hexByte b.toNat)

/-- `f"{q:.{digits}f}"` -/
def fixed (digits : ℕ) (q : ℚ) : String :=
  let scaled := (roundHalfEven (|q| * 10 ^ digits)).toNat
  let whole := toString (scaled / 10 ^ digits)
  let fraction := if digits = 0 then "" else "." ++ padded digits (scaled % 10 ^ digits)
  (if q < 0 then "-" else "") ++ whole ++ fraction

/-- `f"{x:.{digits}f}"` of a `float` -/
def fixedDouble (digits : ℕ) : Double → String
  | .nan => "nan"
  | .inf negative => if negative then "-inf" else "inf"
  | .finite q => fixed digits q

/-- `f"{n}"` of an `int`: the interpreter refuses to write out more than 4300
digits. -/
def decimal (n : ℤ) : Except ConversionError String :=
  if n.natAbs < 10 ^ 4300 then .ok (toString n) else .error .value

/-- `str.isspace` of one character -/
def isSpace (c : Char) : Bool :=
  let n := c.toNat
  (9 ≤ n && n ≤ 13) || (28 ≤ n && n ≤ 32) || n = 0x85 || n = 0xA0 || n = 0x1680 ||
    (0x2000 ≤ n && n ≤ 0x200A) || n = 0x2028 || n = 0x2029 || n = 0x202F || n = 0x205F ||
    n = 0x3000

/-- `text.strip()` -/
def strip (text : String) : List Char :=
  ((text.toList.dropWhile isSpace).reverse.dropWhile isSpace).reverse

/-- `upper()` of one character. Beside the ASCII letters, the characters listed
are all those whose upper case is made of ASCII letters; the others are left as
they are, since no comparison with an ASCII name depends on them. -/
def upperChar (c : Char) : List Char :=
  match c.toNat with
  | 0x00DF => ['S', 'S']
  | 0x0131 => ['I']
  | 0x017F => ['S']
  | 0xFB00 => ['F', 'F']
  | 0xFB01 => ['F', 'I']
  | 0xFB02 => ['F', 'L']
  | 0xFB03 => ['F', 'F', 'I']
  | 0xFB04 => ['F', 'F', 'L']
  | 0xFB05 => ['S', 'T']
  | 0xFB06 => ['S', 'T']
  | _ => [c.toUpper]

/-- `text.upper()`, exact up to characters no ASCII name contains -/
def upper (text : List Char) : List Char :=
  text.flatMap upperChar

/-- `text.lower()`, exact on ASCII -/
def lower (text : String) : String :=
  text.map Char.toLower

/-- `repr(text)`, with the printable characters left as they are -/
def reprText (text : String) : String :=
  let quote := if text.toList.contains '\'' && !text.toList.contains '"' then '"' else '\''
  let escape (c : Char) : List Char :=
    if c = quote || c = '\\' then ['\\', c]
    else if c = '\n' then ['\\', 'n']
    else if c = '\r' then ['\\', 'r']
    else if c = '\t' then ['\\', 't']
    else if c.toNat < 32 || c.toNat = 127 then '\\' :: 'x' :: (hexByte c.toNat).toList
    else [c]
  String.ofList (quote :: text.toList.flatMap escape ++ [quote])

end Bedjet.Python
