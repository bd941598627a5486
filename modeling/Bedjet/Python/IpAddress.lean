import Bedjet.Python.Str

/-!
`ipaddress.ip_address` of a text: which texts are the literal of an address, and
of which.
-/

namespace Bedjet.Python

inductive IpAddress
  | v4 (value : ℕ)
  | v6 (value : ℕ)
  deriving DecidableEq

namespace IpAddress

/-- `IPv4Address._parse_octet` -/
def parseOctet (octet : Str) : Option ℕ :=
  if octet = [] || !octet.all Str.isAsciiDigit || 3 < octet.length then none
  else if octet ≠ Str.of "0" && octet.head? = some (Str.point '0') then none
  else
    let value := octet.foldl (fun n c => n * 10 + (c.val - 48)) 0
    if 255 < value then none else some value

/-- `IPv4Address(text)` -/
def parseV4 (text : Str) : Option ℕ := do
  if text.contains (Str.point '/') then none
  match ← (text.splitOn (Str.point '.')).mapM parseOctet with
  | [a, b, c, d] => some (((a * 256 + b) * 256 + c) * 256 + d)
  | _ => none

/-- `IPv6Address._parse_hextet`; `int` refuses the empty text -/
def parseHextet (hextet : Str) : Option ℕ := do
  let digits ← hextet.mapM Str.hexValue
  if hextet = [] || 4 < hextet.length then none
  else some (digits.foldl (fun n d => n * 16 + d) 0)

/-- The value of hextets, the highest first. -/
def joinHextets (high : ℕ) (hextets : List Str) : Option ℕ := do
  let values ← hextets.mapM parseHextet
  some (values.foldl (fun n v => n * 0x10000 + v) high)

/-- The parts between colons, an IPv4 suffix replaced by two hextets. -/
def hexParts (parts : List Str) : Option (List Str) :=
  let suffix := parts.getLastD []
  if suffix.contains (Str.point '.') then do
    let value ← parseV4 suffix
    some (parts.dropLast ++ [Str.of (Str.paddedHex 1 (value / 0x10000)),
      Str.of (Str.paddedHex 1 (value % 0x10000))])
  else some parts

/-- Where `::` stands, the ends disregarded. -/
def gaps (parts : List Str) : List ℕ :=
  (List.range parts.length).filter fun i =>
    0 < i && i + 1 < parts.length && parts[i]? = some []

/-- `IPv6Address._ip_int_from_string` -/
def parseV6Parts (text : Str) : Option ℕ := do
  let split := text.splitOn (Str.point ':')
  if split.length < 3 then none
  let parts ← hexParts split
  if 9 < parts.length then none
  match gaps parts with
  | [] => if parts.length ≠ 8 then none else joinHextets 0 parts
  | [skip] =>
      -- an end may be empty only where it is part of the gap
      let startsEmpty := parts.head? = some []
      let endsEmpty := parts.getLast? = some []
      if startsEmpty && skip ≠ 1 then none
      if endsEmpty && skip + 2 ≠ parts.length then none
      let high := if startsEmpty then [] else parts.take skip
      let low := if endsEmpty then [] else parts.drop (skip + 1)
      if 8 ≤ high.length + low.length then none
      let value ← joinHextets 0 high
      joinHextets (value * 0x10000 ^ (8 - (high.length + low.length))) low
  | _ => none

/-- `IPv6Address(text)`, the scope left out -/
def parseV6 (text : Str) : Option ℕ := do
  if text.contains (Str.point '/') then none
  match text.splitOn (Str.point '%') with
  | [address] => parseV6Parts address
  | [address, scope] => if scope = [] then none else parseV6Parts address
  | _ => none

/-- `ipaddress.ip_address(text)`, which raises a `ValueError` otherwise -/
def parse (text : Str) : Option IpAddress :=
  match parseV4 text with
  | some value => some (.v4 value)
  | none => (parseV6 text).map .v6

def isLoopback : IpAddress → Bool
  | .v4 value => value / 0x1000000 = 127
  | .v6 value => value = 1

end IpAddress

end Bedjet.Python
