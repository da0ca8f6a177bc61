import Handoff.Text.Decimal
import Handoff.Text.Hex
import Handoff.Text.Utf8

namespace Handoff.Url

def upperHexDigit (n : Nat) : Char := Char.ofNat (if n % 16 < 10 then 48 + n % 16 else 55 + n % 16)

def percentByte (b : UInt8) : List Char :=
  ['%', upperHexDigit (b.toNat / 16), upperHexDigit b.toNat]

def isControlOrForeign (c : Char) : Bool := c.toNat < 0x20 || 0x7f ≤ c.toNat

def percentChar (escapes : Char → Bool) (c : Char) : List Char :=
  if isControlOrForeign c || escapes c then (Text.Utf8.encodeChar c).flatMap percentByte else [c]

def percentEncode (escapes : Char → Bool) (cs : List Char) : List Char :=
  cs.flatMap (percentChar escapes)

def nowhere (_ : Char) : Bool := false

def inFragment (c : Char) : Bool := " \"<>".toList.contains c || c.toNat = 0x60

def inQuery (c : Char) : Bool := " \"#<>".toList.contains c

def inSpecialQuery (c : Char) : Bool := inQuery c || c = '\''

def inPath (c : Char) : Bool := inFragment c || "#?\x7b\x7d".toList.contains c

def inUserinfo (c : Char) : Bool := inPath c || "/:;=@[\\]^|".toList.contains c

def percentDecode : List Char → List UInt8
  | [] => []
  | '%' :: a :: b :: cs =>
    match Text.Hex.value a, Text.Hex.value b with
    | some x, some y => (16 * x + y).toUInt8 :: percentDecode cs
    | _, _ => Text.Utf8.encodeChar '%' ++ percentDecode (a :: b :: cs)
  | c :: cs => Text.Utf8.encodeChar c ++ percentDecode cs

end Handoff.Url

namespace Handoff.Form

def isPlain (c : Char) : Bool := Text.isAsciiAlnum c || "*-._".toList.contains c

/-- A name or value of a form; a blank becomes `+`. -/
def encode (s : String) : List Char :=
  s.toList.flatMap fun c =>
    if isPlain c then [c] else if c = ' ' then ['+']
    else (Text.Utf8.encodeChar c).flatMap Url.percentByte

def pairChars (p : String × String) : List Char := encode p.1 ++ '=' :: encode p.2

def print (pairs : List (String × String)) : String :=
  String.ofList (Text.joinChars ['&'] (pairs.map pairChars))

def decode (cs : List Char) : String :=
  Text.Utf8.decodeLossy (Url.percentDecode (cs.map fun c => if c = '+' then ' ' else c))

/-- One pair: a value that is missing is empty. -/
def parsePair (cs : List Char) : String × String :=
  match Text.cutChars '=' cs with
  | some (name, value) => (decode name, decode value)
  | none => (decode cs, "")

def parse (s : String) : List (String × String) :=
  ((Text.splitChars '&' s.toList).filter (· ≠ [])).map parsePair

end Handoff.Form
