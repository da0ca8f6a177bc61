
namespace Handoff.Text.Utf8

def encodeChar (c : Char) : List UInt8 :=
  let n := c.toNat
  if n < 0x80 then [n.toUInt8]
  else if n < 0x800 then [(0xC0 + n / 64).toUInt8, (0x80 + n % 64).toUInt8]
  else if n < 0x10000 then
    [(0xE0 + n / 4096).toUInt8, (0x80 + n / 64 % 64).toUInt8, (0x80 + n % 64).toUInt8]
  else
    [(0xF0 + n / 262144).toUInt8, (0x80 + n / 4096 % 64).toUInt8,
      (0x80 + n / 64 % 64).toUInt8, (0x80 + n % 64).toUInt8]

def encodeChars (cs : List Char) : List UInt8 := cs.flatMap encodeChar

def encode (s : String) : List UInt8 := encodeChars s.toList

def width (c : Char) : Nat := (encodeChar c).length

def size (s : String) : Nat := (encode s).length

def tailBits (b : UInt8) : Option Nat :=
  if 0x80 ≤ b ∧ b < 0xC0 then some (b.toNat - 0x80) else none

def scalar (low n : Nat) : Option Char :=
  if h : n.isValidChar then if low ≤ n then some (Char.ofNatAux n h) else none else none

def pair (a b : UInt8) : Option Char := do
  if 0xC2 ≤ a ∧ a < 0xE0 then scalar 0x80 (64 * (a.toNat - 0xC0) + (← tailBits b)) else none

def triple (a b c : UInt8) : Option Char := do
  if 0xE0 ≤ a ∧ a < 0xF0 then
    scalar 0x800 (4096 * (a.toNat - 0xE0) + 64 * (← tailBits b) + (← tailBits c))
  else none

def quadruple (a b c d : UInt8) : Option Char := do
  if 0xF0 ≤ a ∧ a < 0xF5 then
    scalar 0x10000 (262144 * (a.toNat - 0xF0) + 4096 * (← tailBits b) + 64 * (← tailBits c)
      + (← tailBits d))
  else none

def firstChar (a : UInt8) (rest : List UInt8) : Option (Char × Nat) :=
  if a < 0x80 then (scalar 0 a.toNat).map (·, 0)
  else match rest with
    | [] => none
    | [b] => (pair a b).map (·, 1)
    | [b, c] => ((pair a b).map (·, 1)).or ((triple a b c).map (·, 2))
    | b :: c :: d :: _ =>
      ((pair a b).map (·, 1)).or (((triple a b c).map (·, 2)).or ((quadruple a b c d).map (·, 3)))

def maySucceed (a b : UInt8) : Bool :=
  if a = 0xE0 then 0xA0 ≤ b && b < 0xC0
  else if a = 0xED then 0x80 ≤ b && b < 0xA0
  else if a = 0xF0 then 0x90 ≤ b && b < 0xC0
  else if a = 0xF4 then 0x80 ≤ b && b < 0x90
  else 0x80 ≤ b && b < 0xC0

/-- How many octets after a first one still looked like a character before it broke off. -/
def brokenTail (a : UInt8) (rest : List UInt8) : Nat :=
  match rest with
  | [] => 0
  | b :: rest =>
    if a < 0xE0 || 0xF5 ≤ a || !maySucceed a b then 0
    else if a < 0xF0 then 1
    else match rest with
      | c :: _ => if (tailBits c).isSome then 2 else 1
      | [] => 1

def scanFrom : Nat → List UInt8 → List (Option Char)
  | _, [] => []
  | skip + 1, _ :: bs => scanFrom skip bs
  | 0, b :: bs =>
    match firstChar b bs with
    | some (c, n) => some c :: scanFrom n bs
    | none => none :: scanFrom (brokenTail b bs) bs

def scan (bs : List UInt8) : List (Option Char) := scanFrom 0 bs

def decode (bs : List UInt8) : Option String :=
  ((scan bs).mapM id).map String.ofList

/-- The text of the octets, with U+FFFD for what is not UTF-8. -/
def decodeLossy (bs : List UInt8) : String :=
  String.ofList ((scan bs).map (·.getD '\uFFFD'))

end Handoff.Text.Utf8
