import Handoff.Text.Decimal

namespace Handoff

namespace Json

/-- A number as it was written: without point or exponent, or as `mantissa · 10 ^ exponent`. -/
inductive Number
  | whole (value : Int)
  | scaled (mantissa exponent : Int)
  deriving DecidableEq, Repr

def digitCount (n : Nat) : Nat := (Text.natChars n).length

def doubleLimit : Nat := Nat.pow 2 1024 - Nat.pow 2 970

def Number.parts : Number → Nat × Int
  | .whole n => (n.natAbs, 0)
  | .scaled m e => (m.natAbs, e)

/-- Whether the number lies in the range of a double. Far outside the range the digits decide. -/
def Number.isFinite (n : Number) : Bool :=
  let (m, e) := n.parts
  if m = 0 then true
  else if (digitCount m : Int) + e > 310 then false
  else if (digitCount m : Int) + e < 300 then true
  else if 0 ≤ e then m * Nat.pow 10 e.toNat < doubleLimit
  else m < doubleLimit * Nat.pow 10 (-e).toNat

end Json

inductive Json
  | null
  | bool (b : Bool)
  | num (n : Json.Number)
  | str (s : String)
  | arr (items : List Json)
  | obj (members : List (String × Json))

namespace Json

def int (i : Int) : Json := .num (.whole i)

def nat (n : Nat) : Json := .num (.whole n)

def optStr : Option String → Json
  | some s => .str s
  | none => .null

def get? (name : String) : Json → Option Json
  | .obj ms => (ms.reverse.find? (·.1 = name)).map (·.2)
  | _ => none

def str? : Json → Option String
  | .str s => some s
  | _ => none

end Json

end Handoff
