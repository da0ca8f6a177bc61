
namespace Handoff.Text.Hex

def digit (n : Nat) : Char := Char.ofNat (if n % 16 < 10 then 48 + n % 16 else 87 + n % 16)

def encodeByte (b : UInt8) : List Char := [digit (b.toNat / 16), digit b.toNat]

def encode (bs : List UInt8) : String := String.ofList (bs.flatMap encodeByte)

def value (c : Char) : Option Nat :=
  if '0' ≤ c ∧ c ≤ '9' then some (c.toNat - 48)
  else if 'a' ≤ c ∧ c ≤ 'f' then some (c.toNat - 87)
  else if 'A' ≤ c ∧ c ≤ 'F' then some (c.toNat - 55)
  else none

end Handoff.Text.Hex
