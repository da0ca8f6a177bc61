import Handoff.Text.Utf8

namespace Handoff.Text

def isBoundary (bs : List UInt8) (i : Nat) : Bool :=
  i = 0 || match bs[i]? with
    | some b => (Utf8.tailBits b).isNone
    | none => i = bs.length

/-- The first boundary on the way back from an octet; nothing if the way goes on below zero. -/
def cutFrom? (bs : List UInt8) : Nat → Option Nat
  | 0 => if isBoundary bs 0 then some 0 else none
  | i + 1 => if isBoundary bs (i + 1) then some (i + 1) else cutFrom? bs i

def clip? (limit : Nat) (s : String) : Option String :=
  let bs := Utf8.encode s
  if bs.length ≤ limit then some s
  else (cutFrom? bs limit).bind fun i => Utf8.decode (bs.take i)

@[irreducible] def clip (limit : Nat) (s : String) : String := (clip? limit s).getD ""

end Handoff.Text
