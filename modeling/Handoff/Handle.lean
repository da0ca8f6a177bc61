import Handoff.Text.Blank
import Handoff.Text.Hex
import Handoff.Text.Split
import Handoff.Text.Utf8

namespace Handoff

structure Handle where
  text : String
  deriving DecidableEq, Repr, Inhabited

namespace Handle

def minBytes : Nat := 16

def entropy (bytes : Nat) : Nat := max bytes minBytes

def ofEntropy (random : List UInt8) : Handle := ⟨Text.Hex.encode random⟩

def parse (raw : String) (bytes : Nat) : Option Handle :=
  let cs := Text.trimChars raw.toList
  if cs.length = 2 * bytes ∧ cs.all Text.isHexDigit then some ⟨String.ofList (cs.map Text.lowerAscii)⟩
  else none

def front? : Nat → List Char → Option (List Char)
  | _, [] => some []
  | n, c :: cs =>
    if n = 0 then some []
    else if Text.Utf8.width c ≤ n then (front? (n - Text.Utf8.width c) cs).map (c :: ·)
    else none

/-- The part that may be logged: the first eight octets, nothing if they end inside a character. -/
def fingerprint (h : Handle) : String := ((front? 8 h.text.toList).map String.ofList).getD ""

def label (h : Handle) : String := "Handle(" ++ h.fingerprint ++ "…)"

end Handle

end Handoff
