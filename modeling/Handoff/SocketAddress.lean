import Handoff.Text.Split
import Handoff.Text.Hex

namespace Handoff

inductive Host
  | v4 (octets : List Nat)
  | v6 (groups : List Nat)
  deriving DecidableEq, Repr

structure SocketAddress where
  host : Host
  port : Nat
  deriving DecidableEq, Repr

namespace SocketAddress

/-- A number in this base, below `bound`; leading zeros only where `zeros` allows them. -/
def readNumber (base : Nat) (maxDigits : Option Nat) (zeros : Bool) (bound : Nat)
    (cs : List Char) : Option (Nat × List Char) :=
  let isDigit c := (Text.Hex.value c).any (· < base)
  let ds := cs.takeWhile isDigit
  let n := ds.foldl (fun n c => base * n + (Text.Hex.value c).getD 0) 0
  if ds = [] ∨ maxDigits.any (· < ds.length) ∨ (!zeros ∧ ds.head? = some '0' ∧ 1 < ds.length) ∨
      bound ≤ n then none
  else some (n, cs.dropWhile isDigit)

def readChar (c : Char) : List Char → Option (List Char)
  | d :: cs => if d = c then some cs else none
  | [] => none

def readOctet (cs : List Char) : Option (Nat × List Char) := readNumber 10 (some 3) false 256 cs

def readIpv4 (cs : List Char) : Option (List Nat × List Char) := do
  let (a, cs) ← readOctet cs
  let (b, cs) ← readOctet (← readChar '.' cs)
  let (c, cs) ← readOctet (← readChar '.' cs)
  let (d, cs) ← readOctet (← readChar '.' cs)
  return ([a, b, c, d], cs)

def readPort (cs : List Char) : Option (Nat × List Char) := do
  readNumber 10 none true 65536 (← readChar ':' cs)

def readSeparator (isFirst : Bool) (cs : List Char) : Option (List Char) :=
  if isFirst then some cs else readChar ':' cs

def pairOctets : List Nat → List Nat
  | [a, b, c, d] => [256 * a + b, 256 * c + d]
  | _ => []

/-- Up to `left` groups, the last two of them perhaps as an IPv4 address, which is told. -/
def readGroups : Nat → Bool → List Char → List Nat × Bool × List Char
  | 0, _, cs => ([], false, cs)
  | left + 1, isFirst, cs =>
    match if 0 < left then (readSeparator isFirst cs).bind readIpv4 else none with
    | some (octets, rest) => (pairOctets octets, true, rest)
    | none =>
      match (readSeparator isFirst cs).bind (readNumber 16 (some 4) true 65536) with
      | some (g, rest) =>
        let (gs, hasIpv4, rest) := readGroups left false rest
        (g :: gs, hasIpv4, rest)
      | none => ([], false, cs)

/-- Eight groups; `::` stands for as many zeros as are missing, and for at least one. -/
def readIpv6 (cs : List Char) : Option (List Nat × List Char) :=
  let (front, hasIpv4, rest) := readGroups 8 true cs
  if front.length = 8 then some (front, rest)
  else if hasIpv4 then none
  else do
    let rest ← readChar ':' (← readChar ':' rest)
    let (back, _, rest) := readGroups (7 - front.length) true rest
    return (front ++ List.replicate (8 - front.length - back.length) 0 ++ back, rest)

def skipScope (cs : List Char) : List Char :=
  (((readChar '%' cs).bind (readNumber 10 none true 0x100000000)).map (·.2)).getD cs

def readHost (cs : List Char) : Option (Host × List Char) :=
  match readIpv4 cs with
  | some (octets, cs) => some (.v4 octets, cs)
  | none => do
    let (groups, cs) ← readIpv6 (← readChar '[' cs)
    return (.v6 groups, ← readChar ']' (skipScope cs))

def parse (s : String) : Option SocketAddress := do
  let (host, cs) ← readHost s.toList
  let (port, cs) ← readPort cs
  if cs = [] then some ⟨host, port⟩ else none

end SocketAddress

end Handoff
