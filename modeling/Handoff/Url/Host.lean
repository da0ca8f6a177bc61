import Handoff.Text.Blank
import Handoff.Url.Percent
import Handoff.Url.Punycode

namespace Handoff

inductive UrlError
  | relative
  | emptyHost
  | invalidDomain
  | invalidHostChar
  | invalidPort
  | invalidIpv4
  | invalidIpv6
  deriving DecidableEq, Repr

def UrlError.message : UrlError → String
  | relative => "relative URL without a base"
  | emptyHost => "empty host"
  | invalidDomain => "invalid international domain name"
  | invalidHostChar => "invalid domain character"
  | invalidPort => "invalid port number"
  | invalidIpv4 => "invalid IPv4 address"
  | invalidIpv6 => "invalid IPv6 address"

namespace Url

/-- A number in base ten, or in base eight or sixteen after `0` or `0x`. -/
def readIpv4Number (part : List Char) : Option Nat :=
  let digits (base : Nat) (cs : List Char) : Option Nat :=
    cs.foldlM (fun n c => ((Text.Hex.value c).filter (· < base)).map (base * n + ·)) 0
  match part with
  | [] => none
  | '0' :: 'x' :: cs => digits 16 cs
  | '0' :: 'X' :: cs => digits 16 cs
  | '0' :: cs => digits 8 cs
  | cs => digits 10 cs

def ipv4Parts (host : List Char) : List (List Char) :=
  let parts := Text.splitChars '.' host
  if parts.getLast? = some [] ∧ 1 < parts.length then parts.dropLast else parts

def endsInNumber (host : List Char) : Bool :=
  match (ipv4Parts host).getLast? with
  | none => false
  | some [] => false
  | some part => part.all Text.isAsciiDigit ||
      ((part.take 2 = ['0', 'x'] || part.take 2 = ['0', 'X']) && (readIpv4Number part).isSome)

/-- All parts but the last are octets, the last one fills up what is left. -/
def joinIpv4 : Nat → List Nat → Option Nat
  | _, [] => none
  | left, [n] => if n < Nat.pow 256 left then some n else none
  | left, n :: ns => do
    let rest ← joinIpv4 (left - 1) ns
    if n < 256 ∧ 1 < left then some (n * Nat.pow 256 (left - 1) + rest) else none

def readIpv4 (host : List Char) : Option Nat := do
  let numbers ← (ipv4Parts host).mapM readIpv4Number
  if numbers.length ≤ 4 then joinIpv4 4 numbers else none

def printIpv4 (n : Nat) : List Char :=
  Text.joinChars ['.'] <| [n / 0x1000000, n / 0x10000 % 256, n / 0x100 % 256, n % 256].map Text.natChars

def readGroup (cs : List Char) : Option Nat :=
  if cs = [] ∨ 4 < cs.length then none
  else cs.foldlM (fun n c => (Text.Hex.value c).map (16 * n + ·)) 0

def readTrailingIpv4 (cs : List Char) : Option (List Nat) := do
  let octet (part : List Char) : Option Nat :=
    if part.length ≠ 1 ∧ part.head? = some '0' then none
    else (Text.readDigits part).filter (· < 256)
  match ← (Text.splitChars '.' cs).mapM octet with
  | [a, b, c, d] => some [256 * a + b, 256 * c + d]
  | _ => none

def readGroups : List (List Char) → Option (List Nat)
  | [] => some []
  | [last] => if last.contains '.' then readTrailingIpv4 last else (readGroup last).map ([·])
  | g :: gs => do return (← readGroup g) :: (← readGroups gs)

def cutDoubleColon : List Char → Option (List Char × List Char)
  | ':' :: ':' :: cs => some ([], cs)
  | c :: cs => (cutDoubleColon cs).map fun (a, b) => (c :: a, b)
  | [] => none

def readSide (cs : List Char) : Option (List Nat) :=
  if cs = [] then some [] else readGroups (Text.splitChars ':' cs)

def readIpv6 (cs : List Char) : Option (List Nat) := do
  match cutDoubleColon cs with
  | none => (← readGroups (Text.splitChars ':' cs)) |> fun gs => if gs.length = 8 then some gs else none
  | some (a, b) =>
    let front ← readSide a
    let back ← readSide b
    if a.contains '.' ∨ 7 < front.length + back.length then none
    else some (front ++ List.replicate (8 - front.length - back.length) 0 ++ back)

def longestZeros (best : Nat × Nat) (index : Nat) : List Nat → Nat × Nat
  | [] => best
  | g :: gs =>
    let run := ((g :: gs).takeWhile (· = 0)).length
    longestZeros (if best.2 < run then (index, run) else best) (index + 1) gs

def hexChars (n : Nat) : List Char :=
  let ds := [n / 4096, n / 256 % 16, n / 16 % 16].dropWhile (· = 0)
  (ds ++ [n % 16]).map Text.Hex.digit

def printGroups (gs : List Nat) : List Char := Text.joinChars [':'] (gs.map hexChars)

/-- The longest run of at least two zeros is left out. -/
def printIpv6 (gs : List Nat) : List Char :=
  let (start, run) := longestZeros (0, 0) 0 gs
  if run < 2 then printGroups gs
  else printGroups (gs.take start) ++ [':', ':'] ++ printGroups (gs.drop (start + run))

def isForbidden (c : Char) : Bool :=
  c.toNat ≤ 0x20 || c.toNat = 0x7f || "#%/:<>?@[\\]^|".toList.contains c

def asciiLabel (label : List Char) : List Char :=
  if label.all (·.toNat < 128) then label else ['x', 'n', '-', '-'] ++ Punycode.encode label

def asciiDomain (cs : List Char) : Option (List Char) :=
  let dots := cs.map fun c => if c = '\u3002' ∨ c = '\uff0e' ∨ c = '\uff61' then '.' else c
  let labels := (Text.splitChars '.' (dots.map Text.lowerAscii)).map asciiLabel
  let domain := Text.joinChars ['.'] labels
  if domain.any isForbidden then none else some domain

def readHost (cs : List Char) : Except UrlError (List Char) :=
  match cs with
  | '[' :: rest =>
    if rest.getLast? = some ']' then
      match readIpv6 rest.dropLast with
      | some gs => .ok ('[' :: printIpv6 gs ++ [']'])
      | none => .error .invalidIpv6
    else .error .invalidIpv6
  | cs =>
    match (Text.Utf8.decode (percentDecode cs)).bind fun s => asciiDomain s.toList with
    | none => .error .invalidDomain
    | some [] => .error .emptyHost
    | some domain =>
      if endsInNumber domain then
        match readIpv4 domain with
        | some n => .ok (printIpv4 n)
        | none => .error .invalidIpv4
      else .ok domain

def readPlainHost (cs : List Char) : Except UrlError (List Char) :=
  match cs with
  | '[' :: _ => readHost cs
  | cs =>
    if cs.any fun c => c.toNat = 0 || " #/:<>?@[\\]^|".toList.contains c then .error .invalidHostChar
    else .ok (percentEncode nowhere cs)

end Url

end Handoff
