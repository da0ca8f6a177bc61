import Handoff.Text.Split

namespace Handoff.Text

def digitChar (n : Nat) : Char := Char.ofNat (48 + n % 10)

def digitValue (c : Char) : Nat := c.toNat - 48

def digitsOnto (n : Nat) (acc : List Char) : List Char :=
  if n < 10 then digitChar n :: acc else digitsOnto (n / 10) (digitChar n :: acc)

def natChars (n : Nat) : List Char := digitsOnto n []

def intChars : Int → List Char
  | .ofNat n => natChars n
  | .negSucc n => '-' :: natChars (n + 1)

def natText (n : Nat) : String := String.ofList (natChars n)

def intText (i : Int) : String := String.ofList (intChars i)

def foldDigits (acc : Nat) (cs : List Char) : Nat :=
  cs.foldl (fun n c => 10 * n + digitValue c) acc

def readDigits (cs : List Char) : Option Nat :=
  if cs ≠ [] ∧ cs.all isAsciiDigit then some (foldDigits 0 cs) else none

def maxWord : Nat := 0xffffffffffffffff

/-- The largest number a signed word of 64 bits holds; the least is one further from zero. -/
def maxSigned : Nat := 0x7fffffffffffffff

def readWord (cs : List Char) : Option Nat :=
  let ds := match cs with
    | '+' :: r => r
    | r => r
  (readDigits ds).filter (· ≤ maxWord)

def readInt (cs : List Char) : Option Int64 :=
  match cs with
  | '-' :: r => ((readDigits r).filter (· ≤ maxSigned + 1)).map fun n => Int64.ofInt (-(n : Int))
  | '+' :: r => ((readDigits r).filter (· ≤ maxSigned)).map fun n => Int64.ofInt n
  | r => ((readDigits r).filter (· ≤ maxSigned)).map fun n => Int64.ofInt n

/-- Sums of times stop at the largest word. -/
def addTime (a b : Nat) : Nat := min (a + b) maxWord

end Handoff.Text
