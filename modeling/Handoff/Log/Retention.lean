import Handoff.Text.Blank
import Handoff.Text.Decimal

namespace Handoff.Log

structure Date where
  year : Int
  month : Nat
  day : Nat
  deriving DecidableEq, Repr

namespace Date

def minYear : Int := -262143

def maxYear : Int := 262142

def isLeap (year : Int) : Bool := year % 4 = 0 ∧ (year % 100 ≠ 0 ∨ year % 400 = 0)

def monthLength (year : Int) (month : Nat) : Nat :=
  if month = 2 then (if isLeap year then 29 else 28)
  else if month = 4 ∨ month = 6 ∨ month = 9 ∨ month = 11 then 30 else 31

def isValid (d : Date) : Bool :=
  minYear ≤ d.year ∧ d.year ≤ maxYear ∧ 1 ≤ d.month ∧ d.month ≤ 12 ∧ 1 ≤ d.day ∧
    d.day ≤ monthLength d.year d.month

def daysOfMonths (year : Int) : Nat → Nat
  | 0 => 0
  | months + 1 => daysOfMonths year months + monthLength year (months + 1)

def number (d : Date) : Int :=
  let y := d.year - 1
  365 * y + Int.fdiv y 4 - Int.fdiv y 100 + Int.fdiv y 400 +
    daysOfMonths d.year (d.month - 1) + (d.day - 1)

def first : Date := ⟨minYear, 1, 1⟩

def readDigits (width : Nat) (cs : List Char) : Option (Nat × List Char) :=
  let cs := Text.trimStart cs
  let ds := (cs.take width).takeWhile Text.isAsciiDigit
  (Text.readDigits ds).map fun n => (n, cs.drop ds.length)

/-- A year: four digits at most, or any number of them behind a sign. -/
def readYear (cs : List Char) : Option (Int × List Char) :=
  let signed (r : List Char) : Option (Nat × List Char) :=
    if r.head?.any Text.isAsciiDigit then readDigits r.length r else none
  match Text.trimStart cs with
  | '-' :: r => (signed r).map fun (n, r) => (-(n : Int), r)
  | '+' :: r => (signed r).map fun (n, r) => ((n : Int), r)
  | cs => (readDigits 4 cs).map fun (n, r) => ((n : Int), r)

def readHyphen : List Char → Option (List Char)
  | '-' :: cs => some cs
  | _ => none

def parse (s : String) : Option Date := do
  let (year, cs) ← readYear s.toList
  let (month, cs) ← readDigits 2 (← readHyphen cs)
  let (day, cs) ← readDigits 2 (← readHyphen cs)
  let d : Date := ⟨year, month, day⟩
  if cs = [] ∧ d.isValid then some d else none

end Date

/-- The text behind the last dot of a name, or the whole name. -/
def extension (name : String) : String :=
  String.ofList ((name.toList.reverse.takeWhile (· ≠ '.')).reverse)

def dayOf (name : String) : Option Date := Date.parse (extension name)

/-- The first day that is kept; nothing if it lies outside the calendar. -/
def cutoff (today : Date) (keepDays : Nat) : Option Int :=
  let n := today.number - keepDays
  if Date.first.number ≤ n then some n else none

def isOutdated (cutoff : Int) (name : String) : Bool := (dayOf name).any (·.number < cutoff)

/-- What lies in the directory of the logs under a name that is text; the rest is not looked at. -/
structure Item where
  name : String
  /-- Files can be removed this way, and directories can not. -/
  isFile : Bool
  deriving DecidableEq, Repr

def prune (today : Date) (keepDays : Nat) (items : List Item) : List Item :=
  match cutoff today keepDays with
  | none => items
  | some c => items.filter fun i => !(i.isFile && isOutdated c i.name)

def retention (setting : Option String) : Nat :=
  ((setting.bind fun s => Text.readWord (Text.trimChars s.toList)).filter (0 < ·)).getD 14

def joinPath (dir path : String) : String :=
  if Text.startsWith "/" path then path
  else if dir.toList.getLast? = some '/' then dir ++ path else dir ++ "/" ++ path

def directory (workingDir : String) (setting : Option String) : String :=
  joinPath (joinPath workingDir (setting.getD "logs")) "raw"

end Handoff.Log
