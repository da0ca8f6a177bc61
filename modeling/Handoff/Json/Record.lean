import Handoff.Json.Draft
import Handoff.Text.Utf8

namespace Handoff.Json

/-- Why a text was refused: it is no JSON, or its data do not fit. -/
inductive Fault
  | malformed
  | unfit
  deriving DecidableEq, Repr

def Fault.text : Fault → String
  | malformed => "malformed JSON"
  | unfit => "data that do not fit"

abbrev Reader (α : Type) := Draft → Except Fault α

/-- The fault of a value that has the wrong shape: it is malformed if it cannot even be read. -/
def Draft.mismatch : Draft → Fault
  | .broken => .malformed
  | .str none => .malformed
  | .num n => if n.isFinite then .unfit else .malformed
  | _ => .unfit

def readText : Reader String
  | .str (some s) => .ok s
  | d => .error d.mismatch

def readNat : Reader Nat
  | .num (.whole n) =>
    if 0 ≤ n ∧ n ≤ Text.maxWord then .ok n.toNat else .error (Draft.num (.whole n)).mismatch
  | d => .error d.mismatch

def readInt64 : Reader Int64
  | .num (.whole n) =>
    if -(Text.maxSigned + 1 : Int) ≤ n ∧ n ≤ Text.maxSigned then .ok (Int64.ofInt n)
    else .error (Draft.num (.whole n)).mismatch
  | d => .error d.mismatch

def readOption {α : Type} (read : Reader α) : Reader (Option α)
  | .null => .ok none
  | d => (read d).map some

def readEnum {α : Type} (parse : String → Option α) : Reader α
  | .str (some s) => (parse s).elim (.error .unfit) .ok
  | .obj ((some s, d) :: ms) closed =>
    match parse s, d with
    | none, _ => .error .unfit
    | some a, .null => if ms.isEmpty && closed then .ok a else .error .malformed
    | some _, d => .error d.mismatch
  | _ => .error .malformed

/-- How the members of an object fill a record `α`; `σ` holds what has been filled so far. -/
structure Record (σ α : Type) where
  start : σ
  offer : String → Draft → σ → Option (Except Fault σ)
  finish : σ → Except Fault α
  inOrder : List Draft → Bool → Except Fault (α × List Draft)

/-- A member under `name`. If it is missing, an object gives `absent` and an array `cutOff`. -/
def field {α : Type} (name : String) (read : Reader α) (absent cutOff : Option α) :
    Record (Option α) α where
  start := none
  offer key d seen :=
    if key = name then
      some (if seen.isSome then .error .unfit else (read d).map some)
    else none
  finish seen := (seen.or absent).elim (.error .unfit) .ok
  inOrder
    | d :: ds, _ => (read d).map (·, ds)
    | [], closed =>
      if closed then cutOff.elim (.error .unfit) fun a => .ok (a, []) else .error .malformed

def required {α : Type} (name : String) (read : Reader α) : Record (Option α) α :=
  field name read none none

def optional {α : Type} (name : String) (read : Reader α) :
    Record (Option (Option α)) (Option α) :=
  field name (readOption read) (some none) none

def defaulted {α : Type} (name : String) (read : Reader α) (fallback : α) : Record (Option α) α :=
  field name read (some fallback) (some fallback)

def Record.and {σ τ α β : Type} (r : Record σ α) (s : Record τ β) : Record (σ × τ) (α × β) where
  start := (r.start, s.start)
  offer key d seen :=
    match r.offer key d seen.1 with
    | some x => some (x.map (·, seen.2))
    | none => (s.offer key d seen.2).map fun y => y.map (seen.1, ·)
  finish seen := do return (← r.finish seen.1, ← s.finish seen.2)
  inOrder ds closed := do
    let (a, ds) ← r.inOrder ds closed
    let (b, ds) ← s.inOrder ds closed
    return ((a, b), ds)

def Record.map {σ α β : Type} (f : α → β) (r : Record σ α) : Record σ β where
  start := r.start
  offer := r.offer
  finish seen := (r.finish seen).map f
  inOrder ds closed := (r.inOrder ds closed).map fun (a, ds) => (f a, ds)

/-- One member of an object: its name has to be text, and an unknown one has to hold JSON. -/
def Record.member {σ α : Type} (r : Record σ α) (seen : σ) (m : Option String × Draft) :
    Except Fault σ :=
  match m.1 with
  | none => .error .malformed
  | some key =>
    match r.offer key m.2 seen with
    | some x => x
    | none => if m.2.isWhole then .ok seen else .error .malformed

def Record.read {σ α : Type} (r : Record σ α) : Reader α
  | .obj ms closed => do
    let seen ← ms.foldlM r.member r.start
    if closed then r.finish seen else .error .malformed
  | .arr ds closed => do
    let (a, rest) ← r.inOrder ds closed
    if rest.isEmpty && closed then .ok a else .error .malformed
  | d => .error d.mismatch

def maxDepth : Nat := 127

def setMember (name : String) (j : Json) : List (String × Json) → List (String × Json)
  | [] => [(name, j)]
  | m :: ms => if m.1 = name then (name, j) :: ms else m :: setMember name j ms

mutual

def readJson (depth : Nat) : Draft → Except Fault Json
  | .null => .ok .null
  | .bool b => .ok (.bool b)
  | .num n => if n.isFinite then .ok (.num n) else .error .malformed
  | .str (some s) => .ok (.str s)
  | .str none => .error .malformed
  | .broken => .error .malformed
  | .arr ds closed => do
    if depth = 0 then .error .malformed
    else
      let js ← readItems (depth - 1) ds
      if closed then return .arr js else .error .malformed
  | .obj ms closed => do
    if depth = 0 then .error .malformed
    else
      let js ← readMembers (depth - 1) [] ms
      if closed then return .obj js else .error .malformed

def readItems (depth : Nat) : List Draft → Except Fault (List Json)
  | [] => .ok []
  | d :: ds => do return (← readJson depth d) :: (← readItems depth ds)

def readMembers (depth : Nat) (done : List (String × Json)) :
    List (Option String × Draft) → Except Fault (List (String × Json))
  | [] => .ok done
  | (none, _) :: _ => .error .malformed
  | (some k, d) :: ms => do
    let j ← readJson depth d
    readMembers depth (setMember k j done) ms

end

def readSource {α : Type} (read : Reader α) (source : Source) : Except Fault α := do
  let (d, rest) := Draft.read source
  let a ← read d
  if rest.isEmpty then return a else .error .malformed

def ofText {α : Type} (read : Reader α) (s : String) : Except Fault α :=
  readSource read (s.toList.map some)

def ofBytes {α : Type} (read : Reader α) (bs : List UInt8) : Except Fault α :=
  readSource read (Text.Utf8.scan bs)

def any : Reader Json := readJson maxDepth

end Handoff.Json
