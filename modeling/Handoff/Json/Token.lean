import Handoff.Json.Value
import Handoff.Text.Hex

namespace Handoff.Json

inductive Token
  | beginObject
  | endObject
  | beginArray
  | endArray
  | colon
  | comma
  | null
  | bool (b : Bool)
  | num (n : Number)
  | str (s : Option String)
  | bad
  deriving DecidableEq, Repr

abbrev Source := List (Option Char)

/-- Part of a string: a character, a UTF-16 unit given by its number, or what is no character. -/
inductive Piece
  | char (c : Char)
  | unit (n : Nat)
  | unknown
  deriving DecidableEq, Repr

def hexValue (c : Option Char) : Option Nat := c.bind Text.Hex.value

def unit? (a b c d : Option Char) : Option Nat := do
  return 4096 * (← hexValue a) + 256 * (← hexValue b) + 16 * (← hexValue c) + (← hexValue d)

def escaped? : Char → Option Char
  | '"' => some '"'
  | '\\' => some '\\'
  | '/' => some '/'
  | 'b' => some '\x08'
  | 'f' => some '\x0c'
  | 'n' => some '\n'
  | 'r' => some '\r'
  | 't' => some '\t'
  | _ => none

def scanString : Source → Option (List Piece × Source)
  | [] => none
  | none :: r => (scanString r).map fun (ps, s) => (.unknown :: ps, s)
  | some '"' :: r => some ([], r)
  | some '\\' :: some 'u' :: a :: b :: c :: d :: r =>
    match unit? a b c d with
    | none => none
    | some n => (scanString r).map fun (ps, s) => (.unit n :: ps, s)
  | some '\\' :: some e :: r =>
    match escaped? e with
    | none => none
    | some c => (scanString r).map fun (ps, s) => (.char c :: ps, s)
  | some '\\' :: _ => none
  | some c :: r =>
    if c.toNat < 0x20 then none else (scanString r).map fun (ps, s) => (.char c :: ps, s)

def isHighSurrogate (n : Nat) : Bool := 0xD800 ≤ n && n < 0xDC00

def isLowSurrogate (n : Nat) : Bool := 0xDC00 ≤ n && n < 0xE000

def fromSurrogates (hi lo : Nat) : Char :=
  Char.ofNat (0x10000 + 1024 * (hi - 0xD800) + (lo - 0xDC00))

def assemble : List Piece → Option (List Char)
  | [] => some []
  | .char c :: ps => (assemble ps).map (c :: ·)
  | .unknown :: _ => none
  | .unit hi :: ps =>
    if isLowSurrogate hi then none
    else if isHighSurrogate hi then
      match ps with
      | .unit lo :: ps =>
        if isLowSurrogate lo then (assemble ps).map (fromSurrogates hi lo :: ·) else none
      | _ => none
    else (assemble ps).map (Char.ofNat hi :: ·)

def isDigit? : Option Char → Bool
  | some c => Text.isAsciiDigit c
  | none => false

def spanDigits : Source → List Char × Source
  | some c :: r =>
    if Text.isAsciiDigit c then ((c :: (spanDigits r).1), (spanDigits r).2) else ([], some c :: r)
  | r => ([], r)

def scanFraction : Source → Option (List Char × Source)
  | some '.' :: r =>
    match spanDigits r with
    | ([], _) => none
    | (ds, s) => some (ds, s)
  | r => some ([], r)

def scanSign : Source → Bool × Source
  | some '-' :: r => (true, r)
  | some '+' :: r => (false, r)
  | r => (false, r)

def scanExponent : Source → Option (Option Int × Source)
  | some e :: r =>
    if e = 'e' ∨ e = 'E' then
      match spanDigits (scanSign r).2 with
      | ([], _) => none
      | (ds, s) =>
        let n : Int := Text.foldDigits 0 ds
        some (some (if (scanSign r).1 then -n else n), s)
    else some (none, some e :: r)
  | r => some (none, r)

def Number.ofParts (negative : Bool) (ds fs : List Char) (e : Option Int) : Number :=
  let m : Int := Text.foldDigits 0 (ds ++ fs)
  let m := if negative then -m else m
  if fs = [] ∧ e = none ∧ ¬ (negative = true ∧ m = 0) then .whole m
  else .scaled m (e.getD 0 - fs.length)

def scanNumber (negative : Bool) (r : Source) : Option (Number × Source) :=
  match spanDigits r with
  | ([], _) => none
  | ('0' :: _ :: _, _) => none
  | (ds, r) =>
    match scanFraction r with
    | none => none
    | some (fs, r) =>
      match scanExponent r with
      | none => none
      | some (e, r) => some (.ofParts negative ds fs e, r)

def scanWord (word : List Char) (t : Token) (r : Source) : Option (Token × Source) :=
  if word.map some = r.take word.length then some (t, r.drop word.length) else none

def scanToken (c : Char) (r : Source) : Option (Token × Source) :=
  match c with
  | '\x7b' => some (.beginObject, r)
  | '\x7d' => some (.endObject, r)
  | '[' => some (.beginArray, r)
  | ']' => some (.endArray, r)
  | ':' => some (.colon, r)
  | ',' => some (.comma, r)
  | 'n' => scanWord ['u', 'l', 'l'] .null r
  | 't' => scanWord ['r', 'u', 'e'] (.bool true) r
  | 'f' => scanWord ['a', 'l', 's', 'e'] (.bool false) r
  | '"' => (scanString r).map fun (ps, s) => (.str ((assemble ps).map String.ofList), s)
  | '-' => (scanNumber true r).map fun (n, s) => (.num n, s)
  | c => if Text.isAsciiDigit c then (scanNumber false (some c :: r)).map fun (n, s) => (.num n, s)
    else none

def isSpace (c : Char) : Bool := c = ' ' || c = '\n' || c = '\t' || c = '\r'

theorem scanString_length {cs r : Source} {ps : List Piece} (h : scanString cs = some (ps, r)) :
    r.length < cs.length := by
  fun_induction scanString cs generalizing ps r <;> simp_all <;> grind

theorem spanDigits_length (cs : Source) :
    (spanDigits cs).2.length + (spanDigits cs).1.length = cs.length := by
  fun_induction spanDigits cs <;> simp_all
  omega

theorem scanFraction_length {cs r : Source} {ds : List Char} (h : scanFraction cs = some (ds, r)) :
    r.length ≤ cs.length := by
  unfold scanFraction at h
  split at h
  · next t =>
    have := spanDigits_length t
    split at h
    · simp at h
    · next ds s e => simp only [Option.some.injEq, Prod.mk.injEq] at h; simp_all; omega
  · simp_all

theorem scanSign_length (cs : Source) : (scanSign cs).2.length ≤ cs.length := by
  unfold scanSign
  split <;> simp

theorem scanExponent_length {cs r : Source} {e : Option Int} (h : scanExponent cs = some (e, r)) :
    r.length ≤ cs.length := by
  unfold scanExponent at h
  split at h
  · next c t =>
    have hs := scanSign_length t
    have hd := spanDigits_length (scanSign t).2
    split at h
    · split at h
      · simp at h
      · next ds s _ eq => rw [eq] at hd; simp_all; omega
    · simp_all
  · simp_all

theorem scanNumber_length {cs r : Source} {b : Bool} {n : Number}
    (h : scanNumber b cs = some (n, r)) : r.length < cs.length := by
  unfold scanNumber at h
  have hd := spanDigits_length cs
  split at h
  · simp at h
  · simp at h
  · next ds s hne _ eq =>
    rw [eq] at hd
    have : ds ≠ [] := hne
    have : 0 < ds.length := List.length_pos_iff.2 this
    split at h
    · simp at h
    · next hf =>
      have := scanFraction_length hf
      split at h
      · simp at h
      · next he =>
        have := scanExponent_length he
        simp_all
        omega

theorem scanToken_length {c : Char} {r s : Source} {t : Token}
    (h : scanToken c r = some (t, s)) : s.length ≤ r.length := by
  unfold scanToken at h
  split at h
  case h_7 | h_8 | h_9 =>
    unfold scanWord at h
    split at h
    · simp only [Option.some.injEq, Prod.mk.injEq] at h; simp [← h.2]
    · simp at h
  case h_10 =>
    obtain ⟨⟨ps, u⟩, hu, e⟩ := Option.map_eq_some_iff.1 h
    have hs : u = s := congrArg Prod.snd e
    exact hs ▸ Nat.le_of_lt (scanString_length hu)
  case h_11 =>
    obtain ⟨⟨n, u⟩, hu, e⟩ := Option.map_eq_some_iff.1 h
    have hs : u = s := congrArg Prod.snd e
    exact hs ▸ Nat.le_of_lt (scanNumber_length hu)
  case h_12 =>
    split at h
    · obtain ⟨⟨n, u⟩, hu, e⟩ := Option.map_eq_some_iff.1 h
      have hs : u = s := congrArg Prod.snd e
      exact hs ▸ Nat.le_of_lt_succ (scanNumber_length hu)
    · simp at h
  all_goals simp_all

def scan : Source → List Token
  | [] => []
  | none :: _ => [.bad]
  | some c :: r =>
    if isSpace c then scan r
    else match _h : scanToken c r with
      | none => [.bad]
      | some (t, s) => t :: scan s
  termination_by cs => cs.length
  decreasing_by
  · simp
  · have := scanToken_length _h; simp; omega

end Handoff.Json
