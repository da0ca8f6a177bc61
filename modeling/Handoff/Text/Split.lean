
namespace Handoff.Text

def splitChars (sep : Char) : List Char → List (List Char)
  | [] => [[]]
  | c :: cs =>
    if c = sep then [] :: splitChars sep cs
    else match splitChars sep cs with
      | [] => [[c]]
      | p :: ps => (c :: p) :: ps

theorem splitChars_ne_nil (sep : Char) (cs : List Char) : splitChars sep cs ≠ [] := by
  cases cs with
  | nil => simp [splitChars]
  | cons c cs =>
    unfold splitChars
    split
    · simp
    · split <;> simp

/-- At most `n + 1` pieces: the last one keeps its separators. -/
def splitCharsAtMost (sep : Char) : Nat → List Char → List (List Char)
  | 0, cs => [cs]
  | _ + 1, [] => [[]]
  | n + 1, c :: cs =>
    if c = sep then [] :: splitCharsAtMost sep n cs
    else match splitCharsAtMost sep (n + 1) cs with
      | [] => [[c]]
      | p :: ps => (c :: p) :: ps

def cutChars (sep : Char) : List Char → Option (List Char × List Char)
  | [] => none
  | c :: cs => if c = sep then some ([], cs) else (cutChars sep cs).map fun (a, b) => (c :: a, b)

theorem eq_append_of_cutChars {sep : Char} {cs a b : List Char}
    (h : cutChars sep cs = some (a, b)) : cs = a ++ sep :: b := by
  induction cs generalizing a with
  | nil => simp [cutChars] at h
  | cons c cs ih =>
    unfold cutChars at h
    split at h
    · next hc => cases h; simp [hc]
    · obtain ⟨⟨x, y⟩, hxy, e⟩ := Option.map_eq_some_iff.1 h
      cases e
      simp [ih hxy]

theorem cutChars_append {sep : Char} {a : List Char} (ha : sep ∉ a) (b : List Char) :
    cutChars sep (a ++ sep :: b) = some (a, b) := by
  induction a with
  | nil => simp [cutChars]
  | cons c a ih =>
    rw [List.mem_cons, not_or] at ha
    simp [cutChars, Ne.symm ha.1, ih ha.2]

def joinChars (sep : List Char) : List (List Char) → List Char
  | [] => []
  | [p] => p
  | p :: q :: ps => p ++ sep ++ joinChars sep (q :: ps)

theorem splitChars_append {sep : Char} {p : List Char} (hp : sep ∉ p) (cs : List Char) :
    splitChars sep (p ++ sep :: cs) = p :: splitChars sep cs := by
  induction p with
  | nil => simp [splitChars]
  | cons c p ih =>
    rw [List.mem_cons, not_or] at hp
    simp [splitChars, Ne.symm hp.1, ih hp.2]

theorem splitChars_of_not_mem {sep : Char} {p : List Char} (hp : sep ∉ p) :
    splitChars sep p = [p] := by
  induction p with
  | nil => rfl
  | cons c p ih =>
    rw [List.mem_cons, not_or] at hp
    simp [splitChars, Ne.symm hp.1, ih hp.2]

theorem splitChars_joinChars {sep : Char} {p : List Char} {ps : List (List Char)}
    (hp : ∀ q ∈ p :: ps, sep ∉ q) : splitChars sep (joinChars [sep] (p :: ps)) = p :: ps := by
  induction ps generalizing p with
  | nil => exact splitChars_of_not_mem (hp p List.mem_cons_self)
  | cons q ps ih =>
    rw [List.forall_mem_cons] at hp
    rw [joinChars, List.append_assoc, List.singleton_append, splitChars_append hp.1, ih hp.2]

theorem joinChars_splitChars (sep : Char) (cs : List Char) :
    joinChars [sep] (splitChars sep cs) = cs := by
  induction cs with
  | nil => rfl
  | cons c cs ih =>
    obtain ⟨p, ps, hp⟩ := List.exists_cons_of_ne_nil (splitChars_ne_nil sep cs)
    rw [hp] at ih
    by_cases h : c = sep
    · simp [splitChars, joinChars, h, hp, ih]
    · cases ps <;> simp_all [splitChars, joinChars]

theorem not_mem_of_mem_splitChars {sep : Char} {p cs : List Char} (hp : p ∈ splitChars sep cs) :
    sep ∉ p := by
  induction cs generalizing p with
  | nil => simp_all [splitChars]
  | cons c cs ih =>
    obtain ⟨q, qs, hq⟩ := List.exists_cons_of_ne_nil (splitChars_ne_nil sep cs)
    rw [hq, List.forall_mem_cons] at ih
    by_cases h : c = sep
    · simp only [splitChars, h, if_true, hq, List.mem_cons] at hp
      obtain rfl | rfl | hp := hp
      · exact List.not_mem_nil
      · exact ih.1
      · exact ih.2 _ hp
    · simp only [splitChars, h, if_false, hq, List.mem_cons] at hp
      obtain rfl | hp := hp
      · simpa [Ne.symm h] using ih.1
      · exact ih.2 _ hp

def splitOn (sep : Char) (s : String) : List String :=
  (splitChars sep s.toList).map String.ofList

def cut (sep : Char) (s : String) : Option (String × String) :=
  (cutChars sep s.toList).map fun (a, b) => (String.ofList a, String.ofList b)

def join (sep : String) (ps : List String) : String :=
  String.ofList (joinChars sep.toList (ps.map String.toList))

def after? (front : List Char) (cs : List Char) : Option (List Char) :=
  match front, cs with
  | [], cs => some cs
  | _ :: _, [] => none
  | f :: front, c :: cs => if f = c then after? front cs else none

theorem after?_eq_some_iff {front cs rest : List Char} :
    after? front cs = some rest ↔ cs = front ++ rest := by
  induction front generalizing cs with
  | nil => simp [after?]
  | cons f front ih =>
    cases cs with
    | nil => simp [after?]
    | cons c cs =>
      by_cases h : f = c
      · simp [after?, h, ih]
      · simp [after?, h, Ne.symm h]

def startsWith (front s : String) : Bool := (after? front.toList s.toList).isSome

def containsChars (part : List Char) : List Char → Bool
  | [] => part.isEmpty
  | c :: cs => (after? part (c :: cs)).isSome || containsChars part cs

def contains (part s : String) : Bool := containsChars part.toList s.toList

def lowerAscii (c : Char) : Char :=
  if 'A' ≤ c ∧ c ≤ 'Z' then Char.ofNat (c.toNat + 32) else c

def lower (s : String) : String := String.ofList (s.toList.map lowerAscii)

def sameIgnoringCase (a b : String) : Bool := lower a == lower b

def isAsciiDigit (c : Char) : Bool := '0' ≤ c && c ≤ '9'

def isAsciiLetter (c : Char) : Bool := ('a' ≤ c && c ≤ 'z') || ('A' ≤ c && c ≤ 'Z')

def isAsciiAlnum (c : Char) : Bool := isAsciiDigit c || isAsciiLetter c

def isHexDigit (c : Char) : Bool :=
  isAsciiDigit c || ('a' ≤ c && c ≤ 'f') || ('A' ≤ c && c ≤ 'F')

end Handoff.Text
