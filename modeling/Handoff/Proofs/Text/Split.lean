import Handoff.Text.Split

namespace Handoff.Text

variable {sep : Char} {p : List Char} {ps : List (List Char)}

theorem splitChars_append_cons (sep : Char) (cs ds : List Char) :
    splitChars sep (cs ++ sep :: ds) = splitChars sep cs ++ splitChars sep ds := by
  induction cs with
  | nil => simp [splitChars]
  | cons c cs ih =>
    obtain ⟨p, ps, hp⟩ := List.exists_cons_of_ne_nil (splitChars_ne_nil sep cs)
    by_cases h : c = sep
    · simp [splitChars, h, ih]
    · simp [splitChars, h, ih, hp]

theorem splitCharsAtMost_append (hp : sep ∉ p) (n : Nat) (cs : List Char) :
    splitCharsAtMost sep (n + 1) (p ++ sep :: cs) = p :: splitCharsAtMost sep n cs := by
  induction p with
  | nil => simp [splitCharsAtMost]
  | cons c p ih =>
    rw [List.mem_cons, not_or] at hp
    simp [splitCharsAtMost, Ne.symm hp.1, ih hp.2]

theorem splitCharsAtMost_of_not_mem (hp : sep ∉ p) (n : Nat) : splitCharsAtMost sep n p = [p] := by
  cases n with
  | zero => rw [splitCharsAtMost]
  | succ n =>
    induction p with
    | nil => rw [splitCharsAtMost]
    | cons c p ih =>
      rw [List.mem_cons, not_or] at hp
      simp [splitCharsAtMost, Ne.symm hp.1, ih hp.2]

theorem joinChars_singleton (sep p : List Char) : joinChars sep [p] = p := by rw [joinChars]

theorem joinChars_cons_cons (sep : Char) (p q : List Char) (ps : List (List Char)) :
    joinChars [sep] (p :: q :: ps) = p ++ sep :: joinChars [sep] (q :: ps) := by
  rw [joinChars, List.append_assoc, List.singleton_append]

theorem mem_joinChars {c : Char} {sep : List Char} (h : c ∈ joinChars sep ps) :
    c ∈ sep ∨ ∃ p ∈ ps, c ∈ p := by
  fun_induction joinChars sep ps with
  | case1 => cases h
  | case2 p => exact .inr ⟨p, List.mem_cons_self, h⟩
  | case3 p q ps ih =>
    rw [List.mem_append, List.mem_append] at h
    obtain (h | h) | h := h
    · exact .inr ⟨p, List.mem_cons_self, h⟩
    · exact .inl h
    · exact (ih h).imp_right fun ⟨r, hr, hc⟩ => ⟨r, List.mem_cons_of_mem _ hr, hc⟩

end Handoff.Text
