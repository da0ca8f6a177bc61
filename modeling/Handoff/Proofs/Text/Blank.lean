import Handoff.Text.Blank

namespace Handoff.Text

theorem mem_trimStart {cs : List Char} {c : Char} (hc : c ∈ cs) (hb : isBlank c = false) :
    c ∈ trimStart cs := by
  rw [← List.takeWhile_append_dropWhile (p := isBlank) (l := cs), List.mem_append] at hc
  obtain hc | hc := hc
  · cases hb.symm.trans (List.all_eq_true.1 List.all_takeWhile c hc)
  · exact hc

theorem mem_trimChars {cs : List Char} {c : Char} (hc : c ∈ cs) (hb : isBlank c = false) :
    c ∈ trimChars cs := by
  rw [trimChars, trimEnd, List.mem_reverse]
  exact mem_trimStart (List.mem_reverse.2 (mem_trimStart hc hb)) hb

theorem trimStart_append {bs : List Char} (hb : bs.all isBlank = true) (cs : List Char) :
    trimStart (bs ++ cs) = trimStart cs := List.dropWhile_append_of_pos (List.all_eq_true.1 hb)

theorem trimEnd_append {bs : List Char} (hb : bs.all isBlank = true) (cs : List Char) :
    trimEnd (cs ++ bs) = trimEnd cs := by
  have hr : bs.reverse.all isBlank = true := by rwa [List.all_reverse]
  rw [trimEnd, List.reverse_append, trimStart_append hr, trimEnd]

theorem trimEnd_append_cons {c : Char} (hc : isBlank c = false) (cs ds : List Char) :
    trimEnd (cs ++ c :: ds) = cs ++ c :: trimEnd ds := by
  have hs : trimStart (c :: cs.reverse) = c :: cs.reverse :=
    trimStart_eq_self fun d hd => Option.some.inj hd ▸ hc
  have hr : (cs ++ c :: ds).reverse = ds.reverse ++ c :: cs.reverse := by simp
  rw [trimEnd, hr, trimEnd, trimStart, List.dropWhile_append, ← trimStart, ← trimStart, hs]
  split
  · next h =>
    rw [List.isEmpty_iff.1 h]
    simp
  · simp

theorem head?_trimStart {cs : List Char} : ∀ c ∈ (trimStart cs).head?, isBlank c = false := by
  induction cs with
  | nil => simp
  | cons c cs ih =>
    cases hc : isBlank c with
    | true => simpa [trimStart, hc] using ih
    | false => simp [trimStart, hc]

theorem head?_trimChars (cs : List Char) : ∀ c ∈ (trimChars cs).head?, isBlank c = false := by
  intro c hc
  obtain ⟨bs, hbs⟩ : ∃ bs, trimStart cs = trimChars cs ++ bs := by
    obtain ⟨bs, hbs⟩ := List.dropWhile_suffix (l := (trimStart cs).reverse) isBlank
    refine ⟨bs.reverse, ?_⟩
    have hr := congrArg List.reverse hbs
    rw [List.reverse_append, List.reverse_reverse] at hr
    exact hr.symm
  have hs : c ∈ (trimStart cs).head? := by
    rw [hbs, List.head?_append, Option.mem_def.1 hc]
    rfl
  exact head?_trimStart c hs

theorem getLast?_trimChars (cs : List Char) :
    ∀ c ∈ (trimChars cs).getLast?, isBlank c = false := by
  intro c hc
  rw [trimChars, trimEnd, List.getLast?_reverse] at hc
  exact head?_trimStart c hc

theorem trimChars_of_ends {cs : List Char} (hh : ∀ c ∈ cs.head?, isBlank c = false)
    (hl : ∀ c ∈ cs.getLast?, isBlank c = false) : trimChars cs = cs := by
  rw [trimChars, trimStart_eq_self hh, trimEnd_eq_self hl]

theorem trimChars_trimChars (cs : List Char) : trimChars (trimChars cs) = trimChars cs :=
  trimChars_of_ends (head?_trimChars cs) (getLast?_trimChars cs)

theorem trimChars_pad {as bs cs : List Char} (ha : as.all isBlank = true)
    (hb : bs.all isBlank = true) (hc : trimChars cs = cs) : trimChars (as ++ (cs ++ bs)) = cs := by
  have hs : trimStart (as ++ (cs ++ bs)) = trimStart (cs ++ bs) := trimStart_append ha _
  cases cs with
  | nil =>
    have hn := trimStart_append hb []
    rw [List.append_nil, trimStart_nil] at hn
    rw [trimChars, hs, List.nil_append, hn, trimEnd_nil]
  | cons c cs =>
    have hh := head?_trimChars (c :: cs)
    have hl := getLast?_trimChars (c :: cs)
    rw [hc] at hh hl
    have ht : trimStart (c :: cs ++ bs) = c :: cs ++ bs := trimStart_eq_self hh
    rw [trimChars, hs, ht, trimEnd_append hb]
    exact trimEnd_eq_self hl

theorem nonBlank_eq_trim {s : String} (h : ∃ c ∈ s.toList, isBlank c = false) :
    nonBlank s = some (trim s) := by
  obtain ⟨c, hc, hb⟩ := h
  have hm : c ∈ (trim s).toList := by
    rw [toList_trim]
    exact mem_trimChars hc hb
  have hn : (trim s).isEmpty = false := by
    rw [Bool.eq_false_iff, ne_eq, String.isEmpty_iff]
    rintro he
    rw [he] at hm
    cases hm
  rw [nonBlank, hn]
  rfl

theorem nonBlank_eq_some_iff {s t : String} : nonBlank s = some t ↔ trim s = t ∧ t ≠ "" := by
  rw [nonBlank]
  split
  · next he =>
    rw [String.isEmpty_iff] at he
    constructor
    · nofun
    · exact fun h => absurd (h.1.symm.trans he) h.2
  · next he =>
    rw [String.isEmpty_iff] at he
    constructor
    · rintro ⟨⟩
      exact ⟨rfl, he⟩
    · exact fun h => congrArg some h.1

theorem trim_of_nonBlank {s t : String} (h : nonBlank s = some t) : trim t = t := by
  rw [← (nonBlank_eq_some_iff.1 h).1, ← String.toList_inj, toList_trim, toList_trim,
    trimChars_trimChars]

structure Tidy (s : String) : Prop where
  trimmed : trim s = s
  nonempty : s ≠ ""

theorem tidy_of_nonBlank {s t : String} (h : nonBlank s = some t) : Tidy t :=
  ⟨trim_of_nonBlank h, (nonBlank_eq_some_iff.1 h).2⟩

theorem Tidy.nonBlank {s : String} (h : Tidy s) : nonBlank s = some s :=
  nonBlank_eq_some_iff.2 ⟨h.trimmed, h.nonempty⟩

theorem nonBlank_eq_none_iff {s : String} :
    nonBlank s = none ↔ ∀ c ∈ s.toList, isBlank c = true := by
  constructor
  · intro hn c hc
    cases hb : isBlank c with
    | true => rfl
    | false =>
      rw [nonBlank_eq_trim ⟨c, hc, hb⟩] at hn
      cases hn
  · intro h
    have hs := trimStart_append (List.all_eq_true.2 h) []
    rw [List.append_nil, trimStart_nil] at hs
    have ht : trim s = "" := by
      rw [← String.toList_inj, toList_trim, trimChars, hs]
      rfl
    rw [nonBlank, ht]
    rfl

theorem exists_nonBlank_iff {s : String} :
    (∃ t, nonBlank s = some t) ↔ ∃ c ∈ s.toList, isBlank c = false := by
  rw [← Option.ne_none_iff_exists', ne_eq, nonBlank_eq_none_iff]
  simp

end Handoff.Text
