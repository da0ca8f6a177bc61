import Handoff.Log.Setup
import Handoff.Proofs.Log.Calendar
import Handoff.Proofs.Text.Digits
import Mathlib.Data.List.TakeWhile

namespace Handoff.Log

variable {n width : Nat} {cs ds rest : List Char} {d : Date}

section Padded

theorem length_padded (width : Nat) (hn : n < Nat.pow 10 (width + 1)) :
    (padded (width + 1) n).length = width + 1 := by
  have h := Text.length_natChars_le hn
  rw [padded, List.length_append, List.length_replicate]
  omega

theorem isAsciiDigit_of_mem_padded : ∀ c ∈ padded width n, Text.isAsciiDigit c = true := by
  intro c hc
  rw [padded, List.mem_append, List.mem_replicate] at hc
  obtain ⟨-, rfl⟩ | hc := hc
  · decide
  · exact Text.isAsciiDigit_of_mem_natChars c hc

theorem foldDigits_replicate (k : Nat) (cs : List Char) :
    Text.foldDigits 0 (List.replicate k '0' ++ cs) = Text.foldDigits 0 cs := by
  induction k with
  | zero => rfl
  | succ k ih =>
    rw [List.replicate_succ, List.cons_append]
    exact ih

theorem foldDigits_padded (width n : Nat) : Text.foldDigits 0 (padded width n) = n := by
  rw [padded, foldDigits_replicate, Text.foldDigits_natChars]

end Padded

namespace Date

theorem isBlank_of_isAsciiDigit {c : Char} (hc : Text.isAsciiDigit c = true) :
    Text.isBlank c = false :=
  Text.forall_isHexDigit (p := fun c => Text.isBlank c = false) (by decide)
    (Text.isHexDigit_of_isAsciiDigit hc)

theorem trimStart_of_digits (hd : ∀ c ∈ ds, Text.isAsciiDigit c = true) (hn : ds ≠ [])
    (rest : List Char) : Text.trimStart (ds ++ rest) = ds ++ rest := by
  obtain ⟨c, ds, rfl⟩ := List.exists_cons_of_ne_nil hn
  exact Text.trimStart_eq_self fun b hb =>
    Option.some.inj hb ▸ isBlank_of_isAsciiDigit (hd c List.mem_cons_self)

theorem readDigits_append (hd : ∀ c ∈ ds, Text.isAsciiDigit c = true) (hn : ds ≠ [])
    (rest : List Char) :
    readDigits ds.length (ds ++ rest) = some (Text.foldDigits 0 ds, rest) := by
  have hall : ds.all Text.isAsciiDigit = true := List.all_eq_true.2 hd
  have ht : ((ds ++ rest).take ds.length).takeWhile Text.isAsciiDigit = ds := by
    rw [List.take_left' rfl, List.takeWhile_eq_self_iff.2 hd]
  rw [readDigits]
  rw [trimStart_of_digits hd hn, ht, Text.readDigits, if_pos ⟨hn, hall⟩, Option.map_some,
    List.drop_left' rfl]

theorem readDigits_padded (width : Nat) (hn : n < Nat.pow 10 (width + 1)) (rest : List Char) :
    readDigits (width + 1) (padded (width + 1) n ++ rest) = some (n, rest) := by
  have hl := length_padded width hn
  have hne : padded (width + 1) n ≠ [] := List.ne_nil_of_length_eq_add_one hl
  have h := readDigits_append isAsciiDigit_of_mem_padded hne rest
  rwa [hl, foldDigits_padded] at h

theorem readYear_padded (hn : n < 10000) (rest : List Char) :
    readYear (padded 4 n ++ rest) = some ((n : Int), rest) := by
  have hne : padded 4 n ≠ [] := List.ne_nil_of_length_eq_add_one (length_padded 3 hn)
  have hsign {c : Char} {r : List Char} (h : padded 4 n ++ rest = c :: r) :
      Text.isAsciiDigit c = true := by
    obtain ⟨b, ds, hb⟩ := List.exists_cons_of_ne_nil hne
    rw [hb] at h
    cases h
    exact isAsciiDigit_of_mem_padded c (hb ▸ List.mem_cons_self)
  rw [readYear, trimStart_of_digits isAsciiDigit_of_mem_padded hne]
  split
  · next h => cases hsign h
  · next h => cases hsign h
  · rw [readDigits_padded 3 hn]
    rfl

theorem parse_text (hv : d.isValid = true) (hy : 0 ≤ d.year ∧ d.year ≤ 9999) :
    parse d.text = some d := by
  obtain ⟨year, month, day⟩ := d
  obtain ⟨y, rfl⟩ := Int.eq_ofNat_of_zero_le hy.1
  have hproper := proper_of_isValid hv
  have hmonth := hproper.month.2
  have hday := Nat.le_trans hproper.day.2 (monthLength_bounds _ _).2
  dsimp only at hy hmonth hday
  have htext : (text ⟨y, month, day⟩).toList =
      padded 4 y ++ '-' :: (padded 2 month ++ '-' :: (padded 2 day ++ [])) := by
    rw [text, String.toList_ofList, if_neg (Int.not_lt.2 hy.1)]
    simp
  have hyear := readYear_padded (n := y) (by omega)
    ('-' :: (padded 2 month ++ '-' :: (padded 2 day ++ [])))
  rw [parse, htext, hyear]
  simp only [Option.bind_eq_bind, Option.bind_some, readHyphen]
  rw [readDigits_padded 1 (by simp; omega)]
  simp only [Option.bind_some]
  rw [readDigits_padded 1 (by simp; omega)]
  simp only [Option.bind_some]
  exact if_pos ⟨trivial, hv⟩

theorem dot_not_mem_text (d : Date) : '.' ∉ d.text.toList := by
  have hp {w n : Nat} : '.' ∉ padded w n := fun hm => by
    cases isAsciiDigit_of_mem_padded '.' hm
  rw [text, String.toList_ofList]
  split <;> simp [hp]

end Date

/-- The log of some service for the day, `<service>.log.YYYY-MM-DD`. -/
def IsLog (day : Date) (name : String) : Prop :=
  day.isValid = true ∧ 0 ≤ day.year ∧ day.year ≤ 9999 ∧ ∃ service, name = fileName service day

theorem isValid_of_dayOf {name : String} (h : dayOf name = some d) : d.isValid = true := by
  rw [dayOf, Date.parse] at h
  simp only [Option.bind_eq_bind, Option.bind_eq_some_iff] at h
  obtain ⟨_, -, _, -, _, -, _, -, _, -, h⟩ := h
  split at h
  · next hv =>
    cases h
    exact hv.2
  · cases h

theorem extension_append {t : String} (ht : '.' ∉ t.toList) (s : String) :
    extension (s ++ "." ++ t) = t := by
  have hr : (s ++ "." ++ t).toList.reverse = t.toList.reverse ++ '.' :: s.toList.reverse := by simp
  have hd : ∀ c ∈ t.toList.reverse, decide (c ≠ '.') = true := by
    intro c hc
    refine decide_eq_true ?_
    rintro rfl
    exact ht (List.mem_reverse.1 hc)
  rw [extension, hr, List.takeWhile_append_of_pos hd, List.takeWhile_cons_of_neg (by decide),
    List.append_nil, List.reverse_reverse, String.ofList_toList]

theorem IsLog.dayOf {name : String} (h : IsLog d name) : dayOf name = some d := by
  obtain ⟨hv, hl, hu, service, rfl⟩ := h
  have hf : fileName service d = service ++ ".log" ++ "." ++ d.text := by
    rw [fileName, ← String.toList_inj]
    simp
  rw [Log.dayOf, hf, extension_append d.dot_not_mem_text, Date.parse_text hv ⟨hl, hu⟩]

end Handoff.Log
