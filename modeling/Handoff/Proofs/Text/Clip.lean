import Handoff.Proofs.Text.Utf8
import Handoff.Text.Clip

namespace Handoff.Text

open Utf8

variable {bs : List UInt8} {i j n : Nat}

section Boundaries

theorem isBoundary_zero (bs : List UInt8) : isBoundary bs 0 = true := by simp [isBoundary]

theorem isBoundary_length (bs : List UInt8) : isBoundary bs bs.length = true := by
  simp [isBoundary]

theorem isBoundary_of_get {a : UInt8} (ha : bs[i]? = some a) (hi : i ≠ 0) :
    isBoundary bs i = (tailBits a).isNone := by
  simp [isBoundary, ha, hi]

theorem isBoundary_append (cs : List UInt8) (hi : i ≠ 0) :
    isBoundary (cs ++ bs) (cs.length + i) = isBoundary bs i := by
  rw [isBoundary, isBoundary, List.getElem?_append_right (Nat.le_add_right _ _),
    Nat.add_sub_cancel_left]
  simp [hi]

theorem isBoundary_within (c : Char) (bs : List UInt8) (hi : i ≠ 0) (hw : i < width c) :
    isBoundary (encodeChar c ++ bs) i = false := by
  obtain ⟨a, tail, he, -, ht⟩ := exists_encodeChar c
  obtain ⟨k, rfl⟩ := Nat.exists_eq_add_one_of_ne_zero hi
  have hk : k < tail.length := by
    rw [width, he, List.length_cons] at hw
    omega
  have hb : (encodeChar c ++ bs)[k + 1]? = some tail[k] := by
    rw [he, List.cons_append, List.getElem?_cons_succ, List.getElem?_append_left hk,
      List.getElem?_eq_getElem hk]
  rw [isBoundary_of_get hb hi, Option.isNone_eq_false_iff]
  exact ht _ (List.getElem_mem hk)

theorem isBoundary_before (ps qs : List Char) :
    isBoundary (encodeChars (ps ++ qs)) (encodeChars ps).length = true := by
  rw [encodeChars_append]
  cases qs with
  | nil =>
    rw [show encodeChars [] = [] from rfl, List.append_nil]
    exact isBoundary_length _
  | cons c qs =>
    obtain ⟨a, tail, he, ha, -⟩ := exists_encodeChar c
    have hb : (encodeChars ps ++ encodeChars (c :: qs))[(encodeChars ps).length]? = some a := by
      rw [List.getElem?_append_right (Nat.le_refl _), Nat.sub_self, encodeChars_cons, he,
        List.cons_append, List.getElem?_cons_zero]
    rw [isBoundary, hb]
    simp [ha]

/-- The boundaries in the octets of a text are the places between its characters. -/
theorem exists_of_isBoundary {cs : List Char} (h : isBoundary (encodeChars cs) i = true) :
    ∃ ps qs, cs = ps ++ qs ∧ (encodeChars ps).length = i := by
  induction cs generalizing i with
  | nil =>
    have hi : i = 0 := by simpa [isBoundary, encodeChars] using h
    exact ⟨[], [], rfl, hi.symm⟩
  | cons c cs ih =>
    rw [encodeChars_cons] at h
    by_cases hi : i = 0
    · exact ⟨[], c :: cs, rfl, hi.symm⟩
    · by_cases hw : i < width c
      · cases (isBoundary_within c _ hi hw).symm.trans h
      · obtain ⟨k, rfl⟩ := Nat.exists_eq_add_of_le (Nat.not_lt.1 hw)
        by_cases hk : k = 0
        · subst hk
          exact ⟨[c], cs, rfl, by rw [encodeChars_cons]; exact List.length_append⟩
        · rw [width, isBoundary_append _ hk] at h
          obtain ⟨ps, qs, rfl, rfl⟩ := ih h
          exact ⟨c :: ps, qs, rfl, by rw [encodeChars_cons, List.length_append]; rfl⟩

theorem isBoundary_encode_iff (s : String) (i : Nat) :
    isBoundary (encode s) i = true ↔ ∃ p q, s = p ++ q ∧ size p = i := by
  constructor
  · intro h
    obtain ⟨ps, qs, hs, hi⟩ := exists_of_isBoundary h
    refine ⟨.ofList ps, .ofList qs, ?_, ?_⟩
    · rw [← String.ofList_append, ← hs, String.ofList_toList]
    · rwa [size, encode, String.toList_ofList]
  · rintro ⟨p, q, rfl, rfl⟩
    rw [encode, String.toList_append]
    exact isBoundary_before _ _

end Boundaries

section Cuts

theorem exists_cutFrom? (bs : List UInt8) (n : Nat) : ∃ i ≤ n, cutFrom? bs n = some i := by
  induction n with
  | zero => exact ⟨0, Nat.le_refl 0, if_pos (isBoundary_zero bs)⟩
  | succ n ih =>
    rw [cutFrom?]
    split
    · exact ⟨_, Nat.le_refl _, rfl⟩
    · obtain ⟨i, hi, hc⟩ := ih
      exact ⟨i, Nat.le_succ_of_le hi, hc⟩

theorem isBoundary_of_cutFrom? (h : cutFrom? bs n = some i) : isBoundary bs i = true := by
  fun_induction cutFrom? bs n with
  | case1 hb | case3 k hb =>
    cases h
    exact hb
  | case2 => cases h
  | case4 k hb ih => exact ih h

theorem le_cutFrom? (h : cutFrom? bs n = some i) (hj : isBoundary bs j = true) (hn : j ≤ n) :
    j ≤ i := by
  fun_induction cutFrom? bs n with
  | case1 | case3 =>
    cases h
    exact hn
  | case2 => cases h
  | case4 k hb ih =>
    have hne : j ≠ k + 1 := fun he => hb (he ▸ hj)
    exact ih h (Nat.le_of_lt_succ (Nat.lt_of_le_of_ne hn hne))

end Cuts

/-- `t` is the longest start of `s`, up to a boundary, that fits the limit. -/
structure Clips (limit : Nat) (s t : String) : Prop where
  starts : ∃ rest, s = t ++ rest
  fits : size t ≤ limit
  bounded : isBoundary (encode s) (size t) = true
  longest : ∀ i ≤ limit, isBoundary (encode s) i = true → i ≤ size t

theorem clips_self {limit : Nat} {s : String} (h : size s ≤ limit) : Clips limit s s where
  starts := ⟨"", (String.append_empty).symm⟩
  fits := h
  bounded := isBoundary_length _
  longest i _ hb := by
    obtain ⟨p, q, rfl, rfl⟩ := (isBoundary_encode_iff s i).1 hb
    rw [size, size, encode_append, List.length_append]
    exact Nat.le_add_right _ _

theorem exists_clip? (limit : Nat) (s : String) : ∃ t, clip? limit s = some t ∧ Clips limit s t := by
  unfold clip?
  dsimp only
  split
  · next h => exact ⟨s, rfl, clips_self h⟩
  · obtain ⟨i, hle, hi⟩ := exists_cutFrom? (encode s) limit
    obtain ⟨p, q, rfl, rfl⟩ := (isBoundary_encode_iff s i).1 (isBoundary_of_cutFrom? hi)
    have ht : (encode (p ++ q)).take (size p) = encode p := by
      rw [encode_append, size, List.take_left]
    rw [hi, Option.bind_some, ht, decode_encode]
    exact ⟨p, rfl, ⟨q, rfl⟩, hle, isBoundary_of_cutFrom? hi,
      fun j hj hb => le_cutFrom? hi hb hj⟩

/-- Clipping comes to an end without going back beyond the start, and gives the longest start of the
text, on a boundary between characters, that fits the limit. -/
theorem clip_longest (limit : Nat) (s : String) :
    (∀ n, ∃ i ≤ n, cutFrom? (encode s) n = some i) ∧
      clip? limit s = some (clip limit s) ∧ Clips limit s (clip limit s) ∧
      ∀ i, isBoundary (encode s) i = true ↔ ∃ p q, s = p ++ q ∧ size p = i := by
  obtain ⟨t, ht, hc⟩ := exists_clip? limit s
  have he : clip limit s = t := by rw [clip, ht, Option.getD_some]
  rw [he]
  exact ⟨exists_cutFrom? _, ht, hc, isBoundary_encode_iff s⟩

example : clip 2 "héllo" = "h" := by decide +kernel

end Handoff.Text
