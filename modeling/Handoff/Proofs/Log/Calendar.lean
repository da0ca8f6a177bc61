import Handoff.Log.Retention
import Mathlib.Logic.Function.Iterate

namespace Handoff.Log.Date

variable {d e t : Date} {y z : Int} {m n : Nat}

structure Proper (d : Date) : Prop where
  month : 1 ≤ d.month ∧ d.month ≤ 12
  day : 1 ≤ d.day ∧ d.day ≤ monthLength d.year d.month

theorem isValid_iff : d.isValid = true ↔ d.Proper ∧ minYear ≤ d.year ∧ d.year ≤ maxYear := by
  rw [isValid, decide_eq_true_iff]
  constructor
  · rintro ⟨h₁, h₂, h₃, h₄, h₅, h₆⟩
    exact ⟨⟨⟨h₃, h₄⟩, h₅, h₆⟩, h₁, h₂⟩
  · rintro ⟨⟨⟨h₃, h₄⟩, h₅, h₆⟩, h₁, h₂⟩
    exact ⟨h₁, h₂, h₃, h₄, h₅, h₆⟩

def next (d : Date) : Date :=
  if d.day < monthLength d.year d.month then { d with day := d.day + 1 }
  else if d.month < 12 then ⟨d.year, d.month + 1, 1⟩
  else ⟨d.year + 1, 1, 1⟩

def Before (d e : Date) : Prop :=
  d.year < e.year ∨ d.year = e.year ∧ (d.month < e.month ∨ d.month = e.month ∧ d.day < e.day)

instance (d e : Date) : Decidable (d.Before e) := inferInstanceAs (Decidable (_ ∨ _))

def last : Date := ⟨maxYear, 12, 31⟩

section Years

def yearStart (y : Int) : Int :=
  365 * (y - 1) + Int.fdiv (y - 1) 4 - Int.fdiv (y - 1) 100 + Int.fdiv (y - 1) 400

def yearLength (y : Int) : Nat := if isLeap y then 366 else 365

theorem yearStart_eq (y : Int) :
    yearStart y = 365 * (y - 1) + (y - 1) / 4 - (y - 1) / 100 + (y - 1) / 400 := by
  have h (k : Int) (hk : 0 ≤ k) : Int.fdiv (y - 1) k = (y - 1) / k :=
    Int.fdiv_eq_ediv_of_nonneg _ hk
  rw [yearStart, h 4 (by decide), h 100 (by decide), h 400 (by decide)]

theorem yearStart_succ (y : Int) : yearStart (y + 1) = yearStart y + yearLength y := by
  rw [yearStart_eq, yearStart_eq, yearLength, isLeap]
  split
  · next h =>
    rw [decide_eq_true_iff] at h
    omega
  · next h =>
    rw [decide_eq_true_iff] at h
    omega

theorem yearStart_mono (h : y ≤ z) : yearStart y ≤ yearStart z := by
  rw [yearStart_eq, yearStart_eq]
  omega

end Years

section Months

theorem monthLength_bounds (y : Int) (m : Nat) : 1 ≤ monthLength y m ∧ monthLength y m ≤ 31 := by
  unfold monthLength
  split
  · split <;> decide
  · split <;> decide

theorem daysOfMonths_mono (h : m ≤ n) : daysOfMonths y m ≤ daysOfMonths y n := by
  induction h with
  | refl => exact Nat.le_refl _
  | step _ ih => exact Nat.le_trans ih (Nat.le_add_right _ _)

theorem daysOfMonths_year (y : Int) : daysOfMonths y 12 = yearLength y := by
  unfold yearLength
  cases h : isLeap y <;> simp [daysOfMonths, monthLength, h]

end Months

section Numbers

theorem number_eq (d : Date) :
    d.number = yearStart d.year + daysOfMonths d.year (d.month - 1) + (d.day - 1) := rfl

theorem daysOfMonths_pred (y : Int) (hm : 1 ≤ m) :
    daysOfMonths y m = daysOfMonths y (m - 1) + monthLength y m := by
  obtain ⟨n, rfl⟩ := Nat.exists_eq_add_of_le' hm
  rw [Nat.add_sub_cancel, daysOfMonths]

theorem Proper.next (hd : d.Proper) : d.next.Proper := by
  obtain ⟨⟨hm, hm'⟩, hd, hd'⟩ := hd
  unfold Date.next
  split
  · next h => exact ⟨⟨hm, hm'⟩, Nat.le_add_left 1 _, h⟩
  · split
    · next h => exact ⟨⟨Nat.le_add_left 1 _, h⟩, Nat.le_refl 1, (monthLength_bounds _ _).1⟩
    · exact ⟨⟨Nat.le_refl 1, Nat.le_add_left 1 11⟩, Nat.le_refl 1, (monthLength_bounds _ _).1⟩

theorem Proper.number_next (hd : d.Proper) : d.next.number = d.number + 1 := by
  obtain ⟨⟨hm, hm'⟩, hd, hd'⟩ := hd
  have hmonth := daysOfMonths_pred d.year hm
  unfold Date.next
  split
  · rw [number_eq, number_eq]
    dsimp only
    omega
  · next hlast =>
    split
    · -- The last day of a month is followed by the first of another one.
      rw [number_eq, number_eq]
      dsimp only
      rw [Nat.add_sub_cancel]
      omega
    · -- The last day of December is followed by the first of January.
      have hdec : d.month = 12 := by omega
      have hyear := daysOfMonths_year d.year
      rw [hdec] at hmonth hlast hd'
      rw [number_eq, number_eq, hdec]
      dsimp only
      rw [yearStart_succ, daysOfMonths]
      omega

theorem Proper.yearStart_le (hd : d.Proper) :
    yearStart d.year ≤ d.number ∧ d.number < yearStart (d.year + 1) := by
  obtain ⟨⟨hm, hm'⟩, hd, hd'⟩ := hd
  have hmonth := daysOfMonths_pred d.year hm
  have hyear := daysOfMonths_mono (y := d.year) hm'
  rw [daysOfMonths_year] at hyear
  rw [number_eq, yearStart_succ]
  omega

theorem Before.number_lt (h : d.Before e) (hd : d.Proper) (he : e.Proper) :
    d.number < e.number := by
  obtain h | ⟨hy, h⟩ := h
  · calc
      d.number < yearStart (d.year + 1) := hd.yearStart_le.2
      _ ≤ yearStart e.year := yearStart_mono h
      _ ≤ e.number := he.yearStart_le.1
  · obtain h | ⟨hm, h⟩ := h
    · have hmonth := daysOfMonths_pred d.year hd.month.1
      have hle : daysOfMonths d.year d.month ≤ daysOfMonths d.year (e.month - 1) :=
        daysOfMonths_mono (Nat.le_sub_one_of_lt h)
      have hlast := hd.day.2
      have hfirst := he.day.1
      rw [number_eq, number_eq, ← hy]
      omega
    · rw [number_eq, number_eq, hy, hm]
      omega

theorem before_trichotomy (d e : Date) : d.Before e ∨ d = e ∨ e.Before d := by
  obtain ⟨y, m, n⟩ := d
  obtain ⟨y', m', n'⟩ := e
  simp only [Before, Date.mk.injEq]
  omega

theorem Proper.number_lt_iff (hd : d.Proper) (he : e.Proper) :
    d.number < e.number ↔ d.Before e := by
  refine ⟨fun h => ?_, fun h => h.number_lt hd he⟩
  obtain hb | rfl | hb := before_trichotomy d e
  · exact hb
  · exact absurd h (Int.lt_irrefl _)
  · exact absurd (hb.number_lt he hd) (Int.not_lt.2 (Int.le_of_lt h))

theorem Proper.number_inj (hd : d.Proper) (he : e.Proper) (h : d.number = e.number) : d = e := by
  obtain hb | rfl | hb := before_trichotomy d e
  · exact absurd h (Int.ne_of_lt (hb.number_lt hd he))
  · rfl
  · exact absurd h.symm (Int.ne_of_lt (hb.number_lt he hd))

theorem Proper.iterate (hd : d.Proper) (k : Nat) :
    (Date.next^[k] d).Proper ∧ (Date.next^[k] d).number = d.number + k := by
  induction k with
  | zero => exact ⟨hd, (Int.add_zero _).symm⟩
  | succ k ih =>
    rw [Function.iterate_succ_apply']
    refine ⟨ih.1.next, ?_⟩
    rw [ih.1.number_next, ih.2]
    omega

end Numbers

section Range

theorem proper_first : first.Proper := ⟨by decide, by decide⟩

theorem proper_last : last.Proper := ⟨by decide, by decide⟩

theorem Proper.isValid_iff (hd : d.Proper) :
    d.isValid = true ↔ first.number ≤ d.number ∧ d.number ≤ last.number := by
  have hm := hd.month
  have hday := hd.day
  have hfirst : first.number ≤ d.number ↔ minYear ≤ d.year := by
    rw [← Int.not_lt, hd.number_lt_iff proper_first]
    simp only [Before, first]
    omega
  have hmonth := (monthLength_bounds d.year d.month).2
  have hlast : d.number ≤ last.number ↔ d.year ≤ maxYear := by
    rw [← Int.not_lt, proper_last.number_lt_iff hd]
    simp only [Before, last]
    omega
  rw [Date.isValid_iff, hfirst, hlast]
  exact and_iff_right hd

theorem exists_number {k : Int} (h : first.number ≤ k) : ∃ d : Date, d.Proper ∧ d.number = k := by
  obtain ⟨hp, hn⟩ := proper_first.iterate (k - first.number).toNat
  exact ⟨_, hp, by omega⟩

theorem proper_of_isValid (h : d.isValid = true) : d.Proper := (Date.isValid_iff.1 h).1

theorem number_lt_iff (hd : d.isValid = true) (he : e.isValid = true) :
    d.number < e.number ↔ d.Before e :=
  (proper_of_isValid hd).number_lt_iff (proper_of_isValid he)

end Range

def Ago (t : Date) (k : Nat) (c : Date) : Prop := c.isValid = true ∧ Date.next^[k] c = t

instance (t : Date) (k : Nat) (c : Date) : Decidable (t.Ago k c) :=
  inferInstanceAs (Decidable (_ ∧ _))

theorem Ago.number_eq {k : Nat} (h : t.Ago k d) : d.number = t.number - k := by
  obtain ⟨hd, rfl⟩ := h
  rw [((proper_of_isValid hd).iterate k).2]
  omega

theorem Ago.unique {k : Nat} (hd : t.Ago k d) (he : t.Ago k e) : d = e :=
  (proper_of_isValid hd.1).number_inj (proper_of_isValid he.1)
    (hd.number_eq.trans he.number_eq.symm)

/-- To go back is to subtract, as far as the calendar goes. -/
theorem exists_ago_iff {c : Int} {k : Nat} (ht : t.isValid = true) :
    (∃ d, t.Ago k d ∧ d.number = c) ↔ first.number ≤ c ∧ c = t.number - k := by
  have hp := proper_of_isValid ht
  have hl := (hp.isValid_iff.1 ht).2
  constructor
  · rintro ⟨d, hd, rfl⟩
    exact ⟨((proper_of_isValid hd.1).isValid_iff.1 hd.1).1, hd.number_eq⟩
  · rintro ⟨hc, he⟩
    obtain ⟨d, hd, hn⟩ := exists_number hc
    obtain ⟨hi, hin⟩ := hd.iterate k
    refine ⟨d, ⟨hd.isValid_iff.2 ⟨hn ▸ hc, by omega⟩, hi.number_inj hp ?_⟩, hn⟩
    omega

end Handoff.Log.Date
