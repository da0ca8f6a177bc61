import Handoff.Proofs.Log.Names

namespace Handoff.Log

variable {today day c : Date} {keepDays : Nat} {items : List Item} {i : Item} {name : String}

theorem cutoff_eq_some_iff (ht : today.isValid = true) {n : Int} :
    cutoff today keepDays = some n ↔ ∃ c, today.Ago keepDays c ∧ c.number = n := by
  rw [Date.exists_ago_iff ht, cutoff]
  split
  · next h =>
    rw [Option.some_inj]
    exact ⟨fun hn => hn ▸ ⟨h, rfl⟩, fun hn => hn.2.symm⟩
  · next h =>
    refine ⟨nofun, fun hn => absurd ?_ h⟩
    rw [← hn.2]
    exact hn.1

theorem cutoff_eq_none_iff (ht : today.isValid = true) :
    cutoff today keepDays = none ↔ ¬∃ c, today.Ago keepDays c := by
  rw [Option.eq_none_iff_forall_ne_some, not_exists]
  constructor
  · exact fun h c hc => h c.number ((cutoff_eq_some_iff ht).2 ⟨c, hc, rfl⟩)
  · intro h n hn
    obtain ⟨c, hc, -⟩ := (cutoff_eq_some_iff ht).1 hn
    exact h c hc

def EndsBefore (c : Date) (name : String) : Prop := ∃ day, dayOf name = some day ∧ day.Before c

theorem isOutdated_iff (hc : c.isValid = true) :
    isOutdated c.number name = true ↔ EndsBefore c name := by
  rw [isOutdated, Option.any_eq_true]
  refine exists_congr fun day => and_congr_right fun hd => ?_
  rw [decide_eq_true_iff, Date.number_lt_iff (isValid_of_dayOf hd) hc]

/-- Files go by what follows the last dot of their names, and nothing else goes. -/
theorem mem_prune_iff (ht : today.isValid = true) : i ∈ prune today keepDays items ↔
    i ∈ items ∧ ∀ c, today.Ago keepDays c → ¬(i.isFile = true ∧ EndsBefore c i.name) := by
  have hsome {c : Date} (hc : today.Ago keepDays c) : cutoff today keepDays = some c.number :=
    (cutoff_eq_some_iff ht).2 ⟨c, hc, rfl⟩
  rw [prune]
  cases hn : cutoff today keepDays with
  | none =>
    refine (and_iff_left fun c hc => ?_).symm
    cases hn.symm.trans (hsome hc)
  | some n =>
    rw [List.mem_filter]
    refine and_congr_right fun _ => ?_
    obtain ⟨c, hc, rfl⟩ := (cutoff_eq_some_iff ht).1 hn
    rw [Bool.not_eq_true', Bool.eq_false_iff, ne_eq, Bool.and_eq_true, isOutdated_iff hc.1]
    refine ⟨fun h c' hc' => ?_, fun h => h c hc⟩
    rwa [← isOutdated_iff hc'.1, ← Option.some.inj (hn.symm.trans (hsome hc')), isOutdated_iff hc.1]

/-- Logs go when their day lies before the one so many days ago, and not before; where the calendar
does not go back so far, all is kept. -/
structure Clears (today : Date) (keepDays : Nat) (items : List Item) : Prop where
  sublist : (prune today keepDays items).Sublist items
  outdated {c day : Date} {i : Item} : today.Ago keepDays c → i ∈ items → i.isFile = true →
    IsLog day i.name → day.Before c → i ∉ prune today keepDays items
  recent {c day : Date} {i : Item} : today.Ago keepDays c → i ∈ items → IsLog day i.name →
    ¬day.Before c → i ∈ prune today keepDays items
  unreached : (¬∃ c, today.Ago keepDays c) → prune today keepDays items = items

def Spares (today : Date) (keepDays : Nat) (items : List Item) : Prop :=
  ∀ i ∈ items, i ∉ prune today keepDays items → i.isFile = true ∧
    ∃ c day, today.Ago keepDays c ∧ IsLog day i.name ∧ day.Before c

theorem clears (ht : today.isValid = true) (keepDays : Nat) (items : List Item) :
    Clears today keepDays items where
  sublist := by
    rw [prune]
    cases cutoff today keepDays with
    | none => exact List.Sublist.refl _
    | some n => exact List.filter_sublist
  outdated hc _ hf hl hb hm := ((mem_prune_iff ht).1 hm).2 _ hc ⟨hf, _, hl.dayOf, hb⟩
  recent {c day i} hc hi hl hb := by
    refine (mem_prune_iff ht).2 ⟨hi, ?_⟩
    rintro c' hc' ⟨-, d, hd, hbd⟩
    cases hl.dayOf.symm.trans hd
    exact hb (hc.unique hc' ▸ hbd)
  unreached hn := by rw [prune, (cutoff_eq_none_iff ht).2 hn]

/-- Logs are cleared as they should be. Nothing else goes with them exactly as long as no other file
has a name that ends, behind its last dot, in a day that lies too far back. -/
theorem prune_clears (ht : today.isValid = true) (keepDays : Nat) (items : List Item) :
    Clears today keepDays items ∧ (Spares today keepDays items ↔
      ∀ i ∈ items, i.isFile = true → ∀ c day, today.Ago keepDays c → dayOf i.name = some day →
        day.Before c → IsLog day i.name) := by
  refine ⟨clears ht keepDays items, ?_⟩
  constructor
  · intro hs i hi hf c day hc hd hb
    have hgone : i ∉ prune today keepDays items := fun hm =>
      ((mem_prune_iff ht).1 hm).2 c hc ⟨hf, day, hd, hb⟩
    obtain ⟨-, -, day', -, hl, -⟩ := hs i hi hgone
    cases hd.symm.trans hl.dayOf
    exact hl
  · intro hall i hi hgone
    rw [mem_prune_iff ht, and_iff_right hi] at hgone
    simp only [not_forall, not_not] at hgone
    obtain ⟨c, hc, hf, day, hd, hb⟩ := hgone
    exact ⟨hf, c, day, hc, hall i hi hf c day hc hd hb, hb⟩

section Example

def newYear : Date := ⟨2026, 1, 1⟩

def oldLog : Item := ⟨"rdv-auth.log.2001-01-01", true⟩

def oldReport : Item := ⟨"report.2001-02-03", true⟩

theorem isLog_oldLog : IsLog ⟨2001, 1, 1⟩ oldLog.name :=
  ⟨by decide, by decide, by decide, "rdv-auth", by decide +kernel⟩

theorem dayOf_oldReport : dayOf oldReport.name = some ⟨2001, 2, 3⟩ := by decide +kernel

theorem not_isLog_oldReport (day : Date) : ¬IsLog day oldReport.name := by
  intro h
  cases dayOf_oldReport.symm.trans h.dayOf
  obtain ⟨-, -, -, service, hs⟩ := h
  have hend : (".log.".toList ++ (Date.text ⟨2001, 2, 3⟩).toList) <:+ oldReport.name.toList := by
    rw [hs, fileName, String.toList_append, String.toList_append, List.append_assoc]
    exact List.suffix_append _ _
  exact absurd hend (by decide +kernel)

theorem ago_newYear : newYear.Ago 14 ⟨2025, 12, 18⟩ := by decide

theorem prune_clears_newYear : newYear.isValid = true ∧ Spares newYear 14 [oldLog] ∧
    ¬Spares newYear 14 [oldLog, oldReport] := by
  have ht : newYear.isValid = true := by decide
  refine ⟨ht, (prune_clears ht 14 [oldLog]).2.2 fun i hi hf c day hc hd hb => ?_, fun hs => ?_⟩
  · rw [List.mem_singleton.1 hi] at hd ⊢
    cases isLog_oldLog.dayOf.symm.trans hd
    exact isLog_oldLog
  · refine not_isLog_oldReport ⟨2001, 2, 3⟩ ((prune_clears ht 14 [oldLog, oldReport]).2.1 hs
      oldReport (by simp) rfl _ _ ago_newYear dayOf_oldReport (by decide))

/-- More than outdated logs may go. -/
theorem not_forall_spares : ¬∀ (today : Date) (keepDays : Nat) (items : List Item),
    today.isValid = true → Clears today keepDays items ∧ Spares today keepDays items := by
  intro hall
  have ht : newYear.isValid = true := by decide
  have hgone : oldReport ∉ prune newYear 14 [oldReport] := fun hm =>
    ((mem_prune_iff ht).1 hm).2 _ ago_newYear ⟨rfl, _, dayOf_oldReport, by decide⟩
  obtain ⟨-, -, day, -, hl, -⟩ :=
    (hall newYear 14 [oldReport] ht).2 oldReport List.mem_cons_self hgone
  exact not_isLog_oldReport day hl

end Example

end Handoff.Log
