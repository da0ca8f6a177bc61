import Handoff.Service
import Mathlib.Algebra.GroupWithZero.Nat
import Mathlib.Data.List.Nodup

namespace Handoff

namespace Reaper

variable {T W : Type} {sweep : T → W → Except StoreError Nat × W}

def visits (sweep : T → W → Except StoreError Nat × W) :
    List T → W → List (T × Except StoreError Nat) × W
  | [], w => ([], w)
  | t :: ts, w =>
    let (a, w) := sweep t w
    let (as, w) := visits sweep ts w
    ((t, a) :: as, w)

theorem visits_cons (t : T) (ts : List T) (w : W) : visits sweep (t :: ts) w =
    ((t, (sweep t w).1) :: (visits sweep ts (sweep t w).2).1,
      (visits sweep ts (sweep t w).2).2) := rfl

def total (as : List (T × Except StoreError Nat)) : Nat :=
  (as.map fun a => a.2.toOption.getD 0).sum

theorem total_cons (t : T) (a : Except StoreError Nat) (as : List (T × Except StoreError Nat)) :
    total ((t, a) :: as) = a.toOption.getD 0 + total as := rfl

theorem total_map {ts : List T} {answer : T → Except StoreError Nat} {works : T → Prop}
    [DecidablePred works] {removed : T → Nat}
    (hok : ∀ t ∈ ts, works t → answer t = .ok (removed t))
    (herr : ∀ t ∈ ts, ¬works t → ∃ e, answer t = .error e) :
    total (ts.map fun t => (t, answer t)) = ((ts.filter works).map removed).sum := by
  induction ts with
  | nil => rfl
  | cons t ts ih =>
    have ih := ih (fun u hu => hok u (.tail t hu)) fun u hu => herr u (.tail t hu)
    rw [List.map_cons, total_cons, ih, List.filter_cons]
    by_cases ht : works t
    · rw [hok t List.mem_cons_self ht, if_pos (decide_eq_true ht), List.map_cons, List.sum_cons]
      rfl
    · obtain ⟨e, he⟩ := herr t List.mem_cons_self ht
      rw [he, if_neg (by simpa using ht)]
      exact Nat.zero_add _

/-- `Same t` says that a target is as it was. A visit to another one leaves it so, and a visit to it
sees and changes nothing but the target. -/
structure Separate (Same : T → W → W → Prop) (sweep : T → W → Except StoreError Nat × W) :
    Prop where
  refl (t : T) (w : W) : Same t w w
  trans {t : T} {w w' w'' : W} : Same t w w' → Same t w' w'' → Same t w w''
  aside {t u : T} (w : W) : t ≠ u → Same u w (sweep t w).2
  alone {t : T} {w w' : W} : Same t w w' →
    (sweep t w').1 = (sweep t w).1 ∧ Same t (sweep t w).2 (sweep t w').2

namespace Separate

variable {Same : T → W → W → Prop} (h : Separate Same sweep) {t : T} {ts : List T}
include h

theorem visits_of_notMem (ht : t ∉ ts) (w : W) : Same t w (visits sweep ts w).2 := by
  induction ts generalizing w with
  | nil => exact h.refl t w
  | cons u ts ih =>
    rw [List.mem_cons, not_or] at ht
    exact h.trans (h.aside w (Ne.symm ht.1)) (ih ht.2 _)

theorem visits_of_mem (hn : ts.Nodup) (ht : t ∈ ts) (w : W) :
    Same t (sweep t w).2 (visits sweep ts w).2 := by
  induction ts generalizing w with
  | nil => cases ht
  | cons u ts ih =>
    obtain ⟨hu, hn⟩ := List.nodup_cons.1 hn
    cases List.mem_cons.1 ht with
    | inl he =>
      subst he
      exact h.visits_of_notMem hu _
    | inr ht =>
      -- the visits before it have left it alone
      have hne : u ≠ t := fun he => hu (he ▸ ht)
      exact h.trans (h.alone (h.aside w hne)).2 (ih hn ht _)

/-- Every target is visited once, and answers what it would have answered before the pass. -/
theorem answers_eq (hn : ts.Nodup) (w : W) :
    (visits sweep ts w).1 = ts.map fun t => (t, (sweep t w).1) := by
  induction ts generalizing w with
  | nil => rfl
  | cons u ts ih =>
    obtain ⟨hu, hn⟩ := List.nodup_cons.1 hn
    rw [visits_cons, ih hn, List.map_cons]
    refine congrArg _ (List.map_congr_left fun t ht => ?_)
    have hne : u ≠ t := fun he => hu (he ▸ ht)
    rw [(h.alone (h.aside w hne)).1]

end Separate

end Reaper

theorem Service.sweepAll_eq (ts : List Target) (s : Service) :
    s.sweepAll ts =
      (Reaper.total (Reaper.visits sweepTarget ts s).1, (Reaper.visits sweepTarget ts s).2) := by
  suffices h : ∀ n, ts.foldl (fun x t =>
      (x.1 + (x.2.sweepTarget t).1.toOption.getD 0, (x.2.sweepTarget t).2)) (n, s) =
        (n + Reaper.total (Reaper.visits sweepTarget ts s).1,
          (Reaper.visits sweepTarget ts s).2) by
    exact (h 0).trans (congrArg (·, _) (Nat.zero_add _))
  induction ts generalizing s with
  | nil => exact fun n => rfl
  | cons t ts ih =>
    intro n
    rw [List.foldl_cons, ih]
    exact congrArg (·, _) (Nat.add_assoc ..)

end Handoff
