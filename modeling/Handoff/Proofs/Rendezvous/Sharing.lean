import Handoff.Proofs.Rendezvous.Backends
import Handoff.Proofs.Rendezvous.Local

namespace Handoff

namespace Table

variable {α β : Type} {q : Row → Bool}

theorem Local.map {f : Table → α × Table} (hf : Local q f) (g : α → β) :
    Local q fun t => Prod.map g id (f t) where
  alone t hp := by
    rw [hf.alone t hp]
    rfl
  aside t hp := hf.aside t hp

theorem local_perform {P S : Type} [DecidableEq S] [Stage S] [Staged P S] (q : Timed P S) :
    Local (fun r => r.kind = Staged.kind P) (perform q) := by
  have hat (h : Handle) (r : Row) (hr : Row.isAt (Staged.kind P) h r = true) :
      decide (r.kind = Staged.kind P) = true := decide_eq_true (isAt_iff.1 hr).1
  obtain ⟨now, o⟩ := q
  cases o with
  | put h p ttl => exact ((local_put .willing now h p ttl).mono (hat h)).map _
  | get h => exact ((local_get .willing now h).mono (hat h)).map _
  | take h expected next => exact ((local_take .willing now h expected next).mono (hat h)).map _
  | delete h => exact ((local_delete .willing h).mono (hat h)).map _
  | sweep => exact (local_sweep .willing now).map _
  | size => exact (local_size .willing).map _

end Table

/-- An operation on one of the stores that share a table, at a reading of the clock. -/
inductive Shared
  | qr (q : Timed Qr.Session Qr.Status)
  | state (q : Timed OAuth.State OneShot)
  | link (q : Timed OAuth.PendingLink OneShot)

namespace Shared

open Table (Local local_perform)

inductive Answer
  | qr (r : Reply Qr.Session)
  | state (r : Reply OAuth.State)
  | link (r : Reply OAuth.PendingLink)

def kind : Shared → Kind
  | qr _ => .qrSession
  | state _ => .oauthState
  | link _ => .pendingLink

def perform : Shared → Table → Answer × Table
  | qr q, t => Prod.map .qr id (t.perform q)
  | state q, t => Prod.map .state id (t.perform q)
  | link q, t => Prod.map .link id (t.perform q)

def trace : List Shared → Table → List (Shared × Answer)
  | [], _ => []
  | o :: os, t => (o, (o.perform t).1) :: trace os (o.perform t).2

def after (os : List Shared) (t : Table) : Table := os.foldl (fun t o => (o.perform t).2) t

theorem local_perform (o : Shared) : Local (fun r => r.kind = o.kind) o.perform := by
  cases o with
  | qr q => exact (Table.local_perform q).map _
  | state q => exact (Table.local_perform q).map _
  | link q => exact (Table.local_perform q).map _

theorem perform_only (o : Shared) (t : Table) :
    o.perform (t.only (·.kind = o.kind)) =
      Prod.map id (Table.only (·.kind = o.kind)) (o.perform t) :=
  o.local_perform.alone t fun _ => id

theorem only_perform {o : Shared} {κ : Kind} (hκ : o.kind ≠ κ) (t : Table) :
    (o.perform t).2.only (·.kind = κ) = t.only (·.kind = κ) := by
  refine o.local_perform.aside t fun r hr => decide_eq_false ?_
  rw [of_decide_eq_true hr]
  exact hκ

theorem trace_filter (κ : Kind) (os : List Shared) (t : Table) :
    (trace os t).filter (·.1.kind = κ) =
      trace (os.filter (·.kind = κ)) (t.only (·.kind = κ)) := by
  induction os generalizing t with
  | nil => rfl
  | cons o os ih =>
    by_cases hκ : o.kind = κ
    · subst hκ
      have ho := o.perform_only t
      simp only [trace, List.filter_cons, decide_true, if_true, ih, ho]
      rfl
    · simp only [trace, List.filter_cons, hκ, decide_false, Bool.false_eq_true, if_false, ih,
        only_perform hκ]

theorem after_filter (κ : Kind) (os : List Shared) (t : Table) :
    (after os t).only (·.kind = κ) = after (os.filter (·.kind = κ)) (t.only (·.kind = κ)) := by
  induction os generalizing t with
  | nil => rfl
  | cons o os ih =>
    by_cases hκ : o.kind = κ
    · subst hκ
      have ho := congrArg Prod.snd (o.perform_only t)
      simp only [after, List.foldl_cons, List.filter_cons, decide_true, if_true, ho] at ih ⊢
      exact ih _
    · simp only [after, List.foldl_cons, List.filter_cons, hκ, decide_false, Bool.false_eq_true,
        if_false, ← only_perform hκ t] at ih ⊢
      exact ih _

/-- In every interleaving of the three stores, on whatever the table held before, the operations of
one kind get the answers and leave the rows that they would on a table with the rows of that kind
alone, and each operation leaves the rows of the other kinds as they were. -/
theorem undisturbed (os : List Shared) (t : Table) :
    (∀ κ, (trace os t).filter (·.1.kind = κ) =
        trace (os.filter (·.kind = κ)) (t.only (·.kind = κ)) ∧
      (after os t).only (·.kind = κ) =
        after (os.filter (·.kind = κ)) (t.only (·.kind = κ))) ∧
    ∀ o : Shared, (o.perform (after os t)).2.only (·.kind ≠ o.kind) =
      (after os t).only (·.kind ≠ o.kind) := by
  refine ⟨fun κ => ⟨trace_filter κ os t, after_filter κ os t⟩, fun o => ?_⟩
  refine o.local_perform.aside _ fun r hr => decide_eq_false (not_not.2 ?_)
  exact of_decide_eq_true hr

end Shared

end Handoff
