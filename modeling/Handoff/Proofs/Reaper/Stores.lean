import Handoff.Proofs.Rendezvous.Sharing
import Handoff.Proofs.Run.Effect

namespace Handoff

namespace Storage

section Parts

variable {P S α : Type} [Stage S] [Staged P S] [Shelved P]

def part (P : Type) {S : Type} [Stage S] [Staged P S] [Shelved P] : Storage → Memory P ⊕ Table
  | .memory ms => .inl (Shelved.get ms)
  | .table t => .inr (t.only (·.kind = Staged.kind P))

theorem view_eq_part (σ : Storage) :
    σ.view P = Sum.elim Memory.view (Table.view P) (σ.part P) := by
  cases σ with
  | memory ms => rfl
  | table t =>
    funext h
    have hf : (t.only (·.kind = Staged.kind P)).find? (Staged.kind P) h =
        t.find? (Staged.kind P) h :=
      Table.find?_only fun r hr => decide_eq_true (Table.isAt_iff.1 hr).1
    change t.view P h = (t.only (·.kind = Staged.kind P)).view P h
    rw [Table.view, Table.view, hf]

variable {f : Memory P → α × Memory P} {g : Table → α × Table}
  (hg : Table.Local (fun r => r.kind = Staged.kind P) g) (σ : Storage)
include hg

/-- What an operation answers depends on its store alone. -/
theorem fst_run_eq : (run f g σ).1 =
    Sum.elim (fun m => (f m).1) (fun t => (g t).1) (σ.part P) := by
  cases σ with
  | memory ms => rfl
  | table t => exact (congrArg Prod.fst (hg.alone t fun _ => id)).symm

theorem part_run [Shelved.Lawful P] : (run f g σ).2.part P =
    Sum.map (fun m => (f m).2) (fun t => (g t).2) (σ.part P) := by
  cases σ with
  | memory ms => exact congrArg Sum.inl (Shelved.Lawful.get_set _ _)
  | table t => exact congrArg Sum.inr (congrArg Prod.snd (hg.alone t fun _ => id)).symm

theorem part_run_of_apart {Q T : Type} [Stage T] [Staged Q T] [Shelved Q] [Apart P Q] :
    (run f g σ).2.part Q = σ.part Q := by
  cases σ with
  | memory ms => exact congrArg Sum.inl (Apart.get_set _ _)
  | table t =>
    refine congrArg Sum.inr (hg.aside t fun r hr => decide_eq_false ?_)
    rw [of_decide_eq_true hr]
    exact (Apart.kind_ne (P := P) (Q := Q)).symm

end Parts

def setClosed (isClosed : Bool) : Storage → Storage
  | .memory ms => .memory ms
  | .table t => .table { t with isClosed }

instance : DecidablePred IsOpen
  | .memory _ => .isTrue trivial
  | .table t => inferInstanceAs (Decidable (t.isClosed = false))

def latest : Storage → Nat
  | .memory _ => Text.maxWord
  | .table _ => Text.maxSigned

end Storage

namespace Shared

def Fits : Shared → Prop
  | qr q => q.now ≤ Text.maxWord ∧ q.Fits
  | state q => q.now ≤ Text.maxWord ∧ q.Fits
  | link q => q.now ≤ Text.maxWord ∧ q.Fits

def onto : Shared → Storage → Storage
  | qr q, σ => (σ.run (Memory.perform q) (Table.perform q)).2
  | state q, σ => (σ.run (Memory.perform q) (Table.perform q)).2
  | link q, σ => (σ.run (Memory.perform q) (Table.perform q)).2

end Shared

namespace Storage

/-- The storage has come about from an empty one, by operations on the three stores in any order and
at any times. It may have been closed in between. -/
inductive Reached : Storage → Prop
  | fresh (backend : Backend) : Reached (.fresh backend)
  | onto {σ : Storage} {o : Shared} : o.Fits → Reached σ → Reached (o.onto σ)
  | setClosed {σ : Storage} (isClosed : Bool) : Reached σ → Reached (σ.setClosed isClosed)

structure Orderly (σ : Storage) : Prop where
  sessions : σ.Sound Qr.Session
  states : σ.Sound OAuth.State
  links : σ.Sound OAuth.PendingLink

variable {σ : Storage}

section Perform

variable {P S : Type} [Stage S] [Staged P S] [Staged.Lawful P] [Shelved P]

theorem Sound.setClosed (hσ : σ.Sound P) (isClosed : Bool) : (σ.setClosed isClosed).Sound P := by
  cases σ with
  | memory ms => exact hσ
  | table t => exact ⟨hσ.unique, hσ.rows⟩

variable [DecidableEq S] {q : Timed P S}

theorem Sound.perform [Shelved.Lawful P] (hσ : σ.Sound P) (hn : q.now ≤ Text.maxWord)
    (hq : q.Fits) : (σ.run (Memory.perform q) (Table.perform q)).2.Sound P :=
  (hσ.run (R := fun _ _ _ => True) (fun _ hm => ⟨hm.perform q, trivial⟩)
    fun _ ht => ⟨ht.perform hn hq, trivial⟩).1

omit [Staged.Lawful P] in
theorem Sound.perform_of_apart {Q T : Type} [Stage T] [Staged Q T] [Staged.Lawful Q] [Shelved Q]
    [Apart P Q] (hσ : σ.Sound Q) : (σ.run (Memory.perform q) (Table.perform q)).2.Sound Q :=
  sound_run (Table.perform_aside q) hσ

end Perform

theorem Orderly.onto (hσ : σ.Orderly) {o : Shared} (ho : o.Fits) : (o.onto σ).Orderly := by
  cases o with
  | qr q =>
    exact ⟨hσ.sessions.perform ho.1 ho.2, hσ.states.perform_of_apart,
      hσ.links.perform_of_apart⟩
  | state q =>
    exact ⟨hσ.sessions.perform_of_apart, hσ.states.perform ho.1 ho.2,
      hσ.links.perform_of_apart⟩
  | link q =>
    exact ⟨hσ.sessions.perform_of_apart, hσ.states.perform_of_apart,
      hσ.links.perform ho.1 ho.2⟩

theorem Reached.orderly (hσ : σ.Reached) : σ.Orderly := by
  induction hσ with
  | fresh backend =>
    exact ⟨(isEmpty_fresh backend).sound, (isEmpty_fresh backend).sound,
      (isEmpty_fresh backend).sound⟩
  | onto ho _ ih => exact ih.onto ho
  | setClosed b _ ih =>
    exact ⟨ih.sessions.setClosed b, ih.states.setClosed b, ih.links.setClosed b⟩

end Storage

def Entry.isOverdue {P : Type} (now : Nat) (e : Entry P) : Bool := e.ttl < now - e.createdAt

theorem Entry.isExpired_eq {P : Type} {now : Nat} (hn : now ≤ Text.maxWord) :
    (isExpired now : Entry P → Bool) = isOverdue now := by
  funext e
  rw [isExpired, isOverdue, decide_eq_decide, expireAt, Text.addTime]
  omega

def View.lasting {P : Type} (now : Nat) (v : View P) : View P :=
  fun h => (v h).filter (!·.isOverdue now)

theorem View.lasting_eq {P : Type} {now : Nat} (hn : now ≤ Text.maxWord) (v : View P) :
    v.lasting now = fun h => v.live now h := by
  funext h
  rw [lasting, live, ← Entry.isExpired_eq hn]

namespace Storage

theorem latest_le (σ : Storage) : σ.latest ≤ Text.maxWord := by
  cases σ with
  | memory => exact Nat.le_refl _
  | table =>
    rw [latest]
    decide

variable {P S : Type} [DecidableEq S] [Stage S] [Staged P S] [Staged.Lawful P] [Shelved P]
  [Shelved.Lawful P] {σ : Storage} {now : Nat}

theorem Sound.sweep_eq (hσ : σ.Sound P) (ho : σ.IsOpen) (hn : now ≤ σ.latest) :
    (σ.sweep P now).1 = .ok ((σ.view P).count (·.isOverdue now)) ∧
      (σ.sweep P now).2.view P = (σ.view P).lasting now := by
  have hw : now ≤ Text.maxWord := hn.trans σ.latest_le
  rw [View.lasting_eq hw, ← Entry.isExpired_eq hw]
  cases σ with
  | memory ms =>
    obtain ⟨ha, hv⟩ := Memory.Sound.perform_view hσ ⟨now, .sweep⟩
    refine ⟨Reply.counted.inj ha, ?_⟩
    rw [view_eq_part, Storage.sweep, part_run (Table.local_sweep .willing now)]
    exact hv
  | table t => exact Table.Sound.sweep_live hσ hn ho

end Storage

end Handoff
