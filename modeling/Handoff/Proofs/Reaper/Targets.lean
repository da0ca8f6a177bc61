import Handoff.Proofs.Hub.Lobby
import Handoff.Proofs.Reaper.Stores

namespace Handoff

def Hub.Lobby.isHeard (w : Lobby) (h : Handle) : Bool := w.held.any (w.isAttached h)

namespace Service

variable {s s' s'' : Service} {t u : Target} {now : Nat} {w : Hub.Lobby}

section Stores

variable {P S : Type} [Stage S] [Staged P S] [Shelved P]

structure Agrees (P : Type) {S : Type} [Stage S] [Staged P S] [Shelved P] (s s' : Service) :
    Prop where
  failure : s'.failure (Staged.kind P) .sweep = s.failure (Staged.kind P) .sweep
  part : s'.storage.part P = s.storage.part P

theorem Agrees.refl (s : Service) : Agrees P s s := ⟨rfl, rfl⟩

theorem Agrees.trans (h : Agrees P s s') (h' : Agrees P s' s'') : Agrees P s s'' :=
  ⟨h'.failure.trans h.failure, h'.part.trans h.part⟩

theorem Agrees.view (h : Agrees P s s') : s'.storage.view P = s.storage.view P := by
  rw [Storage.view_eq_part, h.part, ← Storage.view_eq_part]

variable (P) in
theorem agrees_sweepStore {Q T : Type} [Stage T] [Staged Q T] [Shelved Q] [Apart P Q]
    (now : Nat) (s : Service) : Agrees Q s ({ s with now }.sweepStore P).2 := by
  unfold sweepStore
  split
  · exact ⟨rfl, rfl⟩
  · exact ⟨rfl, Storage.part_run_of_apart (Table.local_sweep .willing now) s.storage⟩

variable (P) in
theorem hub_sweepStore (now : Nat) (s : Service) :
    ({ s with now }.sweepStore P).2.hub = s.hub := by
  rw [(access_sweep P { s with now }).rest]

theorem Agrees.sweepStore [Shelved.Lawful P] (h : Agrees P s s') (now : Nat) :
    ({ s' with now }.sweepStore P).1 = ({ s with now }.sweepStore P).1 ∧
      Agrees P ({ s with now }.sweepStore P).2 ({ s' with now }.sweepStore P).2 := by
  have hl : Table.Local (fun r => r.kind = Staged.kind P) (Table.sweep .willing (Staged.kind P) now) :=
    Table.local_sweep .willing now
  have hf : { s' with now }.failure (Staged.kind P) .sweep =
      { s with now }.failure (Staged.kind P) .sweep := h.failure
  unfold Service.sweepStore
  rw [hf]
  split
  · exact ⟨rfl, hf, h.part⟩
  · refine ⟨?_, hf, ?_⟩
    · dsimp only [Storage.sweep]
      rw [Storage.fst_run_eq hl, Storage.fst_run_eq hl, h.part]
    · dsimp only [Storage.sweep]
      rw [Storage.part_run hl, Storage.part_run hl, h.part]

theorem sweepStore_eq_error
    (h : ¬(s.failure (Staged.kind P) .sweep = none ∧ s.storage.IsOpen)) :
    ∃ e, s.sweepStore P = (.error e, s) := by
  unfold sweepStore
  cases hf : s.failure (Staged.kind P) .sweep with
  | some e => exact ⟨e, rfl⟩
  | none =>
    have ho : ¬s.storage.IsOpen := fun ho => h ⟨hf, ho⟩
    obtain ⟨_, _, σ⟩ := s
    cases σ with
    | memory => exact absurd trivial ho
    | table t =>
      refine ⟨Table.refusal, ?_⟩
      have hc : t.isClosed = true := Bool.of_not_eq_false ho
      dsimp only [Storage.sweep, Storage.run]
      rw [Table.sweep, Table.refuses_of_closed hc]

variable [DecidableEq S] [Staged.Lawful P] [Shelved.Lawful P]

theorem sweepStore_eq_ok (hσ : s.storage.Sound P)
    (ha : s.failure (Staged.kind P) .sweep = none ∧ s.storage.IsOpen)
    (hn : s.now ≤ s.storage.latest) :
    (s.sweepStore P).1 = .ok ((s.storage.view P).count (·.isOverdue s.now)) ∧
      (s.sweepStore P).2.storage.view P = (s.storage.view P).lasting s.now := by
  unfold sweepStore
  rw [ha.1]
  exact hσ.sweep_eq ha.2 hn

end Stores

def Same : Target → Service → Service → Prop
  | .store .qrSession, s, s' => Agrees Qr.Session s s'
  | .store .oauthState, s, s' => Agrees OAuth.State s s'
  | .store .pendingLink, s, s' => Agrees OAuth.PendingLink s s'
  | .topics, s, s' => s'.hub = s.hub

def sweepAt (now : Nat) (t : Target) (s : Service) : Except StoreError Nat × Service :=
  { s with now }.sweepTarget t

def Answers : Target → Service → Prop
  | .store κ, s => s.failure κ .sweep = none ∧ s.storage.IsOpen
  | .topics, _ => True

instance : Decidable (Answers t s) :=
  match t with
  | .store _ => inferInstanceAs (Decidable (_ ∧ _))
  | .topics => .isTrue trivial

theorem Same.refl (t : Target) (s : Service) : Same t s s := by
  cases t with
  | store κ => cases κ <;> exact Agrees.refl s
  | topics => rfl

theorem Same.trans (h : Same t s s') (h' : Same t s' s'') : Same t s s'' := by
  cases t with
  | store κ => cases κ <;> exact Agrees.trans h h'
  | topics => exact Eq.trans h' h

theorem same_sweepAt (htu : t ≠ u) (now : Nat) (s : Service) :
    Same u s (s.sweepAt now t).2 := by
  cases t with
  | topics =>
    cases u with
    | topics => exact absurd rfl htu
    | store κ => cases κ <;> exact ⟨rfl, rfl⟩
  | store κ =>
    cases κ with
    | qrSession =>
      match u with
      | .store .qrSession => exact absurd rfl htu
      | .store .oauthState | .store .pendingLink => exact agrees_sweepStore Qr.Session now s
      | .topics => exact hub_sweepStore Qr.Session now s
    | oauthState =>
      match u with
      | .store .oauthState => exact absurd rfl htu
      | .store .qrSession | .store .pendingLink => exact agrees_sweepStore OAuth.State now s
      | .topics => exact hub_sweepStore OAuth.State now s
    | pendingLink =>
      match u with
      | .store .pendingLink => exact absurd rfl htu
      | .store .qrSession | .store .oauthState => exact agrees_sweepStore OAuth.PendingLink now s
      | .topics => exact hub_sweepStore OAuth.PendingLink now s

/-- A sweep sees and changes nothing but its target. -/
theorem Same.sweepAt (h : Same t s s') (now : Nat) :
    (s'.sweepAt now t).1 = (s.sweepAt now t).1 ∧
      Same t (s.sweepAt now t).2 (s'.sweepAt now t).2 := by
  cases t with
  | store κ =>
    cases κ <;> exact Agrees.sweepStore h now
  | topics =>
    have h : s'.hub = s.hub := h
    rw [Service.sweepAt, Service.sweepAt, sweepTarget, sweepTarget, h]
    exact ⟨rfl, rfl⟩

theorem sweepAt_eq_error (ha : ¬Answers t s) (now : Nat) :
    ∃ e, (s.sweepAt now t).1 = .error e ∧ Same t s (s.sweepAt now t).2 := by
  have he : ∃ e, s.sweepAt now t = (.error e, { s with now }) := by
    cases t with
    | store κ => cases κ <;> exact sweepStore_eq_error ha
    | topics => exact absurd trivial ha
  obtain ⟨e, he⟩ := he
  rw [he]
  refine ⟨e, rfl, ?_⟩
  cases t with
  | store κ => cases κ <;> exact ⟨rfl, rfl⟩
  | topics => rfl

structure Reached (w : Hub.Lobby) (s : Service) : Prop where
  storage : s.storage.Reached
  lobby : ∃ limit es, w = (Hub.Lobby.start limit).run es
  hub : s.hub = w.hub

/-- How much a target has to remove: the entries that are overdue, the topics that nobody is attached
to. -/
noncomputable def removable (now : Nat) (w : Hub.Lobby) : Target → Service → Nat
  | .store .qrSession, s => (s.storage.view Qr.Session).count (·.isOverdue now)
  | .store .oauthState, s => (s.storage.view OAuth.State).count (·.isOverdue now)
  | .store .pendingLink, s => (s.storage.view OAuth.PendingLink).count (·.isOverdue now)
  | .topics, s => (s.hub.topics.filter (!w.isHeard ·)).length

def Cleaned (now : Nat) (w : Hub.Lobby) : Target → Service → Service → Prop
  | .store .qrSession, s, s' =>
    s'.storage.view Qr.Session = (s.storage.view Qr.Session).lasting now
  | .store .oauthState, s, s' =>
    s'.storage.view OAuth.State = (s.storage.view OAuth.State).lasting now
  | .store .pendingLink, s, s' =>
    s'.storage.view OAuth.PendingLink = (s.storage.view OAuth.PendingLink).lasting now
  | .topics, s, s' => s'.hub = { s.hub with topics := s.hub.topics.filter w.isHeard }

theorem Cleaned.same (hc : Cleaned now w t s s') (h : Same t s' s'') : Cleaned now w t s s'' := by
  cases t with
  | store κ => cases κ <;> exact (Agrees.view h).trans hc
  | topics => exact Eq.trans h hc

namespace Reached

variable (hs : s.Reached w)
include hs

theorem sweep_hub :
    s.hub.sweep = ((s.hub.topics.filter (!w.isHeard ·)).length,
      { s.hub with topics := s.hub.topics.filter w.isHeard }) := by
  obtain ⟨limit, es, hw⟩ := hs.lobby
  have ht : s.hub.sweep.2.topics = s.hub.topics.filter w.isHeard := by
    rw [hs.hub, hw]
    exact ((Hub.Lobby.sound_start limit).run es).topics_sweep
  have hl := List.length_eq_length_filter_add (l := s.hub.topics) w.isHeard
  refine Prod.ext ?_ ?_
  · change s.hub.topics.length - s.hub.sweep.2.topics.length = _
    rw [ht]
    omega
  · change { s.hub with topics := s.hub.sweep.2.topics } = _
    rw [ht]

theorem sweepAt_eq_ok (ha : Answers t s) (hn : ∀ κ, t = .store κ → now ≤ s.storage.latest) :
    (s.sweepAt now t).1 = .ok (removable now w t s) ∧ Cleaned now w t s (s.sweepAt now t).2 := by
  have hσ := hs.storage.orderly
  cases t with
  | store κ =>
    have hle : now ≤ s.storage.latest := hn κ rfl
    cases κ with
    | qrSession => exact sweepStore_eq_ok (s := { s with now }) hσ.sessions ha hle
    | oauthState => exact sweepStore_eq_ok (s := { s with now }) hσ.states ha hle
    | pendingLink => exact sweepStore_eq_ok (s := { s with now }) hσ.links ha hle
  | topics =>
    have hh := hs.sweep_hub
    rw [Prod.ext_iff] at hh
    exact ⟨congrArg _ hh.1, hh.2⟩

end Reached

end Service

end Handoff
