import Handoff.Proofs.Rendezvous.Memory
import Mathlib.Data.Set.Card

namespace Handoff

inductive Operation (P S : Type)
  | put (h : Handle) (p : P) (ttl : Nat)
  | get (h : Handle)
  | take (h : Handle) (expected next : S)
  | delete (h : Handle)
  | sweep
  | size

inductive Reply (P : Type)
  | entry (r : Except StoreError (Entry P))
  | removed (r : Except StoreError Bool)
  | counted (r : Except StoreError Nat)

def Reply.found? {P : Type} : Reply P → Option (Except StoreError (Entry P))
  | entry r => some r
  | _ => none

structure Timed (P S : Type) where
  now : Nat
  operation : Operation P S

namespace Timed

variable {P S : Type}

def isSweep (q : Timed P S) : Bool :=
  match q.operation with
  | .sweep => true
  | _ => false

def InOrder (qs : List (Timed P S)) (now : Nat) : Prop :=
  (qs.map Timed.now ++ [now]).Pairwise (· ≤ ·)

theorem inOrder_concat {qs : List (Timed P S)} {q : Timed P S} {now : Nat} :
    InOrder (qs ++ [q]) now ↔ InOrder qs q.now ∧ InOrder qs now ∧ q.now ≤ now := by
  simp only [InOrder, List.map_append, List.map_cons, List.map_nil, List.pairwise_append,
    List.pairwise_singleton, List.mem_singleton, List.mem_append, List.mem_map]
  constructor
  · rintro ⟨⟨hp, -, hq⟩, -, hn⟩
    exact ⟨⟨hp, trivial, hq⟩, ⟨hp, trivial, fun a ha => hn a (.inl ha)⟩, hn _ (.inr rfl) _ rfl⟩
  · rintro ⟨⟨hp, -, hq⟩, ⟨-, -, hn⟩, hle⟩
    refine ⟨⟨hp, trivial, hq⟩, trivial, ?_⟩
    rintro a (ha | rfl) b rfl
    · exact hn a ha _ rfl
    · exact hle

end Timed

namespace View

variable {P S : Type}

def live (now : Nat) (h : Handle) (v : View P) : Option (Entry P) :=
  (v h).filter (!·.isExpired now)

theorem live_eq_some {now : Nat} {h : Handle} {v : View P} {e : Entry P} :
    v.live now h = some e ↔ v h = some e ∧ e.isExpired now = false := by
  simp [live, Option.filter_eq_some_iff]

theorem live_eq_none {now : Nat} {h : Handle} {v : View P} :
    v.live now h = none ↔ Vacant now (v h) := by
  simp [live, Option.filter_eq_none_iff, Vacant]

noncomputable def count (c : Entry P → Bool) (v : View P) : Nat :=
  {h | ∃ e, v h = some e ∧ c e = true}.ncard

/-- What a store does that forgets an expired entry when it comes upon it. -/
noncomputable def perform [DecidableEq S] [Stage S] [Staged P S] (q : Timed P S) (v : View P) :
    Reply P × View P :=
  match q.operation with
  | .put h p ttl =>
    match v.live q.now h with
    | some _ => (.entry (.error .duplicate), v)
    | none => (.entry (.ok ⟨h, q.now, ttl, p⟩), Function.update v h (some ⟨h, q.now, ttl, p⟩))
  | .get h =>
    match v.live q.now h with
    | some e => (.entry (.ok e), v)
    | none => (.entry (.error .notFound), Function.update v h none)
  | .take h expected next =>
    match v.live q.now h with
    | some e =>
      if Staged.stage e.payload = expected then
        (.entry (.ok e), Function.update v h (moved q.now next e))
      else (.entry (.error (.conflict (Stage.text (Staged.stage e.payload)))), v)
    | none => (.entry (.error .notFound), Function.update v h none)
  | .delete h => (.removed (.ok (v h).isSome), Function.update v h none)
  | .sweep => (.counted (.ok (v.count (·.isExpired q.now))), fun h => v.live q.now h)
  | .size => (.counted (.ok (v.count fun _ => true)), v)

theorem length_eq_ncard {α : Type} {key : α → Handle} {l : List α}
    (hl : l.Pairwise fun a b => key a ≠ key b) : l.length = {h | ∃ a ∈ l, key a = h}.ncard := by
  have hk : {h | ∃ a ∈ l, key a = h} = ((l.map key).toFinset : Set Handle) := by
    ext h
    simp
  have hn : (l.map key).Nodup := List.pairwise_map.2 hl
  rw [hk, Set.ncard_coe_finset, List.toFinset_card_of_nodup hn, List.length_map]

end View

namespace Memory

open View

variable {P S : Type} [DecidableEq S] [Stage S] [Staged P S]

def perform (q : Timed P S) (m : Memory P) : Reply P × Memory P :=
  match q.operation with
  | .put h p ttl => Prod.map .entry id (m.put q.now h p ttl)
  | .get h => Prod.map .entry id (m.get q.now h)
  | .take h expected next => Prod.map .entry id (m.take q.now h expected next)
  | .delete h => Prod.map .removed id (m.delete h)
  | .sweep => Prod.map .counted id (m.sweep q.now)
  | .size => Prod.map .counted id m.size

def after (qs : List (Timed P S)) : Memory P := qs.foldl (fun m q => (m.perform q).2) .empty

theorem after_concat (qs : List (Timed P S)) (q : Timed P S) :
    after (qs ++ [q]) = ((after qs).perform q).2 := by
  simp [after]

variable {m : Memory P}

theorem Sound.count_eq (hm : m.Sound) (c : Entry P → Bool) :
    (m.entries.filter c).length = m.view.count c := by
  rw [View.count, length_eq_ncard (List.Pairwise.filter c hm)]
  congr 1
  ext h
  constructor
  · rintro ⟨e, he, rfl⟩
    obtain ⟨he, hc⟩ := List.mem_filter.1 he
    refine ⟨e, find?_of_unique ?_ he (by simp), hc⟩
    apply List.Pairwise.imp _ hm
    rintro a b hab ⟨ha, hb⟩
    exact hab ((of_decide_eq_true ha).trans (of_decide_eq_true hb).symm)
  · rintro ⟨e, he, hc⟩
    exact ⟨e, List.mem_filter.2 ⟨List.mem_of_find?_eq_some he, hc⟩, handle_of_view he⟩

theorem remove_of_absent {h : Handle} (hf : m.find? h = none) : m.remove h = m := by
  have hl : m.entries.filter (·.handle ≠ h) = m.entries := by
    rw [List.filter_eq_self]
    intro e he
    simpa using List.find?_eq_none.1 hf e he
  rw [remove, hl]

section Looks

variable (now : Nat) (h : Handle) (m)

theorem put_eq (p : P) (ttl : Nat) : m.put now h p ttl =
    match m.view.live now h with
    | some _ => (.error .duplicate, m)
    | none => (.ok ⟨h, now, ttl, p⟩, m.store ⟨h, now, ttl, p⟩) := by
  unfold Memory.put View.live Memory.view
  cases m.find? h with
  | none => rfl
  | some e => cases hx : e.isExpired now <;> simp [Option.filter_some, hx]

theorem get_eq : m.get now h =
    match m.view.live now h with
    | some e => (.ok e, m)
    | none => (.error .notFound, m.remove h) := by
  unfold Memory.get View.live Memory.view
  cases hf : m.find? h with
  | none => simp [remove_of_absent hf]
  | some e => cases hx : e.isExpired now <;> simp [Option.filter_some, hx]

theorem take_eq (expected next : S) : m.take now h expected next =
    match m.view.live now h with
    | some e =>
      if Staged.stage e.payload = expected then
        (.ok e, if Stage.isTerminal next then m.remove h
          else m.store { e with payload := Staged.advance next now e.payload })
      else (.error (.conflict (Stage.text (Staged.stage e.payload))), m)
    | none => (.error .notFound, m.remove h) := by
  unfold Memory.take
  rw [get_eq]
  cases m.view.live now h with
  | none => rfl
  | some e =>
    dsimp only
    rw [ite_not]
    split
    · split <;> rfl
    · rfl

end Looks

theorem Sound.perform_view (hm : m.Sound) (q : Timed P S) :
    (m.perform q).1 = (m.view.perform q).1 ∧ (m.perform q).2.view = (m.view.perform q).2 := by
  obtain ⟨now, o⟩ := q
  cases o with
  | put h p ttl =>
    simp only [perform, View.perform, put_eq]
    cases m.view.live now h with
    | some e => exact ⟨rfl, rfl⟩
    | none => exact ⟨rfl, view_store _ m⟩
  | get h =>
    simp only [perform, View.perform, get_eq]
    cases m.view.live now h with
    | some e => exact ⟨rfl, rfl⟩
    | none => exact ⟨rfl, view_remove h m⟩
  | take h expected next =>
    simp only [perform, View.perform, take_eq]
    cases hl : m.view.live now h with
    | none => exact ⟨rfl, view_remove h m⟩
    | some e =>
      have hh : e.handle = h := handle_of_view (live_eq_some.1 hl).1
      dsimp only
      split
      · refine ⟨rfl, ?_⟩
        unfold moved
        dsimp only [Prod.map]
        split
        · exact view_remove h m
        · exact hh ▸ view_store _ m
      · exact ⟨rfl, rfl⟩
  | delete h => exact ⟨rfl, view_remove h m⟩
  | sweep =>
    refine ⟨?_, funext (hm.view_filter _)⟩
    have hc := hm.count_eq (·.isExpired now)
    have hl := List.length_eq_length_filter_add (l := m.entries) (·.isExpired now)
    simp only [perform, View.perform, Memory.sweep, Prod.map, ← hc]
    congr 2
    omega
  | size =>
    have hc := hm.count_eq fun _ => true
    rw [List.filter_true] at hc
    exact ⟨congrArg (Reply.counted ∘ Except.ok) hc, rfl⟩

theorem Sound.perform (hm : m.Sound) (q : Timed P S) : (m.perform q).2.Sound := by
  obtain ⟨now, o⟩ := q
  cases o with
  | put h p ttl => exact hm.put now h p ttl
  | get h => exact hm.get now h
  | take h expected next => exact hm.take now h expected next
  | delete h => exact hm.delete h
  | sweep => exact hm.sweep now
  | size => exact hm

theorem sound_after (qs : List (Timed P S)) : (after qs).Sound := by
  induction qs using List.reverseRecOn with
  | nil => exact sound_empty
  | append_singleton qs q ih =>
    rw [after_concat]
    exact ih.perform q

end Memory

end Handoff
