import Handoff.Hub
import Handoff.Qr.Calls
import Mathlib.Logic.Function.Basic

namespace Handoff

namespace Hub

def view (hub : Hub) : Nat → Option Subscription := fun id => hub.find? id

/-- A number that is still to be given is nobody's, and who can hear more has a topic. -/
structure Sound (hub : Hub) : Prop where
  given : ∀ id s, hub.view id = some s → id < hub.nextId
  topic : ∀ id s, hub.view id = some s → s.isOpen = true → s.handle ∈ hub.topics

structure Steady (hub hub' : Hub) : Prop where
  nextId : hub'.nextId = hub.nextId
  topics : hub'.topics = hub.topics

/-- No number is given, and a topic ends only when nobody hears it. -/
structure Lasting (hub hub' : Hub) : Prop where
  nextId : hub'.nextId = hub.nextId
  topics : ∀ h ∈ hub.topics, h ∈ hub'.topics ∨ ∀ id s, hub.view id = some s → hears h s = false

def heard (h : Handle) (m : Qr.Message) (s : Subscription) : Subscription :=
  if hears h s then deliver m s else s

variable {hub : Hub}

theorem Steady.refl (hub : Hub) : Steady hub hub := ⟨rfl, rfl⟩

theorem Steady.trans {hub hub' hub'' : Hub} (h : Steady hub hub') (h' : Steady hub' hub'') :
    Steady hub hub'' := ⟨h'.nextId.trans h.nextId, h'.topics.trans h.topics⟩

theorem Steady.lasting {hub hub' : Hub} (h : Steady hub hub') : Lasting hub hub' :=
  ⟨h.nextId, fun _ hk => .inl (h.topics ▸ hk)⟩

theorem Lasting.trans {hub hub' hub'' : Hub} (h : Lasting hub hub') (h' : Steady hub' hub'') :
    Lasting hub hub'' :=
  ⟨h'.nextId.trans h.nextId, h'.topics ▸ h.topics⟩

theorem sound_empty (limit : Nat) : (empty limit).Sound where
  given id s h := by cases h
  topic id s h := by cases h

theorem id_of_view {id : Nat} {s : Subscription} (h : hub.view id = some s) : s.id = id := by
  simpa using List.find?_some h

theorem find?_map (f : Subscription → Subscription) (hf : ∀ s, (f s).id = s.id)
    (ss : List Subscription) (id : Nat) :
    (ss.map f).find? (·.id = id) = (ss.find? (·.id = id)).map f := by
  have hp : (fun s : Subscription => decide (s.id = id)) ∘ f = fun s => decide (s.id = id) := by
    funext s
    simp [hf]
  rw [List.find?_map, hp]

theorem length_filter_ne {α : Type} {f : α → Nat} {as : List α} (hd : (as.map f).Nodup) {n : Nat}
    (hn : n ∈ as.map f) : (as.filter (f · ≠ n)).length + 1 = as.length := by
  have he : (as.filter (f · ≠ n)).map f = (as.map f).erase n := by
    rw [hd.erase_eq_filter, List.filter_map]
    congr 2
    funext a
    by_cases ha : f a = n <;> simp [ha]
  rw [← List.length_map f, he, List.length_erase_of_mem hn, List.length_map]
  exact Nat.sub_add_cancel (List.length_map f ▸ List.length_pos_of_mem hn)

theorem view_attach (hs : hub.Sound) (h : Handle) :
    (hub.attach h).2.view =
      Function.update hub.view hub.nextId (some ⟨hub.nextId, h, [], true⟩) := by
  funext id
  have hf : (hub.attach h).2.view id =
      (hub.view id).or ([⟨hub.nextId, h, [], true⟩].find? (·.id = id)) := List.find?_append
  rw [hf]
  by_cases hid : id = hub.nextId
  · subst hid
    rw [Function.update_self]
    cases hv : hub.view hub.nextId with
    | none => simp
    | some s => exact absurd (hs.given _ _ hv) (Nat.lt_irrefl _)
  · rw [Function.update_of_ne hid]
    simp [Ne.symm hid]

section Publish

variable (h : Handle) (m : Qr.Message) (hub : Hub)

@[simp] theorem publish_limit : (hub.publish h m).2.limit = hub.limit := by
  unfold publish
  dsimp only
  split <;> rfl

@[simp] theorem publish_active : (hub.publish h m).2.active = hub.active := by
  unfold publish
  dsimp only
  split <;> rfl

@[simp] theorem publish_nextId : (hub.publish h m).2.nextId = hub.nextId := by
  unfold publish
  dsimp only
  split <;> rfl

@[simp] theorem publish_topics : (hub.publish h m).2.topics =
    if m.status.isTerminal then hub.topics.filter (· ≠ h) else hub.topics := by
  unfold publish
  dsimp only
  split <;> rfl

/-- Nobody hears what is published for a handle without a topic. -/
theorem publish_subscriptions
    (ht : ∀ s ∈ hub.subscriptions, hears h s = true → h ∈ hub.topics) :
    (hub.publish h m).2.subscriptions = hub.subscriptions.map (heard h m) := by
  unfold publish
  dsimp only
  split
  · rfl
  · next hn =>
    have hsame : hub.subscriptions.map (heard h m) = hub.subscriptions.map id :=
      List.map_congr_left fun s hs => if_neg fun hh => hn (ht s hs hh)
    rw [hsame, List.map_id]

end Publish

theorem view_publish {h : Handle} (m : Qr.Message) {id : Nat}
    (ht : ∀ s, hub.view id = some s → hears h s = true → h ∈ hub.topics) :
    (hub.publish h m).2.view id = (hub.view id).map (heard h m) := by
  unfold publish
  dsimp only
  split
  · apply find?_map
    intro s
    split <;> rfl
  · next hn =>
    change hub.view id = _
    cases hv : hub.view id with
    | none => rfl
    | some s =>
      have hh : ¬hears h s = true := fun hh => hn (ht s hv hh)
      rw [Option.map_some, heard, if_neg hh]

theorem Sound.topic_of_hears (hs : hub.Sound) {h : Handle} {id : Nat} {s : Subscription}
    (hv : hub.view id = some s) (hh : hears h s = true) : h ∈ hub.topics := by
  obtain ⟨ho, rfl⟩ := of_decide_eq_true hh
  exact hs.topic id s hv ho

theorem view_drop (id : Nat) (hub : Hub) :
    (hub.drop id).view = Function.update hub.view id none := by
  unfold drop
  split
  · next hn => rw [← show hub.view id = none from hn, Function.update_eq_self]
  · funext k
    by_cases hk : k = id
    · subst hk
      rw [Function.update_self, view, find?, List.find?_eq_none]
      intro s hs
      simpa using (List.mem_filter.1 hs).2
    · rw [Function.update_of_ne hk, view, view, find?, find?, List.find?_filter]
      congr 1
      funext s
      by_cases hs : s.id = k <;> simp [hs, hk]

theorem receive_of_view {id : Nat} {s : Subscription} (hs : hub.view id = some s) :
    (hub.receive id).1 = (match s.unread with
      | m :: _ => .message m
      | [] => if s.isOpen then .nothing else .closed) ∧
    (hub.receive id).2.view = Function.update hub.view id (some { s with unread := s.unread.tail }) ∧
    Steady hub (hub.receive id).2 := by
  have hf : hub.find? id = some s := hs
  unfold receive
  rw [hf]
  dsimp only
  cases hu : s.unread with
  | nil =>
    have hr : { s with unread := [].tail } = s := congrArg (fun u => { s with unread := u }) hu.symm
    exact ⟨rfl, by rw [hr, ← hs, Function.update_eq_self], .refl hub⟩
  | cons m rest =>
    refine ⟨rfl, ?_, rfl, rfl⟩
    funext k
    have hm := find?_map (fun t => if t.id = id then { t with unread := rest } else t)
      (fun t => by split <;> rfl) hub.subscriptions k
    refine hm.trans ?_
    change (hub.view k).map _ = _
    by_cases hk : k = id
    · subst hk
      rw [hs, Function.update_self, Option.map_some, if_pos (id_of_view hs), List.tail_cons]
    · rw [Function.update_of_ne hk]
      cases hv : hub.view k with
      | none => rfl
      | some t => rw [Option.map_some, if_neg (by rwa [id_of_view hv])]

theorem steady_drop (id : Nat) (hub : Hub) : Steady hub (hub.drop id) := by
  unfold drop
  split
  · exact .refl hub
  · exact ⟨rfl, rfl⟩

theorem lasting_sweep (hub : Hub) : Lasting hub hub.sweep.2 := by
  refine ⟨rfl, fun h hh => ?_⟩
  by_cases hs : hub.subscriptions.any (hears h) = true
  · exact .inl (List.mem_filter.2 ⟨hh, hs⟩)
  · refine .inr fun id s hv => ?_
    rw [List.any_eq_true, not_exists] at hs
    simpa using fun hx => hs s ⟨List.mem_of_find?_eq_some hv, hx⟩

theorem receive_of_none {id : Nat} (hn : hub.view id = none) : hub.receive id = (.closed, hub) := by
  have hf : hub.find? id = none := hn
  rw [receive, hf]

end Hub

namespace Qr

open Hub

variable {hub : Hub} {id : Nat} {known : Status}

def seen (isOpen : Bool) : List Message → Change
  | m :: _ => .changed m
  | [] => if isOpen then .unchanged else .ended

/-- The look for a change passes over the known status and stops behind the first other one. -/
theorem nextChange_of_view {s : Subscription} (hs : hub.view id = some s) {n : Nat}
    (hn : s.unread.length < n) :
    (nextChange id known n hub).1 = seen s.isOpen (s.unread.dropWhile (·.status = known)) ∧
    (nextChange id known n hub).2.view = Function.update hub.view id
      (some { s with unread := (s.unread.dropWhile (·.status = known)).tail }) ∧
    Steady hub (nextChange id known n hub).2 := by
  induction n generalizing hub s with
  | zero => exact absurd hn (Nat.not_lt_zero _)
  | succ n ih =>
    obtain ⟨i, h, unread, isOpen⟩ := s
    obtain ⟨hr, hv, hi⟩ := receive_of_view hs
    rw [nextChange]
    generalize hub.receive id = x at hr hv hi
    obtain ⟨r, hub'⟩ := x
    cases unread with
    | nil =>
      cases isOpen with
      | true =>
        cases hr
        exact ⟨rfl, hv, hi⟩
      | false =>
        cases hr
        exact ⟨rfl, hv, hi⟩
    | cons m rest =>
      cases hr
      dsimp only at hv hi ⊢
      by_cases hm : m.status = known
      · rw [if_neg (not_not.2 hm), List.dropWhile_cons_of_pos (by simpa using hm)]
        have hs' : hub'.view id = some ⟨i, h, rest, isOpen⟩ := by
          rw [hv, Function.update_self]
          rfl
        obtain ⟨h1, h2, h3⟩ := ih hs' (Nat.lt_of_succ_lt_succ hn)
        refine ⟨h1, ?_, hi.trans h3⟩
        rw [h2, hv, Function.update_idem]
      · rw [if_pos hm, List.dropWhile_cons_of_neg (by simpa using hm)]
        exact ⟨rfl, hv, hi⟩

theorem nextChange_of_none (hn : hub.view id = none) (n : Nat) :
    nextChange id known (n + 1) hub = (.ended, hub) := by
  rw [nextChange, receive_of_none hn]

theorem advanceChange_of_view (known : Status) {s : Service} {t : Subscription}
    (ht : s.hub.view id = some t) :
    (advanceChange id known s).1 = seen t.isOpen (t.unread.dropWhile (·.status = known)) ∧
    (advanceChange id known s).2.hub.view = Function.update s.hub.view id
      (some { t with unread := (t.unread.dropWhile (·.status = known)).tail }) ∧
    Steady s.hub (advanceChange id known s).2.hub := by
  have hf : s.hub.find? id = some t := ht
  unfold advanceChange
  rw [hf]
  exact nextChange_of_view ht (Nat.lt_succ_self _)

end Qr

end Handoff
