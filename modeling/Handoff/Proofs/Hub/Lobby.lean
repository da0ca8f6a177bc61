import Handoff.Proofs.Hub.View
import Mathlib.Data.List.Forall2
import Mathlib.Data.List.Nodup

namespace Handoff

namespace Hub

/-- A subscription as its owner holds it. The topic that it is attached to goes by the number of the
subscription it was made for. -/
structure Seat where
  id : Nat
  handle : Handle
  topic : Nat
  deriving DecidableEq

structure Lobby where
  hub : Hub
  reserved : List Handle
  held : List Seat
  topic : Handle → Nat

theorem mem_topics_attach {h k : Handle} {hub : Hub} :
    k ∈ (hub.attach h).2.topics ↔ k ∈ hub.topics ∨ k = h := by
  rw [attach]
  split
  · next hm => exact ⟨.inl, fun hk => hk.elim id fun hk => hk ▸ hm⟩
  · simp

namespace Lobby

inductive Event
  | reserve (h : Handle)
  | attach (h : Handle)
  | abandon (h : Handle)
  | publish (h : Handle) (m : Qr.Message)
  | receive (id : Nat)
  | drop (id : Nat)
  | sweep
  deriving DecidableEq

def start (limit : Nat) : Lobby := ⟨.empty limit, [], [], fun _ => 0⟩

def reserve (h : Handle) (w : Lobby) : Except NotifyError Lobby :=
  w.hub.reserve.map fun hub => { w with hub, reserved := h :: w.reserved }

def topicFor (h : Handle) (id : Nat) (w : Lobby) : Nat :=
  if h ∈ w.hub.topics then w.topic h else id

def attach (h : Handle) (w : Lobby) : Lobby :=
  let (id, hub) := w.hub.attach h
  { hub
    reserved := w.reserved.erase h
    held := w.held ++ [⟨id, h, w.topicFor h id⟩]
    topic := Function.update w.topic h (w.topicFor h id) }

def next (w : Lobby) : Event → Lobby
  | .reserve h =>
    match w.reserve h with
    | .ok w' => w'
    | .error _ => w
  | .attach h => if h ∈ w.reserved then w.attach h else w
  | .abandon h =>
    if h ∈ w.reserved then { w with hub := w.hub.release, reserved := w.reserved.erase h } else w
  | .publish h m => { w with hub := (w.hub.publish h m).2 }
  | .receive id => { w with hub := (w.hub.receive id).2 }
  | .drop id => { w with hub := w.hub.drop id, held := w.held.filter (·.id ≠ id) }
  | .sweep => { w with hub := w.hub.sweep.2 }

def run (es : List Event) (w : Lobby) : Lobby := es.foldl next w

def isAttached (w : Lobby) (h : Handle) (s : Seat) : Bool := s.handle = h ∧ s.topic = w.topic h

theorem topic_attach (h : Handle) (w : Lobby) :
    (w.attach h).topic = Function.update w.topic h (w.topicFor h w.hub.nextId) := rfl

theorem next_attach {w : Lobby} {h : Handle} (hh : h ∈ w.reserved) :
    w.next (.attach h) = w.attach h := if_pos hh

theorem subscribe_eq (h : Handle) (w : Lobby) :
    w.hub.subscribe h =
      (w.reserve h).map fun w' => ((w'.hub.attach h).1, (w'.next (.attach h)).hub) := by
  rw [subscribe, reserve]
  cases w.hub.reserve with
  | error e => rfl
  | ok hub =>
    have hn := next_attach (w := { w with hub, reserved := h :: w.reserved }) List.mem_cons_self
    rw [Except.map, Except.map, Except.map, hn]
    rfl

/-- The subscription that the hub keeps for a seat. It is open as long as its topic is there. -/
structure Tied (topics : List Handle) (topic : Handle → Nat) (t : Subscription) (s : Seat) :
    Prop where
  id : t.id = s.id
  handle : t.handle = s.handle
  isOpen : t.isOpen = true ↔ s.handle ∈ topics ∧ s.topic = topic s.handle

structure Sound (m : Nat) (w : Lobby) : Prop where
  limit : w.hub.limit = m
  active : w.hub.active = w.held.length + w.reserved.length
  active_le : w.hub.active ≤ m
  tied : List.Forall₂ (Tied w.hub.topics w.topic) w.hub.subscriptions w.held
  given : ∀ s ∈ w.held, s.id < w.hub.nextId ∧ s.topic < w.hub.nextId
  numbered : ∀ h ∈ w.hub.topics, w.topic h < w.hub.nextId
  distinct : (w.held.map Seat.id).Nodup

theorem sound_start (limit : Nat) : (start limit).Sound limit where
  limit := rfl
  active := rfl
  active_le := Nat.zero_le _
  tied := .nil
  given := nofun
  numbered := nofun
  distinct := .nil

section Tied

variable {topics topics' : List Handle} {topic topic' : Handle → Nat} {ts : List Subscription}
  {ss : List Seat} {t : Subscription} {s : Seat} {h : Handle}

theorem Tied.hears_iff (ht : Tied topics topic t s) :
    hears h t = true ↔ h ∈ topics ∧ s.handle = h ∧ s.topic = topic h := by
  rw [hears, decide_eq_true_iff, ht.isOpen, ht.handle]
  constructor
  · rintro ⟨⟨hm, hn⟩, rfl⟩
    exact ⟨hm, rfl, hn⟩
  · rintro ⟨hm, rfl, hn⟩
    exact ⟨⟨hm, hn⟩, rfl⟩

theorem Tied.map_id (ht : List.Forall₂ (Tied topics topic) ts ss) :
    ts.map Subscription.id = ss.map Seat.id := by
  induction ht with
  | nil => rfl
  | cons ht _ ih => rw [List.map_cons, List.map_cons, ht.id, ih]

theorem Tied.filter (ht : List.Forall₂ (Tied topics topic) ts ss) (id : Nat) :
    List.Forall₂ (Tied topics topic) (ts.filter (·.id ≠ id)) (ss.filter (·.id ≠ id)) :=
  List.rel_filter (fun t s (ht : Tied topics topic t s) => by simp only [ht.id]) ht

theorem Tied.mono (ht : List.Forall₂ (Tied topics topic) ts ss)
    (hi : ∀ s ∈ ss, (s.handle ∈ topics' ∧ s.topic = topic' s.handle) ↔
      (s.handle ∈ topics ∧ s.topic = topic s.handle)) :
    List.Forall₂ (Tied topics' topic') ts ss := by
  rw [List.forall₂_iff_zip] at ht ⊢
  refine ⟨ht.1, fun hz => ?_⟩
  obtain ⟨hid, hh, ho⟩ := ht.2 hz
  exact ⟨hid, hh, ho.trans (hi _ (List.of_mem_zip hz).2).symm⟩

theorem Tied.any_hears (ht : List.Forall₂ (Tied topics topic) ts ss) (hh : h ∈ topics) :
    ts.any (hears h) = ss.any fun s => s.handle = h ∧ s.topic = topic h := by
  induction ht with
  | nil => rfl
  | @cons t s _ _ ht _ ih =>
    have he : hears h t = decide (s.handle = h ∧ s.topic = topic h) := by
      rw [Bool.eq_iff_iff, ht.hears_iff, decide_eq_true_iff]
      exact and_iff_right hh
    rw [List.any_cons, List.any_cons, ih, he]

theorem Tied.topic_of_hears (ht : List.Forall₂ (Tied topics topic) ts ss) (hm : t ∈ ts)
    (hh : hears h t = true) : h ∈ topics := by
  induction ht with
  | nil => cases hm
  | cons ht _ ih =>
    cases hm with
    | head => exact (ht.hears_iff.1 hh).1
    | tail _ hm => exact ih hm

theorem Tied.heard (ht : Tied topics topic t s) (h : Handle) (m : Qr.Message) :
    Tied (if m.status.isTerminal then topics.filter (· ≠ h) else topics) topic (heard h m t) s := by
  have hi := ht.hears_iff (h := h)
  rw [Hub.heard]
  by_cases hh : hears h t = true
  · obtain ⟨hm, rfl, hn⟩ := hi.1 hh
    rw [if_pos hh]
    refine ⟨ht.id, ht.handle, ?_⟩
    rw [deliver]
    cases m.status.isTerminal with
    | true => simp
    | false => exact iff_of_true rfl ⟨hm, hn⟩
  · rw [if_neg hh]
    refine ⟨ht.id, ht.handle, ht.isOpen.trans ?_⟩
    split
    · -- its topic is not the one that ends
      rw [List.mem_filter]
      constructor
      · rintro ⟨hm, hn⟩
        refine ⟨⟨hm, decide_eq_true fun he => hh (hi.2 ?_)⟩, hn⟩
        exact ⟨he ▸ hm, he, he ▸ hn⟩
      · rintro ⟨⟨hm, -⟩, hn⟩
        exact ⟨hm, hn⟩
    · exact .rfl

end Tied

namespace Sound

variable {m : Nat} {w w' : Lobby} (hw : w.Sound m)
include hw

theorem reserve {h : Handle} (hr : w.reserve h = .ok w') : w'.Sound m := by
  unfold Lobby.reserve Hub.reserve at hr
  split at hr
  · next hn =>
    cases hr
    exact { hw with
      active := congrArg (· + 1) hw.active
      active_le := hw.limit ▸ hn }
  · cases hr

theorem topicFor_lt (h : Handle) : w.topicFor h w.hub.nextId < w.hub.nextId + 1 := by
  rw [topicFor]
  split
  · next hm => exact Nat.lt_succ_of_lt (hw.numbered h hm)
  · exact Nat.lt_succ_self _

theorem attached_attach {s : Seat} (hs : s ∈ w.held) (h : Handle) :
    (s.handle ∈ (w.attach h).hub.topics ∧ s.topic = (w.attach h).topic s.handle) ↔
      (s.handle ∈ w.hub.topics ∧ s.topic = w.topic s.handle) := by
  have ht : s.handle ∈ (w.attach h).hub.topics ↔ s.handle ∈ w.hub.topics ∨ s.handle = h :=
    mem_topics_attach
  rw [ht, topic_attach]
  by_cases hh : s.handle = h
  · subst hh
    rw [Function.update_self, topicFor]
    have hn := Nat.ne_of_lt (hw.given s hs).2
    split
    · next hm => exact and_congr_left fun _ => iff_of_true (.inl hm) hm
    · next hm => exact iff_of_false (fun hx => hn hx.2) fun hx => hm hx.1
  · rw [Function.update_of_ne hh]
    exact and_congr_left fun _ => or_iff_left hh

theorem attach {h : Handle} (hh : h ∈ w.reserved) : (w.attach h).Sound m where
  limit := hw.limit
  active := by
    have hl := List.length_erase_add_one hh
    have ha := hw.active
    change w.hub.active = (w.held ++ [_]).length + (w.reserved.erase h).length
    rw [List.length_append, List.length_singleton]
    omega
  active_le := hw.active_le
  tied := by
    have hn : w.topicFor h w.hub.nextId = (w.attach h).topic h := by
      rw [topic_attach, Function.update_self]
    refine List.rel_append (Tied.mono hw.tied fun s hs => hw.attached_attach hs h)
      (.cons ⟨rfl, rfl, ?_⟩ .nil)
    exact iff_of_true rfl ⟨mem_topics_attach.2 (.inr rfl), hn⟩
  given := by
    refine List.forall_mem_append.2 ⟨fun s hs => ?_, List.forall_mem_singleton.2 ⟨?_, ?_⟩⟩
    · exact (hw.given s hs).imp Nat.lt_succ_of_lt Nat.lt_succ_of_lt
    · exact Nat.lt_succ_self _
    · exact hw.topicFor_lt h
  numbered k hk := by
    change (w.attach h).topic k < w.hub.nextId + 1
    rw [topic_attach]
    by_cases hkh : k = h
    · rw [hkh, Function.update_self]
      exact hw.topicFor_lt h
    · rw [Function.update_of_ne hkh]
      exact Nat.lt_succ_of_lt (hw.numbered k ((mem_topics_attach.1 hk).resolve_right hkh))
  distinct := by
    change ((w.held ++ [_]).map Seat.id).Nodup
    rw [List.map_append, List.map_singleton]
    refine List.nodup_append.2 ⟨hw.distinct, List.nodup_singleton _, fun a ha b hb => ?_⟩
    obtain ⟨s, hs, rfl⟩ := List.mem_map.1 ha
    rw [List.mem_singleton.1 hb]
    exact Nat.ne_of_lt (hw.given s hs).1

theorem abandon {h : Handle} (hh : h ∈ w.reserved) :
    ({ w with hub := w.hub.release, reserved := w.reserved.erase h } : Lobby).Sound m :=
  { hw with
    active := by
      have hl := List.length_erase_add_one hh
      have ha := hw.active
      change w.hub.active - 1 = w.held.length + (w.reserved.erase h).length
      omega
    active_le := Nat.le_trans (Nat.sub_le _ _) hw.active_le }

theorem publish (h : Handle) (msg : Qr.Message) :
    ({ w with hub := (w.hub.publish h msg).2 } : Lobby).Sound m :=
  { hw with
    limit := (Hub.publish_limit ..).trans hw.limit
    active := (Hub.publish_active ..).trans hw.active
    active_le := le_of_eq_of_le (Hub.publish_active ..) hw.active_le
    tied := by
      rw [Hub.publish_topics, Hub.publish_subscriptions _ _ _ fun _ => Tied.topic_of_hears hw.tied]
      exact List.forall₂_map_left_iff.2 (hw.tied.imp fun _ _ ht => ht.heard h msg)
    given := fun s hs => by
      rw [Hub.publish_nextId]
      exact hw.given s hs
    numbered := by
      intro k hk
      rw [Hub.publish_nextId]
      rw [Hub.publish_topics] at hk
      split at hk
      · exact hw.numbered k (List.mem_of_mem_filter hk)
      · exact hw.numbered k hk }

theorem receive (id : Nat) : ({ w with hub := (w.hub.receive id).2 } : Lobby).Sound m := by
  unfold Hub.receive
  split
  · exact hw
  · split
    · refine { hw with tied := List.forall₂_map_left_iff.2 (hw.tied.imp fun t s ht => ?_) }
      split
      · exact ⟨ht.id, ht.handle, ht.isOpen⟩
      · exact ht
    · exact hw

theorem find?_eq_none_iff {id : Nat} : w.hub.find? id = none ↔ id ∉ w.held.map Seat.id := by
  rw [← Tied.map_id hw.tied, Hub.find?, List.find?_eq_none, List.mem_map]
  simp

theorem next_drop {id : Nat} (hid : id ∉ w.held.map Seat.id) : w.next (.drop id) = w := by
  have hf : w.held.filter (·.id ≠ id) = w.held :=
    List.filter_eq_self.2 fun s hs => decide_eq_true fun he => hid (he ▸ List.mem_map_of_mem hs)
  rw [Lobby.next, hf, Hub.drop, hw.find?_eq_none_iff.2 hid]

theorem drop (id : Nat) :
    ({ w with hub := w.hub.drop id, held := w.held.filter (·.id ≠ id) } : Lobby).Sound m := by
  by_cases hid : id ∈ w.held.map Seat.id
  · obtain ⟨t, ht⟩ := Option.ne_none_iff_exists'.1 (mt hw.find?_eq_none_iff.1 (not_not.2 hid))
    rw [Hub.drop, ht]
    have hl := length_filter_ne hw.distinct hid
    have ha := hw.active
    refine { hw with active := ?_, active_le := ?_, tied := ?_, given := ?_, distinct := ?_ }
    · change w.hub.active - 1 = (w.held.filter (·.id ≠ id)).length + w.reserved.length
      omega
    · exact Nat.le_trans (Nat.sub_le _ _) hw.active_le
    · exact Tied.filter hw.tied id
    · exact fun s hs => hw.given s (List.mem_of_mem_filter hs)
    · exact hw.distinct.sublist (List.filter_sublist.map _)
  · have hn := hw.next_drop hid
    rw [Lobby.next] at hn
    rwa [hn]

/-- A sweep leaves the topics that somebody is attached to. -/
theorem topics_sweep : w.hub.sweep.2.topics =
    w.hub.topics.filter fun h => w.held.any (w.isAttached h) :=
  List.filter_congr fun _ hh => Tied.any_hears hw.tied hh

theorem sweep : ({ w with hub := w.hub.sweep.2 } : Lobby).Sound m := by
  have hm := hw.topics_sweep
  refine { hw with tied := Tied.mono hw.tied fun s hs => ?_, numbered := fun k hk => ?_ }
  · rw [hm, List.mem_filter, List.any_eq_true]
    refine ⟨fun hx => ⟨hx.1.1, hx.2⟩, fun hx => ⟨⟨hx.1, s, hs, ?_⟩, hx.2⟩⟩
    exact decide_eq_true ⟨rfl, hx.2⟩
  · exact hw.numbered k (List.mem_of_mem_filter hk)

theorem next (e : Event) : (w.next e).Sound m := by
  cases e with
  | reserve h =>
    rw [Lobby.next]
    split
    · next hr => exact hw.reserve hr
    · exact hw
  | attach h =>
    rw [Lobby.next]
    split
    · next hh => exact hw.attach hh
    · exact hw
  | abandon h =>
    rw [Lobby.next]
    split
    · next hh => exact hw.abandon hh
    · exact hw
  | publish h msg => exact hw.publish h msg
  | receive id => exact hw.receive id
  | drop id => exact hw.drop id
  | sweep => exact hw.sweep

theorem run (es : List Event) : (w.run es).Sound m := by
  induction es generalizing w with
  | nil => exact hw
  | cons e es ih => exact ih (hw.next e)

end Sound

/-- The places of a hub that has `m` of them are counted exactly. -/
structure Exact (m : Nat) (w : Lobby) : Prop where
  active_eq : w.hub.active = w.held.length + w.reserved.length
  active_le : w.hub.active ≤ m
  alive : w.hub.subscriptions.map Subscription.id = w.held.map Seat.id
  reserve_iff : ∀ h e, w.reserve h = .error e ↔ w.hub.active = m ∧ e = .tooManySubscribers m
  subscribe_iff : ∀ h e, w.hub.subscribe h = .error e ↔
    w.hub.active = m ∧ e = .tooManySubscribers m
  refused : ∀ h, w.hub.active = m → w.next (.reserve h) = w
  abandoned : ∀ h ∈ w.reserved, (w.next (.abandon h)).hub.active + 1 = w.hub.active
  dropped : ∀ s ∈ w.held, (w.next (.drop s.id)).hub.active + 1 = w.hub.active
  unheld : ∀ id ∉ w.held.map Seat.id, w.next (.drop id) = w
  published : ∀ h msg, (w.next (.publish h msg)).hub.active = w.hub.active
  swept : (w.next .sweep).hub.topics = w.hub.topics.filter fun h => w.held.any (w.isAttached h)

namespace Sound

variable {m : Nat} {w : Lobby} (hw : w.Sound m)
include hw

theorem reserve_eq_error_iff (h : Handle) (e : NotifyError) :
    w.reserve h = .error e ↔ w.hub.active = m ∧ e = .tooManySubscribers m := by
  have ha := hw.active_le
  unfold Lobby.reserve Hub.reserve
  rw [hw.limit]
  split
  · next hn => exact iff_of_false nofun fun hx => Nat.ne_of_lt hn hx.1
  · next hn =>
    have hm : w.hub.active = m := Nat.le_antisymm ha (Nat.not_lt.1 hn)
    constructor
    · rintro ⟨⟩
      exact ⟨hm, rfl⟩
    · rintro ⟨-, rfl⟩
      rfl

theorem counted : w.Exact m where
  active_eq := hw.active
  active_le := hw.active_le
  alive := Tied.map_id hw.tied
  reserve_iff := hw.reserve_eq_error_iff
  subscribe_iff h e := by
    rw [← hw.reserve_eq_error_iff h e, subscribe_eq]
    cases w.reserve h with
    | error e' => rw [Except.map, Except.error.injEq, Except.error.injEq]
    | ok w' => exact iff_of_false nofun nofun
  refused h hm := by rw [Lobby.next, (hw.reserve_eq_error_iff h _).2 ⟨hm, rfl⟩]
  abandoned h hh := by
    have ha := (hw.next (.abandon h)).active
    have hn : w.next (.abandon h) =
        { w with hub := w.hub.release, reserved := w.reserved.erase h } := if_pos hh
    rw [hn] at ha ⊢
    rw [ha, hw.active, ← List.length_erase_add_one hh]
    rfl
  dropped s hs := by
    have hl := length_filter_ne hw.distinct (List.mem_map_of_mem hs)
    rw [(hw.next (.drop s.id)).active, hw.active, ← hl]
    exact Nat.add_right_comm ..
  unheld _ := hw.next_drop
  published h m := Hub.publish_active h m w.hub
  swept := hw.topics_sweep

end Sound

/-- Whoever comes and goes, in whatever order, the places are counted exactly. -/
theorem run_exact (limit : Nat) (es : List Event) : ((start limit).run es).Exact limit :=
  ((sound_start limit).run es).counted

section Example

def crowded : Lobby := (start 2).run [.reserve ⟨"a"⟩, .attach ⟨"a"⟩, .reserve ⟨"b"⟩]

theorem run_exact_crowded : crowded.next (.reserve ⟨"c"⟩) = crowded ∧
    (crowded.next (.abandon ⟨"b"⟩)).hub.active = 1 ∧ (crowded.next (.drop 0)).hub.active = 1 ∧
      crowded.next (.drop 1) = crowded := by
  have h : crowded.Exact 2 := run_exact 2 _
  have hd : (crowded.next (.drop 0)).hub.active + 1 = 2 := h.dropped ⟨0, ⟨"a"⟩, 0⟩ (by decide)
  exact ⟨h.refused _ rfl, Nat.succ.inj (h.abandoned _ (by decide)), Nat.succ.inj hd,
    h.unheld 1 (by decide)⟩

end Example

end Lobby

end Hub

end Handoff
