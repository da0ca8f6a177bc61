import Handoff.Proofs.Hub.Streams
/-!
The ideal hub keeps for each subscription all that was published for its handle since it began, and
how far this was read; its topics are numbered, and a subscription belongs to the topic that was
there when it began. The hub answers each request as the ideal one does, which knows nothing of
sweeps and throws no message away before it is passed over.
-/

namespace Handoff

def Received.message? : Received → Option Qr.Message
  | message m => some m
  | _ => none

namespace Hub

open Qr (upToTerminal upToTerminal_concat upToTerminal_eq_self Message)

/-- What the hub is asked. A reader that waits asks again for as long as there is nothing. -/
inductive Request
  | subscribe (h : Handle)
  | publish (h : Handle) (m : Message)
  | recv (id : Nat)
  | tryRecv (id : Nat)
  | drop (id : Nat)
  | sweep
  deriving DecidableEq

inductive Reply
  | subscribed (r : Except NotifyError Nat)
  | delivered (n : Nat)
  | received (r : Received)
  | tried (m : Option Message)
  | dropped
  | swept (n : Nat)

def Request.isSweep : Request → Bool
  | sweep => true
  | _ => false

def perform (q : Request) (hub : Hub) : Reply × Hub :=
  match q with
  | .subscribe h =>
    match hub.subscribe h with
    | .error e => (.subscribed (.error e), hub)
    | .ok (id, hub) => (.subscribed (.ok id), hub)
  | .publish h m => Prod.map .delivered id (hub.publish h m)
  | .recv id => Prod.map .received (fun hub => hub) (hub.receive id)
  | .tryRecv id => Prod.map (fun r => .tried r.message?) (fun hub => hub) (hub.receive id)
  | .drop id => (.dropped, hub.drop id)
  | .sweep => Prod.map .swept id hub.sweep

def trace : List Request → Hub → List (Request × Reply)
  | [], _ => []
  | q :: qs, hub => (q, (hub.perform q).1) :: trace qs (hub.perform q).2

def after (qs : List Request) (hub : Hub) : Hub := qs.foldl (fun hub q => (hub.perform q).2) hub

structure Listener where
  id : Nat
  handle : Handle
  topic : Nat
  published : List Message
  /-- How many of the messages that are due were read or passed over. -/
  position : Nat

namespace Listener

def due (l : Listener) : List Message := upToTerminal l.published

def hasEnded (l : Listener) : Bool := l.published.any Message.isLast

/-- Where the next read is: not before the last sixteen messages that are due. -/
def next (l : Listener) : Nat := max l.position (l.due.length - capacity)

def receive (l : Listener) : Received × Listener :=
  match l.due[l.next]? with
  | some m => (.message m, { l with position := l.next + 1 })
  | none => (if l.hasEnded then .closed else .nothing, l)

def hear (h : Handle) (m : Message) (l : Listener) : Listener :=
  if l.handle = h then { l with published := l.published ++ [m] } else l

end Listener

structure Ideal where
  limit : Nat
  fresh : Nat
  topic : Handle → Nat
  listeners : List Listener

namespace Ideal

def start (limit : Nat) : Ideal := ⟨limit, 0, fun _ => 0, []⟩

def isAttached (h : Handle) (i : Ideal) (l : Listener) : Bool := l.handle = h ∧ l.topic = i.topic h

def find? (id : Nat) (i : Ideal) : Option Listener := i.listeners.find? (·.id = id)

def receive (id : Nat) (i : Ideal) : Received × Ideal :=
  match i.find? id with
  | none => (.closed, i)
  | some l => (l.receive.1,
    { i with listeners := i.listeners.map fun k => if k.id = id then l.receive.2 else k })

/-- A terminal message ends the topic: those who subscribe from then on belong to the next one. -/
def perform (q : Request) (i : Ideal) : Reply × Ideal :=
  match q with
  | .subscribe h =>
    if i.listeners.length < i.limit then
      (.subscribed (.ok i.fresh),
        { i with
          fresh := i.fresh + 1
          listeners := i.listeners ++ [⟨i.fresh, h, i.topic h, [], 0⟩] })
    else (.subscribed (.error (.tooManySubscribers i.limit)), i)
  | .publish h m =>
    (.delivered (i.listeners.countP (i.isAttached h)),
      { i with
        topic := if m.isLast then Function.update i.topic h (i.topic h + 1) else i.topic
        listeners := i.listeners.map (Listener.hear h m) })
  | .recv id => Prod.map .received (fun i => i) (i.receive id)
  | .tryRecv id => Prod.map (fun r => .tried r.message?) (fun i => i) (i.receive id)
  | .drop id => (.dropped, { i with listeners := i.listeners.filter (·.id ≠ id) })
  | .sweep => (.swept 0, i)

def trace : List Request → Ideal → List (Request × Reply)
  | [], _ => []
  | q :: qs, i => (q, (i.perform q).1) :: trace qs (i.perform q).2

end Ideal

namespace Listener

variable {l : Listener} {h : Handle} {m : Message}

def subscription (l : Listener) : Subscription := ⟨l.id, l.handle, l.due.drop l.next, !l.hasEnded⟩

def Sound (l : Listener) : Prop := l.position ≤ l.due.length

theorem Sound.next_le (hl : l.Sound) : l.next ≤ l.due.length := by
  have hl : l.position ≤ l.due.length := hl
  unfold next
  omega

theorem due_hear_of_ended (he : l.hasEnded = true) : (l.hear h m).due = l.due := by
  unfold hear
  split
  · exact (upToTerminal_concat ..).trans (if_pos he)
  · rfl

theorem hasEnded_hear_of_ended (he : l.hasEnded = true) : (l.hear h m).hasEnded = true := by
  have he : l.published.any Message.isLast = true := he
  unfold hear
  split
  · simp [hasEnded, he]
  · exact he

theorem due_hear (he : l.hasEnded = false) : (l.hear l.handle m).due = l.due ++ [m] := by
  have he' : ¬(l.published.any Message.isLast = true) := Bool.eq_false_iff.1 he
  rw [hear, if_pos rfl, due, upToTerminal_concat, if_neg he', due, upToTerminal_eq_self he]

theorem hasEnded_hear (he : l.hasEnded = false) : (l.hear l.handle m).hasEnded = m.isLast := by
  have he : l.published.any Message.isLast = false := he
  rw [hear, if_pos rfl, hasEnded, List.any_append, he]
  simp

theorem Sound.hear (hl : l.Sound) (h : Handle) (m : Message) : (l.hear h m).Sound := by
  by_cases hh : l.handle = h
  · subst hh
    have hp : (l.hear l.handle m).position = l.position := by rw [Listener.hear, if_pos rfl]
    have hl : l.position ≤ l.due.length := hl
    unfold Sound
    rw [hp]
    cases he : l.hasEnded with
    | true => rwa [due_hear_of_ended he]
    | false =>
      rw [due_hear he, List.length_append]
      exact Nat.le_add_right_of_le hl
  · rwa [Listener.hear, if_neg hh]

theorem keepLast_concat (hl : l.Sound) (m : Message) :
    keepLast (l.due.drop l.next ++ [m]) =
      (l.due ++ [m]).drop (max l.position ((l.due ++ [m]).length - capacity)) := by
  have hn := hl.next_le
  have hl : l.position ≤ l.due.length := hl
  rw [← List.drop_append_of_le_length hn, keepLast, List.drop_drop, List.length_drop,
    List.length_append, List.length_singleton]
  congr 1
  unfold next capacity
  omega

theorem subscription_hear (hl : l.Sound) :
    (l.hear h m).subscription =
      if hears h l.subscription then deliver m l.subscription else l.subscription := by
  by_cases hh : l.handle = h
  · subst hh
    cases he : l.hasEnded with
    | true =>
      have hn : ¬hears l.handle l.subscription = true := by simp [hears, subscription, he]
      rw [if_neg hn]
      have hd : (l.hear l.handle m).due = l.due := due_hear_of_ended he
      have hx : (l.hear l.handle m).hasEnded = l.hasEnded := by rw [hasEnded_hear_of_ended he, he]
      simp only [subscription, next, hd, hx]
      simp [hear]
    | false =>
      have hy : hears l.handle l.subscription = true := by simp [hears, subscription, he]
      have hd : (l.hear l.handle m).due = l.due ++ [m] := due_hear he
      have hx : (l.hear l.handle m).hasEnded = m.isLast := hasEnded_hear he
      have hp : (l.hear l.handle m).next =
          max l.position ((l.due ++ [m]).length - capacity) := by
        rw [next, hd, hear, if_pos rfl]
      rw [if_pos hy, subscription, hp, hd, hx, ← keepLast_concat hl, hear, if_pos rfl]
      rfl
  · have hn : ¬hears h l.subscription = true := by simp [hears, subscription, hh]
    rw [if_neg hn, hear, if_neg hh]

theorem drop_next (l : Listener) : l.due.drop l.next =
    match l.due[l.next]? with
    | some m => m :: l.due.drop (l.next + 1)
    | none => [] := by
  cases hm : l.due[l.next]? with
  | none => exact List.drop_eq_nil_of_le (List.getElem?_eq_none_iff.1 hm)
  | some m =>
    obtain ⟨hlt, hm⟩ := List.getElem?_eq_some_iff.1 hm
    rw [List.drop_eq_getElem_cons hlt, hm]

theorem receive_of_some (hm : l.due[l.next]? = some m) :
    l.receive = (.message m, { l with position := l.next + 1 }) := by
  rw [receive, hm]

theorem receive_of_none (hm : l.due[l.next]? = none) :
    l.receive = (if l.hasEnded then .closed else .nothing, l) := by
  rw [receive, hm]

theorem receive_moves (l : Listener) : ∃ p, l.receive.2 = { l with position := p } := by
  cases hm : l.due[l.next]? with
  | none => exact ⟨l.position, by rw [receive_of_none hm]⟩
  | some m => exact ⟨l.next + 1, by rw [receive_of_some hm]⟩

theorem subscription_receive (hl : l.Sound) :
    l.receive.2.subscription = { l.subscription with unread := l.subscription.unread.tail } ∧
      l.receive.2.Sound := by
  have hd := l.drop_next
  cases hm : l.due[l.next]? with
  | none =>
    rw [hm] at hd
    rw [receive_of_none hm]
    refine ⟨?_, hl⟩
    simp only [subscription, hd, List.tail_nil]
  | some m =>
    rw [hm] at hd
    rw [receive_of_some hm]
    obtain ⟨hlt, -⟩ := List.getElem?_eq_some_iff.1 hm
    have hp : max (l.next + 1) (l.due.length - capacity) = l.next + 1 := by
      unfold next
      omega
    refine ⟨?_, hlt⟩
    change Subscription.mk l.id l.handle
      (l.due.drop (max (l.next + 1) (l.due.length - capacity))) _ =
      Subscription.mk l.id l.handle (l.due.drop l.next).tail _
    rw [hp, hd, List.tail_cons]
    rfl

theorem receive_eq (l : Listener) : l.receive.1 =
    match l.subscription.unread with
    | m :: _ => .message m
    | [] => if l.subscription.isOpen then .nothing else .closed := by
  have hd : l.subscription.unread = _ := l.drop_next
  rw [hd]
  cases hm : l.due[l.next]? with
  | some m => rw [receive_of_some hm]
  | none =>
    rw [receive_of_none hm]
    cases he : l.hasEnded <;> simp [subscription, he]

/-- The handle's topics are numbered up to the one that it has now, which no terminal message has
come through yet. -/
structure Numbered (topic : Handle → Nat) (l : Listener) : Prop where
  past : l.topic ≤ topic l.handle
  current : l.topic = topic l.handle ↔ l.hasEnded = false

theorem Numbered.hear {topic : Handle → Nat} (hl : l.Numbered topic) (h : Handle) (m : Message) :
    (l.hear h m).Numbered
      (if m.isLast then Function.update topic h (topic h + 1) else topic) := by
  by_cases hh : l.handle = h
  · subst hh
    have hn := hl.past
    cases hm : m.isLast with
    | true =>
      -- The topic is over for those who were in it, and was for all others.
      have he : (l.hear l.handle m).hasEnded = true := by
        cases he : l.hasEnded with
        | true => exact hasEnded_hear_of_ended he
        | false => rw [hasEnded_hear he, hm]
      rw [if_pos rfl]
      rw [Listener.hear, if_pos rfl] at he ⊢
      constructor
      · change l.topic ≤ Function.update topic l.handle (topic l.handle + 1) l.handle
        rw [Function.update_self]
        exact Nat.le_succ_of_le hn
      · rw [he]
        change l.topic = Function.update topic l.handle (topic l.handle + 1) l.handle ↔ _
        rw [Function.update_self]
        exact ⟨fun hx => absurd hx (by omega), fun hx => Bool.noConfusion hx⟩
    | false =>
      have he : (l.hear l.handle m).hasEnded = l.hasEnded := by
        cases he : l.hasEnded with
        | true => exact hasEnded_hear_of_ended he
        | false => rw [hasEnded_hear he, hm]
      rw [if_neg Bool.false_ne_true]
      rw [Listener.hear, if_pos rfl] at he ⊢
      exact ⟨hn, by rw [he]; exact hl.current⟩
  · rw [Listener.hear, if_neg hh]
    have ht : (if m.isLast then Function.update topic h (topic h + 1) else topic) l.handle =
        topic l.handle := by
      split
      · exact Function.update_of_ne hh ..
      · rfl
    exact ⟨ht.symm ▸ hl.past, by rw [ht]; exact hl.current⟩

end Listener

namespace Ideal

variable {i : Ideal} {h : Handle} {m : Message} {id : Nat}

structure Orderly (i : Ideal) : Prop where
  sound : ∀ l ∈ i.listeners, l.Sound
  given : ∀ l ∈ i.listeners, l.id < i.fresh
  distinct : (i.listeners.map Listener.id).Nodup
  numbered : ∀ l ∈ i.listeners, l.Numbered i.topic

def Covered (topics : List Handle) (i : Ideal) : Prop :=
  ∀ l ∈ i.listeners, l.hasEnded = false → l.handle ∈ topics

def hub (topics : List Handle) (i : Ideal) : Hub :=
  ⟨i.limit, i.listeners.length, topics, i.listeners.map Listener.subscription, i.fresh⟩

theorem orderly_start (limit : Nat) : (start limit).Orderly where
  sound := nofun
  given := nofun
  distinct := .nil
  numbered := nofun

theorem covered_start (limit : Nat) : (start limit).Covered [] := nofun

theorem hub_start (limit : Nat) : (start limit).hub [] = empty limit := rfl

theorem find?_hub (topics : List Handle) (i : Ideal) (id : Nat) :
    (i.hub topics).find? id = (i.find? id).map Listener.subscription := List.find?_map

theorem Orderly.find?_eq (hi : i.Orderly) {l k : Listener} (hl : i.find? id = some l)
    (hk : k ∈ i.listeners) (hid : k.id = id) : k = l := by
  have hd := List.inj_on_of_nodup_map hi.distinct hk (List.mem_of_find?_eq_some hl)
  have hm : l.id = id := by simpa using List.find?_some hl
  exact hd (hid.trans hm.symm)

theorem isAttached_eq (hi : i.Orderly) {l : Listener} (hl : l ∈ i.listeners) :
    i.isAttached h l = hears h l.subscription := by
  have hc := (hi.numbered l hl).current
  refine Bool.eq_iff_iff.2 ?_
  simp only [isAttached, hears, Listener.subscription, decide_eq_true_eq, Bool.not_eq_true']
  constructor
  · rintro ⟨rfl, ht⟩
    exact ⟨hc.1 ht, rfl⟩
  · rintro ⟨he, rfl⟩
    exact ⟨rfl, hc.2 he⟩

theorem Orderly.map (hi : i.Orderly) (topic : Handle → Nat) {f : Listener → Listener}
    (hid : ∀ l, (f l).id = l.id) (hs : ∀ l ∈ i.listeners, (f l).Sound)
    (hn : ∀ l ∈ i.listeners, (f l).Numbered topic) :
    ({ i with topic, listeners := i.listeners.map f } : Ideal).Orderly where
  sound l hl := by
    obtain ⟨k, hk, rfl⟩ := List.mem_map.1 hl
    exact hs k hk
  given l hl := by
    obtain ⟨k, hk, rfl⟩ := List.mem_map.1 hl
    exact (hid k).symm ▸ hi.given k hk
  distinct := by
    have he : Listener.id ∘ f = Listener.id := funext hid
    rw [List.map_map, he]
    exact hi.distinct
  numbered l hl := by
    obtain ⟨k, hk, rfl⟩ := List.mem_map.1 hl
    exact hn k hk

theorem Orderly.subscribe (hi : i.Orderly) (h : Handle) :
    ({ i with fresh := i.fresh + 1,
              listeners := i.listeners ++ [⟨i.fresh, h, i.topic h, [], 0⟩] } : Ideal).Orderly where
  sound := by
    rw [List.forall_mem_append, List.forall_mem_singleton]
    exact ⟨hi.sound, Nat.zero_le _⟩
  given := by
    rw [List.forall_mem_append, List.forall_mem_singleton]
    exact ⟨fun l hl => Nat.lt_succ_of_lt (hi.given l hl), Nat.lt_succ_self _⟩
  distinct := by
    rw [List.map_append, List.map_singleton]
    refine List.nodup_append.2 ⟨hi.distinct, List.nodup_singleton _, ?_⟩
    intro a ha b hb
    obtain ⟨l, hl, rfl⟩ := List.mem_map.1 ha
    rw [List.mem_singleton.1 hb]
    exact Nat.ne_of_lt (hi.given l hl)
  numbered := by
    rw [List.forall_mem_append, List.forall_mem_singleton]
    exact ⟨hi.numbered, Nat.le_refl _, iff_of_true rfl rfl⟩

theorem Orderly.filter (hi : i.Orderly) (p : Listener → Bool) :
    ({ i with listeners := i.listeners.filter p } : Ideal).Orderly where
  sound l hl := hi.sound l (List.mem_of_mem_filter hl)
  given l hl := hi.given l (List.mem_of_mem_filter hl)
  distinct := hi.distinct.sublist (List.filter_sublist.map _)
  numbered l hl := hi.numbered l (List.mem_of_mem_filter hl)

theorem Orderly.receive (hi : i.Orderly) (id : Nat) : (i.receive id).2.Orderly := by
  unfold Ideal.receive
  cases hf : i.find? id with
  | none => exact hi
  | some l =>
    have hl := List.mem_of_find?_eq_some hf
    have hid : l.id = id := by simpa using List.find?_some hf
    obtain ⟨p, hp⟩ := l.receive_moves
    refine hi.map i.topic ?_ ?_ ?_
    · intro k
      split
      · next hk => rw [hp, hk, hid]
      · rfl
    · intro k hk
      split
      · exact (Listener.subscription_receive (hi.sound l hl)).2
      · exact hi.sound k hk
    · intro k hk
      split
      · rw [hp]
        exact ⟨(hi.numbered l hl).past, (hi.numbered l hl).current⟩
      · exact hi.numbered k hk

theorem Orderly.publish (hi : i.Orderly) (h : Handle) (m : Message) :
    (i.perform (.publish h m)).2.Orderly := by
  refine hi.map _ ?_ (fun l hl => (hi.sound l hl).hear h m) fun l hl =>
    (hi.numbered l hl).hear h m
  intro l
  unfold Listener.hear
  split <;> rfl

theorem Orderly.perform (hi : i.Orderly) (q : Request) : (i.perform q).2.Orderly := by
  cases q with
  | subscribe h =>
    rw [Ideal.perform]
    split
    · exact hi.subscribe h
    · exact hi
  | publish h m => exact hi.publish h m
  | recv id => exact hi.receive id
  | tryRecv id => exact hi.receive id
  | drop id => exact hi.filter _
  | sweep => exact hi

theorem map_receive (hi : i.Orderly) {l : Listener} (hl : i.find? id = some l) :
    (i.receive id).2.listeners.map Listener.subscription =
      (i.listeners.map Listener.subscription).map fun s =>
        if s.id = id then { s with unread := l.subscription.unread.tail } else s := by
  have hs := (Listener.subscription_receive (hi.sound l (List.mem_of_find?_eq_some hl))).1
  rw [receive, hl, List.map_map, List.map_map]
  refine List.map_congr_left fun k hk => ?_
  by_cases hid : k.id = id
  · have hkl := hi.find?_eq hl hk hid
    subst hkl
    simp only [Function.comp_apply, if_pos hid, hs]
    exact (if_pos hid).symm
  · simp only [Function.comp_apply, if_neg hid]
    exact (if_neg hid).symm

theorem hub_receive (topics : List Handle) (i : Ideal) (id : Nat) :
    (i.receive id).2.hub topics =
      { i.hub topics with
        subscriptions := (i.receive id).2.listeners.map Listener.subscription } := by
  unfold receive
  split
  · rfl
  · simp only [hub, List.length_map]

theorem receive_hub (hi : i.Orderly) (topics : List Handle) (id : Nat) :
    (i.hub topics).receive id = ((i.receive id).1, (i.receive id).2.hub topics) := by
  have hf := find?_hub topics i id
  cases hl : i.find? id with
  | none =>
    rw [hl] at hf
    rw [Hub.receive, hf, Ideal.receive, hl]
    rfl
  | some l =>
    rw [hl] at hf
    have hr : (i.receive id).1 = l.receive.1 := by rw [receive, hl]
    rw [hr, l.receive_eq, hub_receive, map_receive hi hl, Hub.receive, hf]
    dsimp only [Option.map_some]
    cases hu : l.subscription.unread with
    | cons m rest => rfl
    | nil =>
      refine congrArg (Prod.mk _)
        (congrArg (fun ss => { i.hub topics with subscriptions := ss }) ?_)
      rw [List.map_map]
      refine List.map_congr_left fun k hk => ?_
      dsimp only [Function.comp_apply]
      split
      · next hid =>
        rw [hi.find?_eq hl hk hid, List.tail_nil, ← hu]
      · rfl

variable {topics : List Handle}

theorem subscribe_hub (hn : i.listeners.length < i.limit) (hc : i.Covered topics) (h : Handle) :
    ∃ topics', Covered topics' (i.perform (.subscribe h)).2 ∧ (i.hub topics).subscribe h =
      .ok (i.fresh, hub topics' (i.perform (.subscribe h)).2) := by
  have hn' : (i.hub topics).active < (i.hub topics).limit := hn
  refine ⟨((i.hub topics).attach h).2.topics, ?_, ?_⟩
  · rw [perform, if_pos hn]
    refine List.forall_mem_append.2 ⟨fun l hl he => ?_, List.forall_mem_singleton.2 fun _ => ?_⟩
    · change l.handle ∈ if h ∈ topics then topics else topics ++ [h]
      split
      · exact hc l hl he
      · exact List.mem_append_left _ (hc l hl he)
    · change h ∈ if h ∈ topics then topics else topics ++ [h]
      split
      · assumption
      · exact List.mem_concat_self
  · rw [Hub.subscribe, Hub.reserve, if_pos hn', perform, if_pos hn]
    simp only [hub, List.length_append, List.map_append]
    rfl

theorem Covered.publish (hc : i.Covered topics) (h : Handle) (m : Message) :
    Covered (if m.status.isTerminal then topics.filter (· ≠ h) else topics)
      (i.perform (.publish h m)).2 := by
  refine List.forall_mem_map.2 fun l hl he => ?_
  by_cases hh : l.handle = h
  · subst hh
    have hx : l.hasEnded = false := by
      cases hx : l.hasEnded with
      | false => rfl
      | true => rwa [Listener.hasEnded_hear_of_ended hx] at he
    have hm : m.status.isTerminal = false := (Listener.hasEnded_hear hx).symm.trans he
    rw [hm, Listener.hear, if_pos rfl]
    exact hc l hl hx
  · rw [Listener.hear, if_neg hh] at he ⊢
    split
    · exact List.mem_filter.2 ⟨hc l hl he, by simpa using hh⟩
    · exact hc l hl he

theorem Covered.not_hears (hc : i.Covered topics) (hn : h ∉ topics) {l : Listener}
    (hl : l ∈ i.listeners) : ¬hears h l.subscription = true := by
  intro hh
  obtain ⟨ho, rfl⟩ := of_decide_eq_true hh
  exact hn (hc l hl (by simpa [Listener.subscription] using ho))

theorem publish_hub (hi : i.Orderly) (hc : i.Covered topics) (h : Handle) (m : Message) :
    ∃ topics', Covered topics' (i.perform (.publish h m)).2 ∧ (i.hub topics).publish h m =
      (i.listeners.countP (i.isAttached h), hub topics' (i.perform (.publish h m)).2) := by
  refine ⟨_, hc.publish h m, ?_⟩
  have hcount : ((i.listeners.map Listener.subscription).filter (hears h)).length =
      i.listeners.countP (i.isAttached h) := by
    rw [← List.countP_eq_length_filter, List.countP_map]
    exact List.countP_congr fun l hl => by rw [isAttached_eq hi hl]; rfl
  have hm : (i.listeners.map Listener.subscription).map
        (fun s => if hears h s then deliver m s else s) =
      (i.listeners.map (Listener.hear h m)).map Listener.subscription := by
    rw [List.map_map, List.map_map]
    exact List.map_congr_left fun l hl => (Listener.subscription_hear (hi.sound l hl)).symm
  rw [← hcount, perform, Hub.publish]
  by_cases hn : h ∈ (i.hub topics).topics
  · rw [if_pos hn]
    simp only [hub, ← hm, List.length_map]
  · rw [if_neg hn]
    simp only [hub, ← hm, List.length_map]
    have hnone (s : Subscription) (hs : s ∈ i.listeners.map Listener.subscription) :
        ¬hears h s = true := by
      obtain ⟨l, hl, rfl⟩ := List.mem_map.1 hs
      exact hc.not_hears hn hl
    have hsame := List.map_congr_left (f := fun s => if hears h s then deliver m s else s) (g := id)
      fun s hs => if_neg (hnone s hs)
    rw [List.filter_eq_nil_iff.2 hnone, hsame, List.map_id]
    rfl

theorem drop_hub (hi : i.Orderly) (topics : List Handle) (id : Nat) :
    (i.hub topics).drop id = hub topics (i.perform (.drop id)).2 := by
  have hf := find?_hub topics i id
  rw [Hub.drop, hf, perform]
  cases hl : i.find? id with
  | none =>
    have hn : ∀ l ∈ i.listeners, decide (l.id ≠ id) = true := by
      simpa [find?, List.find?_eq_none] using hl
    rw [List.filter_eq_self.2 hn]
    rfl
  | some l =>
    have hid : l.id = id := by simpa using List.find?_some hl
    have hm : id ∈ i.listeners.map Listener.id :=
      hid ▸ List.mem_map_of_mem (List.mem_of_find?_eq_some hl)
    have hs : (i.listeners.map Listener.subscription).filter (·.id ≠ id) =
        (i.listeners.filter (·.id ≠ id)).map Listener.subscription := List.filter_map
    have hn : (i.listeners.filter (·.id ≠ id)).length = i.listeners.length - 1 :=
      Nat.eq_sub_of_add_eq (length_filter_ne hi.distinct hm)
    simp only [hub, ← hs, hn]
    rfl

theorem Covered.receive (hc : i.Covered topics) (id : Nat) : (i.receive id).2.Covered topics := by
  unfold Ideal.receive
  cases hf : i.find? id with
  | none => exact hc
  | some l =>
    obtain ⟨p, hp⟩ := l.receive_moves
    refine List.forall_mem_map.2 fun k hk => ?_
    split
    · rw [hp]
      exact hc l (List.mem_of_find?_eq_some hf)
    · exact hc k hk

/-- The ideal hub answers as the hub does, whichever topics are there that nobody hears. -/
theorem perform_hub (hi : i.Orderly) {q : Request} (hq : q.isSweep = false)
    (hc : i.Covered topics) : ∃ topics', Covered topics' (i.perform q).2 ∧
      (i.hub topics).perform q = ((i.perform q).1, (i.perform q).2.hub topics') := by
  cases q with
  | subscribe h =>
    by_cases hn : i.listeners.length < i.limit
    · obtain ⟨topics', hc', hs⟩ := subscribe_hub hn hc h
      refine ⟨topics', hc', ?_⟩
      rw [Hub.perform, hs, perform, if_pos hn]
    · have hn' : ¬(i.hub topics).active < (i.hub topics).limit := hn
      rw [perform, if_neg hn, Hub.perform, Hub.subscribe, Hub.reserve, if_neg hn']
      exact ⟨topics, hc, rfl⟩
  | publish h m =>
    obtain ⟨topics', hc', hp⟩ := publish_hub hi hc h m
    refine ⟨topics', hc', ?_⟩
    rw [Hub.perform, hp]
    rfl
  | recv id => exact ⟨topics, hc.receive id, by rw [perform, Hub.perform, receive_hub hi]; rfl⟩
  | tryRecv id => exact ⟨topics, hc.receive id, by rw [perform, Hub.perform, receive_hub hi]; rfl⟩
  | drop id =>
    exact ⟨topics, fun l hl => hc l (List.mem_of_mem_filter hl),
      congrArg (Prod.mk _) (drop_hub hi topics id)⟩
  | sweep => cases hq

/-- A sweep is nothing to the ideal hub: it ends topics that nobody hears. -/
theorem exists_topics (hi : i.Orderly) (hc : i.Covered topics) (q : Request) :
    ∃ topics', Covered topics' (i.perform q).2 ∧
      ((i.hub topics).perform q).2 = hub topics' (i.perform q).2 := by
  cases hq : q.isSweep with
  | false =>
    obtain ⟨topics', hc', hp⟩ := perform_hub hi hq hc
    exact ⟨topics', hc', congrArg Prod.snd hp⟩
  | true =>
    cases q with
    | sweep =>
      refine ⟨(i.hub topics).sweep.2.topics, fun l hl he => ?_, rfl⟩
      refine List.mem_filter.2 ⟨hc l hl he, List.any_eq_true.2
        ⟨l.subscription, List.mem_map_of_mem hl, ?_⟩⟩
      simp [hears, Listener.subscription, he]
    | _ => cases hq

end Ideal

end Hub

end Handoff
