import Handoff.Proofs.Hub.Ideal

namespace Handoff

namespace Hub

open Qr (Message)

def Regular (hub : Hub) : Prop :=
  ∃ (i : Ideal) (topics : List Handle), i.Orderly ∧ i.Covered topics ∧ i.hub topics = hub

def look (hub : Hub) (id : Nat) : Option (List Message × Bool) :=
  (hub.view id).map fun s => (s.unread, s.isOpen)

/-- The subscriptions go on: none is new, and each has what it had or what may be told to it. -/
structure Later (told : Handle → Message → Prop) (hub hub' : Hub) : Prop where
  limit : hub'.limit = hub.limit
  nextId : hub.nextId ≤ hub'.nextId
  regular : hub.Regular → hub'.Regular
  kept : ∀ t' ∈ hub'.subscriptions, ∃ t ∈ hub.subscriptions, t.id = t'.id ∧ t.handle = t'.handle ∧
    ∀ m ∈ t'.unread, m ∈ t.unread ∨ told t'.handle m

variable {hub hub' : Hub} {told : Handle → Message → Prop} {h : Handle} {id : Nat}

theorem regular_empty (limit : Nat) : (empty limit).Regular :=
  ⟨.start limit, [], Ideal.orderly_start limit, Ideal.covered_start limit, Ideal.hub_start limit⟩

theorem Regular.perform (hr : hub.Regular) (q : Request) : (hub.perform q).2.Regular := by
  obtain ⟨i, topics, hi, hc, rfl⟩ := hr
  obtain ⟨topics', hc', hp⟩ := Ideal.exists_topics hi hc q
  exact ⟨(i.perform q).2, topics', hi.perform q, hc', hp.symm⟩

theorem Regular.active (hr : hub.Regular) : hub.active = hub.subscriptions.length := by
  obtain ⟨i, topics, hi, -, rfl⟩ := hr
  exact (List.length_map Listener.subscription).symm

theorem Regular.given (hr : hub.Regular) : ∀ t ∈ hub.subscriptions, t.id < hub.nextId := by
  obtain ⟨i, topics, hi, -, rfl⟩ := hr
  intro t ht
  obtain ⟨l, hl, rfl⟩ := List.mem_map.1 ht
  exact hi.given l hl

theorem Regular.topic_of_hears (hr : hub.Regular) {h : Handle} {t : Subscription}
    (ht : t ∈ hub.subscriptions) (hh : hears h t = true) : h ∈ hub.topics := by
  obtain ⟨i, topics, hi, hc, rfl⟩ := hr
  obtain ⟨l, hl, rfl⟩ := List.mem_map.1 ht
  by_contra hn
  exact hc.not_hears hn hl hh

theorem Regular.distinct (hr : hub.Regular) : (hub.subscriptions.map Subscription.id).Nodup := by
  obtain ⟨i, topics, hi, -, rfl⟩ := hr
  have hm : (i.hub topics).subscriptions.map Subscription.id = i.listeners.map Listener.id :=
    List.map_map ..
  rw [hm]
  exact hi.distinct

theorem Regular.view_of_mem (hr : hub.Regular) {t : Subscription} (ht : t ∈ hub.subscriptions) :
    hub.view t.id = some t := by
  cases hv : hub.view t.id with
  | none => simpa using List.find?_eq_none.1 hv t ht
  | some t' =>
    have hm := List.mem_of_find?_eq_some hv
    rw [List.inj_on_of_nodup_map hr.distinct hm ht (id_of_view hv)]

theorem mem_of_view {t : Subscription} (hv : hub.view id = some t) : t ∈ hub.subscriptions :=
  List.mem_of_find?_eq_some hv

theorem Regular.view_nextId (hr : hub.Regular) : hub.view hub.nextId = none := by
  cases hv : hub.view hub.nextId with
  | none => rfl
  | some t =>
    have hn := hr.given t (mem_of_view hv)
    rw [id_of_view hv] at hn
    exact absurd hn (Nat.lt_irrefl _)

theorem view_subscribe (hr : hub.Regular) (hs : hub.subscribe h = .ok (id, hub')) :
    id = hub.nextId ∧ hub'.view = Function.update hub.view id (some ⟨id, h, [], true⟩) ∧
      hub'.limit = hub.limit ∧ hub'.nextId = hub.nextId + 1 ∧
      hub'.subscriptions = hub.subscriptions ++ [⟨id, h, [], true⟩] ∧ hub'.Regular := by
  have hp : (hub.perform (.subscribe h)).2 = hub' := by rw [Hub.perform, hs]
  have hr' := hp ▸ hr.perform (.subscribe h)
  unfold subscribe reserve at hs
  split at hs
  · cases hs
    refine ⟨rfl, ?_, rfl, rfl, rfl, hr'⟩
    funext k
    have hf : view (attach h { hub with active := hub.active + 1 }).2 k =
        (hub.view k).or ([⟨hub.nextId, h, [], true⟩].find? (·.id = k)) := List.find?_append
    refine hf.trans ?_
    by_cases hk : k = hub.nextId
    · subst hk
      rw [Function.update_self, hr.view_nextId]
      simp
    · rw [Function.update_of_ne hk]
      simp [Ne.symm hk]
  · cases hs

namespace Later

theorem refl (told : Handle → Message → Prop) (hub : Hub) : Later told hub hub :=
  ⟨rfl, Nat.le_refl _, fun hr => hr, fun t ht => ⟨t, ht, rfl, rfl, fun _ hm => .inl hm⟩⟩

theorem trans {hub'' : Hub} (hl : Later told hub hub') (hl' : Later told hub' hub'') :
    Later told hub hub'' where
  limit := hl'.limit.trans hl.limit
  nextId := Nat.le_trans hl.nextId hl'.nextId
  regular hr := hl'.regular (hl.regular hr)
  kept t'' ht'' := by
    obtain ⟨t', ht', hid', hh', hm'⟩ := hl'.kept t'' ht''
    obtain ⟨t, ht, hid, hh, hm⟩ := hl.kept t' ht'
    refine ⟨t, ht, hid.trans hid', hh.trans hh', fun m hmem => ?_⟩
    rcases hm' m hmem with hmem | hmem
    · exact (hm m hmem).imp_right fun hx => hh' ▸ hx
    · exact .inr hmem

theorem mono {told' : Handle → Message → Prop} (hl : Later told hub hub')
    (ht : ∀ k m, told k m → told' k m) : Later told' hub hub' := by
  refine ⟨hl.limit, hl.nextId, hl.regular, fun t' ht' => ?_⟩
  obtain ⟨t, hmem, hid, hh, hm⟩ := hl.kept t' ht'
  exact ⟨t, hmem, hid, hh, fun m hx => (hm m hx).imp_right (ht _ m)⟩

theorem publish {m : Message} (hm : told h m) (hr : hub.Regular) :
    Later told hub (hub.publish h m).2 where
  limit := publish_limit h m hub
  nextId := (publish_nextId h m hub).ge
  regular hr := hr.perform (.publish h m)
  kept t' ht' := by
    rw [publish_subscriptions _ _ _ fun _ => hr.topic_of_hears] at ht'
    obtain ⟨t, ht, rfl⟩ := List.mem_map.1 ht'
    refine ⟨t, ht, ?_⟩
    unfold heard
    split
    · next hh =>
      refine ⟨rfl, rfl, fun m' hm' => ?_⟩
      rcases List.mem_append.1 (List.mem_of_mem_drop hm') with hx | hx
      · exact .inl hx
      · rw [List.mem_singleton.1 hx, show (deliver m t).handle = h from (of_decide_eq_true hh).2]
        exact .inr hm
    · exact ⟨rfl, rfl, fun _ hx => .inl hx⟩

variable (told) in
theorem receive (hr : hub.Regular) (id : Nat) : Later told hub (hub.receive id).2 where
  limit := by
    unfold Hub.receive
    split
    · rfl
    · split <;> rfl
  nextId := by
    unfold Hub.receive
    split
    · exact Nat.le_refl _
    · split <;> exact Nat.le_refl _
  regular hr := hr.perform (.recv id)
  kept := by
    unfold Hub.receive
    split
    · exact (refl told hub).kept
    · next t ht =>
      split
      · next m rest hu =>
        intro t' ht'
        obtain ⟨k, hk, rfl⟩ := List.mem_map.1 ht'
        refine ⟨k, hk, ?_⟩
        split
        · next hid =>
          have hkt : k = t := by
            have hv := hr.view_of_mem hk
            rw [hid] at hv
            exact Option.some.inj (hv.symm.trans ht)
          subst hkt
          refine ⟨rfl, rfl, fun m' hm' => .inl ?_⟩
          rw [hu]
          exact List.mem_cons_of_mem m hm'
        · exact ⟨rfl, rfl, fun _ hm => .inl hm⟩
      · exact (refl told hub).kept

variable (told) in
theorem drop (id : Nat) (hub : Hub) : Later told hub (hub.drop id) where
  limit := by
    unfold Hub.drop
    split <;> rfl
  nextId := by
    unfold Hub.drop
    split <;> exact Nat.le_refl _
  regular hr := hr.perform (.drop id)
  kept := by
    unfold Hub.drop
    split
    · exact (refl told hub).kept
    · exact fun t ht => ⟨t, List.mem_of_mem_filter ht, rfl, rfl, fun _ hm => .inl hm⟩

theorem sweep (hub : Hub) : Later told hub hub.sweep.2 :=
  ⟨rfl, Nat.le_refl _, fun hr => hr.perform .sweep,
    fun t ht => ⟨t, ht, rfl, rfl, fun _ hm => .inl hm⟩⟩

variable (told) in
theorem subscribe_drop (hr : hub.Regular) (hs : hub.subscribe h = .ok (id, hub')) :
    Later told hub (hub'.drop id) ∧ (hub'.drop id).view = hub.view := by
  obtain ⟨hid, hv, hl, hn, hss, hr'⟩ := view_subscribe hr hs
  have hd := drop told id hub'
  refine ⟨⟨hd.limit.trans hl, ?_, fun _ => hd.regular hr', fun t ht => ?_⟩, ?_⟩
  · exact Nat.le_trans (hn ▸ Nat.le_succ _) hd.nextId
  · have hne : t.id ≠ id := by
      intro he
      have hm := (hd.regular hr').view_of_mem ht
      rw [view_drop, he, Function.update_self] at hm
      cases hm
    obtain ⟨t', ht', hid', hh', hm'⟩ := hd.kept t ht
    rw [hss, List.mem_append, List.mem_singleton] at ht'
    rcases ht' with ht' | rfl
    · exact ⟨t', ht', hid', hh', hm'⟩
    · exact absurd hid'.symm hne
  · rw [view_drop, hv, Function.update_idem, hid, ← hr.view_nextId, Function.update_eq_self]

end Later

theorem Later.nextChange (hr : hub.Regular) (id : Nat) (known : Qr.Status) (n : Nat) :
    Later told hub (Qr.nextChange id known n hub).2 := by
  induction n generalizing hub with
  | zero => exact .refl told hub
  | succ n ih =>
    have hl := Later.receive told hr id
    rw [Qr.nextChange]
    generalize hub.receive id = x at hl
    obtain ⟨r, hub'⟩ := x
    cases r with
    | message m =>
      dsimp only
      split
      · exact hl
      · exact hl.trans (ih (hl.regular hr))
    | nothing => exact hl
    | closed => exact hl

def SeatsOf (h : Handle) (ids : List Nat) (hub : Hub) : Prop :=
  ∀ id ∈ ids, ∀ t, hub.view id = some t → t.handle = h ∧ (t.isOpen = true → h ∈ hub.topics)

def taken : Option (List Message × Bool) → Received
  | none => .closed
  | some (m :: _, _) => .message m
  | some ([], isOpen) => if isOpen then .nothing else .closed

def join (m : Message) : List Message × Bool → List Message × Bool
  | (unread, true) => (keepLast (unread ++ [m]), !m.status.isTerminal)
  | (unread, false) => (unread, false)

theorem look_update {o : Option Subscription} (hv : hub'.view = Function.update hub.view id o) :
    hub'.look = Function.update hub.look id (o.map fun s => (s.unread, s.isOpen)) := by
  funext k
  rw [look, hv]
  by_cases hk : k = id
  · subst hk
    rw [Function.update_self, Function.update_self]
  · rw [Function.update_of_ne hk, Function.update_of_ne hk, look]

variable {ids : List Nat}

theorem map_look_publish (ho : hub.SeatsOf h ids) (m : Message) :
    ids.map (hub.publish h m).2.look = (ids.map hub.look).map (Option.map (join m)) := by
  rw [List.map_map]
  refine List.map_congr_left fun id hid => ?_
  have hp := view_publish (h := h) m fun t hv hh => (ho id hid t hv).2 (of_decide_eq_true hh).1
  rw [look, hp, Function.comp_apply, look]
  cases hv : hub.view id with
  | none => rfl
  | some t =>
    have ht := (ho id hid t hv).1
    obtain ⟨i, k, unread, isOpen⟩ := t
    cases isOpen <;> simp [heard, hears, join, deliver, show k = h from ht]

theorem map_look_publish_of_ne (ho : hub.SeatsOf h ids) {k : Handle} (hk : k ≠ h) (m : Message) :
    ids.map (hub.publish k m).2.look = ids.map hub.look := by
  refine List.map_congr_left fun id hid => ?_
  have hn (t : Subscription) (hv : hub.view id = some t) : hears k t = false := by
    simp [hears, (ho id hid t hv).1, Ne.symm hk]
  have hp := view_publish (h := k) m fun t hv hh => absurd hh (Bool.eq_false_iff.1 (hn t hv))
  rw [look, hp, look]
  cases hv : hub.view id with
  | none => rfl
  | some t =>
    have hn := hn t hv
    rw [Option.map_some, heard, hn]
    rfl

theorem receive_look (id : Nat) (hub : Hub) : (hub.receive id).1 = taken (hub.look id) ∧
    (hub.receive id).2.look =
      Function.update hub.look id ((hub.look id).map fun x => (x.1.tail, x.2)) := by
  cases hv : hub.view id with
  | none =>
    rw [receive_of_none hv, look, hv]
    refine ⟨rfl, ?_⟩
    rw [Option.map_none, Option.map_none, ← show hub.look id = none by rw [look, hv]; rfl,
      Function.update_eq_self]
  | some t =>
    obtain ⟨hr, hv', -⟩ := receive_of_view hv
    rw [hr, look_update hv', look, hv]
    refine ⟨?_, rfl⟩
    obtain ⟨i, k, unread, isOpen⟩ := t
    cases unread <;> rfl

theorem drop_look (id : Nat) (hub : Hub) : (hub.drop id).look = Function.update hub.look id none :=
  look_update (view_drop id hub)

end Hub

namespace Qr

open Hub

def seenPast (known : Status) : Option (List Message × Bool) → Change
  | none => .ended
  | some (unread, isOpen) => seen isOpen (unread.dropWhile (·.status = known))

theorem advanceChange_look (id : Nat) (known : Status) (s : Service) :
    (advanceChange id known s).1 = seenPast known (s.hub.look id) ∧
    (advanceChange id known s).2.hub.look = Function.update s.hub.look id
      ((s.hub.look id).map fun x => ((x.1.dropWhile (·.status = known)).tail, x.2)) := by
  cases hv : s.hub.view id with
  | none =>
    have hl : s.hub.look id = none := by rw [look, hv]; rfl
    have hf : s.hub.find? id = none := hv
    rw [advanceChange, hf]
    dsimp only [Option.map_none, Option.getD_none]
    rw [nextChange_of_none hv, hl, Option.map_none, ← hl, Function.update_eq_self, hl]
    exact ⟨rfl, rfl⟩
  | some t =>
    obtain ⟨hr, hv', -⟩ := advanceChange_of_view known hv
    rw [hr, look_update hv', look, hv]
    exact ⟨rfl, rfl⟩

end Qr

namespace Hub

section Update

variable {β : Type} {ids : List Nat} {id i : Nat} {f : Nat → β}

theorem map_update_of_getElem? (hn : ids.Nodup) (hi : ids[i]? = some id) (y : β) :
    ids.map (Function.update f id y) = (ids.map f).set i y := by
  obtain ⟨hlt, rfl⟩ := List.getElem?_eq_some_iff.1 hi
  rw [hn.map_update, if_pos (List.getElem_mem hlt), hn.idxOf_getElem i hlt]

theorem map_update_of_notMem (hid : id ∉ ids) (y : β) :
    ids.map (Function.update f id y) = ids.map f := by
  refine List.map_congr_left fun k hk => Function.update_of_ne ?_ ..
  rintro rfl
  exact hid hk

end Update

end Hub

end Handoff
