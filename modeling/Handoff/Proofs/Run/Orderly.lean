import Handoff.Proofs.Qr.Listening

namespace Handoff

theorem Call.Attends.deliver {c : Call} {s s' : Subscription} {heard : List Qr.Message}
    {m : Qr.Message} (hc : c.Attends s heard)
    (ho : s.isOpen = true) (hm : m = .ofStatus .scanned ∨ m.isLast = true)
    (hh : s'.handle = s.handle) (hu : s'.unread = s.unread ++ [m]) (hl : s'.isOpen = !m.isLast) :
    c.Attends s' (heard ++ [m]) := by
  have hu' (h : s.unread = heard) : s'.unread = heard ++ [m] := by rw [hu, h]
  have hw (w : Qr.Watch) (hw : w.Attends s heard) : w.Attends s' (heard ++ [m]) := by
    cases w with
    | reading => exact ⟨hh.trans hw.1, hu' hw.2⟩
    | draining => exact hu' hw
    | start | attaching => trivial
  cases c with
  | wait c =>
    cases c with
    | watching w => exact hw w hc
    | listening => exact ⟨hc.1, hc.2.deliver ho hm hu hl⟩
  | follow c =>
    cases c with
    | watching w => exact hw w hc
    | listening => exact ⟨hc.1, hc.2.deliver ho hm hu hl⟩
  | issue | status | scan | confirm | cancel | oauthBegin | oauthCallback | peek | confirmLink =>
    trivial

theorem Hub.Hears.ordered {published stream : List Qr.Message} {s : Subscription}
    (h : Hears published stream s) (hd : Qr.Distinct published) : Qr.Ordered s where
  distinct := hd.sublist (h.unread.sublist.trans h.sublist)
  order := h.order.sublist h.unread.sublist
  last m hm hl := by
    rw [h.isOpen, Bool.not_eq_false', List.any_eq_true]
    exact ⟨m, h.unread.mem hm, hl⟩

/-- A sign-in that is stored has told nothing that its entry does not show, and not the end. -/
theorem Qr.Life.Sound.rank_le {ttl : Nat} {l : Life} (hl : l.Sound ttl) {e : Entry Session}
    (he : e ∈ l.held) : e.payload.status.isTerminal = false ∧
      ∀ m ∈ tellings l.acts, m.isLast = false ∧ e.payload.status.rank ≤ m.status.rank := by
  obtain ⟨hst, hc, -⟩ := hl.shows e he
  constructor
  · obtain ⟨hst, -⟩ | ⟨hst, -⟩ := hst <;> rw [hst] <;> rfl
  · intro m hm
    obtain rfl | hlast := hl.distinct.2 m hm
    · refine ⟨rfl, ?_⟩
      obtain ⟨hst, -⟩ | ⟨hst, -⟩ := hst <;> rw [hst] <;> decide
    · have hme : m ∈ endings l.acts := List.mem_filter.2 ⟨hm, hlast⟩
      rw [endings_eq, hc] at hme
      cases hme

namespace World

structure Orderly (setup : Setup) (w : World) : Prop where
  sound : w.Sound setup
  lives : ∀ h, (w.life h).Sound setup.qrTtl
  owned : w.service.hub.Owned w.owns
  ears : ∀ id, w.service.hub.Ear id (published · w.log) (stream id w.log)
  attends : ∀ i c id s, w.calls i = some c → c.own = some id →
    w.service.hub.view id = some s → c.Attends s (stream id w.log)

variable {w w' : World} {setup : Setup}

theorem told_new {r : Record} (hlog : w'.log = w.log ++ [r])
    (hl : ∀ h, (w'.life h).Sound setup.qrTtl) {h : Handle} {m : Qr.Message}
    (ht : r.told? = some (h, m)) : Qr.Distinct (published h w.log ++ [m]) ∧
      (m = .ofStatus .scanned ∨ m.isLast = true) := by
  have hp : Qr.tellings (w'.life h).acts = published h w.log ++ [m] := by
    have hc := published_concat h w.log r
    rw [ht, Qr.toldTo, if_pos rfl, ← hlog] at hc
    exact hc
  obtain ⟨hd, hm⟩ := (hl h).distinct
  rw [hp] at hd hm
  exact ⟨hd, hm m (List.mem_append_right _ (List.mem_singleton_self m))⟩

namespace Orderly

theorem distinct (o : w.Orderly setup) (h : Handle) : Qr.Distinct (published h w.log) :=
  (o.lives h).distinct.1

theorem hears (o : w.Orderly setup) {id : Nat} {s : Subscription}
    (hs : w.service.hub.view id = some s) :
    Hub.Hears (published s.handle w.log) (stream id w.log) s := (o.ears id).alive s hs

theorem ordered (o : w.Orderly setup) {id : Nat} {s : Subscription}
    (hs : w.service.hub.view id = some s) : Qr.Ordered s := (o.hears hs).ordered (o.distinct _)

theorem of_get (o : w.Orderly setup) {h : Handle} {e : Entry Qr.Session} {s' : Service}
    (hr : w.service.get h = (.ok e, s')) : e.payload.status.isTerminal = false ∧
      ∀ m ∈ published h w.log, m.isLast = false ∧ e.payload.status.rank ≤ m.status.rank := by
  exact (o.lives h).rank_le (Service.get_ok o.sound.service.storage hr).1

theorem attentive (o : w.Orderly setup) {r : Record} (hs : Stepped w r w') :
    Attentive w.service (stream · w.log) r.call where
  own id ho := by
    obtain hc | ⟨-, hst⟩ := hs.call
    · have how : w.owns r.id = some id := by
        rw [owns, hc]
        exact ho
      obtain ⟨t, ht⟩ := o.owned.alive r.id id how
      exact ⟨t, ht, o.ordered ht, o.attends _ _ _ _ hc ho ht⟩
    · rw [Call.own_of_isStart hst] at ho
      cases ho
  fresh := (o.ears _).unborn (Nat.le_refl _)
  keen h e s' id t hr ht hh := by
    obtain ⟨hn, hm⟩ := o.of_get hr
    have hp := o.hears ht
    rw [hh] at hp
    have hmem (m : Qr.Message) (hu : m ∈ t.unread) : m ∈ published h w.log :=
      hp.sublist.mem (hp.unread.mem hu)
    refine ⟨hn, fun m hu => (hm m (hmem m hu)).2, fun hc => ?_, fun hl => ?_⟩
    · rw [hp.isOpen, Bool.not_eq_false', List.any_eq_true] at hc
      obtain ⟨m, hms, hl⟩ := hc
      cases (hm m (hp.sublist.mem hms)).1.symm.trans hl
    · cases hn.symm.trans hl

theorem attends_of_ne (o : w.Orderly setup) {i k : Nat} (hk : k ≠ i)
    {told : Option (Handle × Qr.Message)} {own' : Option Nat} {hub' : Hub}
    (hm : Hub.Move w.service.hub (w.owns i) told own' hub')
    (ht : ∀ h m, told = some (h, m) → Qr.Distinct (published h w.log ++ [m]) ∧
      (m = .ofStatus .scanned ∨ m.isLast = true))
    {c : Call} {id : Nat} {s : Subscription} (hc : w.calls k = some c) (ho : c.own = some id)
    (hs : hub'.view id = some s) :
    c.Attends s (stream id w.log ++ Hub.heardBy (w.service.hub.view id) told) := by
  have how : w.owns k = some id := by
    rw [owns, hc]
    exact ho
  obtain ⟨t, hv⟩ := o.owned.alive k id how
  have ha := o.attends k c id t hc ho hv
  have hne : w.owns i ≠ some id := fun hi => hk (o.owned.apart k i id how hi)
  obtain ⟨hs', hn⟩ | ⟨m, hop, rfl, hs'⟩ := (hm.touch o.owned.sound id).1.of_ne hne hv
  · cases hs'.symm.trans hs
    rwa [hn, List.append_nil]
  · cases hs'.symm.trans hs
    obtain ⟨hd, hmsg⟩ := ht _ m rfl
    rw [hv, Hub.heardBy_open hop]
    exact ha.deliver hop hmsg rfl ((o.hears hv).deliver hop hd).2 rfl

theorem attends_step (o : w.Orderly setup) {r : Record} (hs : Stepped w r w') {c : Call} {id : Nat}
    {t : Subscription} (hc : r.result.rest r.call = some c) (ho : c.own = some id)
    (ht : w'.service.hub.view id = some t) : c.Attends t (stream id w'.log) := by
  have ha := o.attentive hs
  obtain ⟨elapsed, hstep⟩ := hs.taken
  have hres : r.result = (r.call.step elapsed w.service).1 := congrArg Prod.fst hstep
  rw [hres] at hc
  rw [hs.after, show r.after = _ from congrArg Prod.snd hstep] at ht
  have hhub := o.owned.sound
  have hst : r.told? = none → stream id w'.log = stream id w.log := by
    intro hn
    rw [hs.log, stream_append, hs.tells.stream, hn, Hub.heardBy_none, List.append_nil]
  rw [Record.told?] at hst
  generalize r.call = d at ha hc ht hst
  cases d with
  | wait d =>
    rw [hst (Call.told?_wait ..)]
    rw [Call.step, Step.rest_lift, Option.map_eq_some_iff] at hc
    obtain ⟨c', hc, rfl⟩ := hc
    rw [Call.step, Step.lift_service] at ht
    exact d.attends_step hhub ha hc ho ht
  | follow d =>
    rw [hst (Call.told?_follow ..)]
    rw [Call.step, Step.rest_lift, Option.map_eq_some_iff] at hc
    obtain ⟨c', hc, rfl⟩ := hc
    rw [Call.step, Step.lift_service] at ht
    exact d.attends_step hhub ha hc ho ht
  | issue | status => cases hc
  | scan d | confirm d | cancel d | oauthBegin d | oauthCallback d | peek d | confirmLink d =>
    rw [Call.step, Step.rest_lift, Option.map_eq_some_iff] at hc
    obtain ⟨c', -, rfl⟩ := hc
    cases ho

theorem next (o : w.Orderly setup) (e : Event) : (w.next e).Orderly setup := by
  have hlives (h : Handle) := (o.lives h).turn (o.sound.next_turn e h)
  obtain ⟨l, i, told, own', hlog, ht, hm, how⟩ := o.sound.next_move o.owned.sound e
  refine ⟨o.sound.next e, hlives, how ▸ o.owned.move hm, fun id => ?_, ?_⟩
  · have hp (h : Handle) : published h (w.next e).log = published h w.log ++ Qr.toldTo h told := by
      rw [hlog, published_append, ht.published]
    rw [hlog, stream_append, ht.stream]
    exact hm.ear o.owned.sound (o.ears id) (hlog ▸ hp) fun h => hlog ▸ (hlives h).distinct.1
  · intro k c id s hc ho hv
    obtain ⟨r, hs⟩ | hl | hs := o.sound.next_cases e
    · by_cases hk : k = r.id
      · subst hk
        rw [hs.calls, Function.update_self] at hc
        exact o.attends_step hs hc ho hv
      · rw [hs.calls, Function.update_of_ne hk] at hc
        rw [hs.log, stream_append, hs.tells.stream]
        exact o.attends_of_ne hk (hs.move o.owned.sound)
          (fun h m => told_new hs.log hlives) hc ho hv
    · obtain ⟨⟨j, d, hd, hleave, hcalls⟩, hlog⟩ := hl
      by_cases hk : k = j
      · subst hk
        rw [hcalls, Function.update_self] at hc
        cases hc
      · rw [hcalls, Function.update_of_ne hk] at hc
        have hmove := Call.leave?_move hleave
        rw [show d.own = w.owns j by rw [owns, hd]; rfl] at hmove
        have ha := o.attends_of_ne hk hmove (by rintro _ _ ⟨⟩) hc ho hv
        rwa [Hub.heardBy_none, List.append_nil, ← hlog] at ha
    · rw [hs.calls] at hc
      rw [hs.view] at hv
      rw [hs.log]
      exact o.attends k c id s hc ho hv

theorem start (setup : Setup) (backend : Backend) (limit : Nat) (users : Users) (now : UInt64) :
    (World.start setup backend limit users now).Orderly setup where
  sound := sound_start setup backend limit users now
  lives h := run_life setup backend limit users now [] h
  owned := ⟨Hub.sound_empty limit, by rintro i id ⟨⟩, by rintro i j id ⟨⟩⟩
  ears id := ⟨fun _ => rfl, by rintro s ⟨⟩⟩
  attends := by rintro i c id s ⟨⟩

theorem run (o : w.Orderly setup) (es : List Event) : (w.run es).Orderly setup :=
  run_induction o (fun _ e o => o.next e) es

/-- What holds now and is kept by every turn holds later on, of what is logged until then. -/
theorem later (o : w.Orderly setup) {P : List Record → World → Prop} (h0 : P [] w)
    (hn : ∀ w e l l' i told own', w.Orderly setup → w.Tells l' told →
      Hub.Move w.service.hub (w.owns i) told own' (w.next e).service.hub → P l w →
      P (l ++ l') (w.next e)) (es : List Event) :
    ∃ l, (w.run es).log = w.log ++ l ∧ P l (w.run es) := by
  induction es using List.reverseRecOn with
  | nil => exact ⟨[], (List.append_nil _).symm, h0⟩
  | append_singleton es e ih =>
    obtain ⟨l, hl, hp⟩ := ih
    have o' := o.run es
    obtain ⟨l', i, told, own', hlog, ht, hm, -⟩ := o'.sound.next_move o'.owned.sound e
    rw [run_concat]
    exact ⟨l ++ l', by rw [hlog, hl, List.append_assoc], hn _ e l l' i told own' o' ht hm hp⟩

end Orderly

end World

end Handoff
