import Handoff.Proofs.Http.Discretion

namespace Handoff

open View

namespace Service

variable {s s' s'' : Service}

/-- What sweeps come to: they take away what has expired and topics that nobody hears, and leave the
subscriptions alone. -/
structure Reaped (s s' : Service) : Prop extends Keeps s s' where
  swept : s.Sound → Swept s.now s.view s'.view
  subscriptions : s'.hub.subscriptions = s.hub.subscriptions
  topics (k : Handle) : (k ∈ s'.hub.topics ↔ k ∈ s.hub.topics) ∨
    s.hub.subscriptions.any (Hub.hears k) = false
  isOpen : s.storage.IsOpen → s'.storage.IsOpen

theorem Reaped.refl (s : Service) : Reaped s s :=
  ⟨.refl s, fun _ => .refl _ _, rfl, fun _ => .inl .rfl, id⟩

theorem Reaped.trans (h : Reaped s s') (h' : Reaped s' s'') : Reaped s s'' where
  toKeeps := h.toKeeps.trans h'.toKeeps
  swept hs k := (h.swept hs k).trans (h.now ▸ h'.swept (h.sound hs) k)
  subscriptions := h'.subscriptions.trans h.subscriptions
  topics k := by
    obtain hk | hk := h.topics k
    · obtain hk' | hk' := h'.topics k
      · exact .inl (hk'.trans hk)
      · exact .inr (h.subscriptions ▸ hk')
    · exact .inr hk
  isOpen := h'.isOpen ∘ h.isOpen

theorem Reaped.publish (h : Reaped s s') (k : Handle) (m : Qr.Message) :
    (s'.hub.publish k m).2.subscriptions = (s.hub.publish k m).2.subscriptions := by
  obtain hk | hk := h.topics k
  · unfold Hub.publish
    dsimp only
    rw [h.subscriptions]
    split
    · next hm => rw [if_pos (hk.1 hm)]
    · next hm => rw [if_neg (hm ∘ hk.2)]
  · have hn (t : Subscription) (ht : t ∈ s.hub.subscriptions) : ¬Hub.hears k t = true :=
      List.any_eq_false.1 hk t ht
    rw [Hub.publish_subscriptions _ _ _ fun t ht hh => absurd hh (hn t (h.subscriptions ▸ ht)),
      Hub.publish_subscriptions _ _ _ fun t ht hh => absurd hh (hn t ht), h.subscriptions]

theorem reaped_sweepTarget (t : Target) (s : Service) : Reaped s (s.sweepTarget t).2 where
  toKeeps := (sweepTarget_keeps t s).1
  swept := (sweepTarget_keeps t s).2
  subscriptions := by
    obtain he | he := hub_sweepTarget t s
    · rw [he]
    · rw [he]
      rfl
  topics k := by
    obtain he | he := hub_sweepTarget t s
    · exact .inl (he ▸ .rfl)
    · rw [he]
      cases hk : s.hub.subscriptions.any (Hub.hears k) with
      | false => exact .inr rfl
      | true => exact .inl (List.mem_filter.trans (and_iff_left hk))
  isOpen := (stays_sweepTarget s t).isOpen

theorem reaped_sweepAll (ts : List Target) (s : Service) : Reaped s (s.sweepAll ts).2 := by
  unfold sweepAll
  generalize hx : (0, s) = x
  replace hx : x.2 = s := by rw [← hx]
  induction ts generalizing x s with
  | nil => exact hx ▸ .refl _
  | cons t ts ih =>
    subst hx
    exact (reaped_sweepTarget t x.2).trans (ih _ _ rfl)

theorem Reaped.working (h : Reaped s s') (hs : s.Working) : s'.Working where
  toSound := h.sound hs.toSound
  isOpen := h.isOpen hs.isOpen
  failure kind op := by
    have hf := hs.failure kind op
    rwa [failure, ← h.faults] at hf

end Service

namespace Qr

open Service

/-- An expired sign-in still lies in the store under the handle of the token. -/
def Remains (token : String) (s : Service) : Prop :=
  ∃ h e, resolve token s = .ok h ∧ s.view h = some e ∧ e.isExpired s.now = true

/-- A cancellation is for sign-ins that are there and have not expired. -/
structure Cancel.Discerns (token : String) (s : Service) : Prop where
  live {h : Handle} {e : Entry Session} : resolve token s = .ok h →
    s.view.live s.now h = some e →
      ∃ s', Cancel.step (.start token) s = (.more (.publishing h), s') ∧
      s'.view = Function.update s.view h none ∧ s'.hub = s.hub ∧
      ∀ t : Service, Cancel.step (.publishing h) t = (.done (), t.publish h (.ofStatus .cancelled))
  otherwise : ¬Stands token s → ∃ s', Cancel.step (.start token) s = (.done (), s') ∧
    s'.view = s.view ∧ s'.hub = s.hub
  swept (ts : List Target) : ∃ s' s'', Finishes Cancel.step 2 (.start token) s () s' ∧
    Finishes Cancel.step 2 (.start token) (s.sweepAll ts).2 () s'' ∧
    s''.hub.subscriptions = s'.hub.subscriptions

variable {token : String} {s s' : Service} {h : Handle}

section Working

variable (hs : s.Working)
include hs

theorem Cancel.step_stored {e : Entry Session} (hr : resolve token s = .ok h)
    (he : s.view h = some e) : ∃ s', Cancel.step (.start token) s = (.more (.publishing h), s') ∧
      s'.view = Function.update s.view h none ∧ s'.hub = s.hub := by
  obtain ⟨s', hd, hv, hh⟩ := hs.exists_delete h
  rw [he, Option.isSome_some] at hd
  exact ⟨s', by rw [Cancel.step, hr]; dsimp only; rw [hd], hv, hh⟩

theorem Cancel.step_absent (hn : ∀ h, resolve token s = .ok h → s.view h = none) :
    ∃ s', Cancel.step (.start token) s = (.done (), s') ∧ s'.view = s.view ∧ s'.hub = s.hub := by
  cases hr : resolve token s with
  | error e => exact ⟨s, by rw [Cancel.step, hr], rfl, rfl⟩
  | ok h =>
    obtain ⟨s', hd, hv, hh⟩ := hs.exists_delete h
    rw [hn h hr, Option.isSome_none] at hd
    refine ⟨s', by rw [Cancel.step, hr]; dsimp only; rw [hd], ?_, hh⟩
    rw [hv, ← hn h hr, Function.update_eq_self]

/-- What a cancellation does to the hub depends on the hub and on whether anything is stored. -/
theorem Cancel.hub_alone : (Cancel.alone token s).2.hub =
    match resolve token s with
    | .error _ => s.hub
    | .ok h => if (s.view h).isSome then (s.hub.publish h (.ofStatus .cancelled)).2 else s.hub := by
  unfold Cancel.alone
  cases hr : resolve token s with
  | error e => rfl
  | ok h =>
    obtain ⟨s', hd, -, hh⟩ := hs.exists_delete h
    dsimp only
    rw [Service.deal, hd, ← hh]
    cases (s.view h).isSome <;> rfl

end Working

theorem isSome_reaped (hr : ¬Remains token s) (hs : s.Sound) (hp : Reaped s s')
    (hh : resolve token s = .ok h) : (s'.view h).isSome = (s.view h).isSome := by
  obtain he | ⟨hn, hv⟩ := hp.swept hs h
  · rw [he]
  · cases ho : s.view h with
    | none => rw [hn]
    | some e => exact absurd ⟨h, e, hh, ho, hv e ho⟩ hr

theorem Cancel.subscriptions_reaped (hr : ¬Remains token s) (hs : s.Working) (hp : Reaped s s') :
    (Cancel.alone token s').2.hub.subscriptions = (Cancel.alone token s).2.hub.subscriptions := by
  rw [Cancel.hub_alone (hp.working hs), Cancel.hub_alone hs, resolve_congr hp.setup]
  cases hh : resolve token s with
  | error e => exact hp.subscriptions
  | ok h =>
    dsimp only
    rw [isSome_reaped hr hs.toSound hp hh]
    cases (s.view h).isSome with
    | false => exact hp.subscriptions
    | true => exact hp.publish h _

theorem Cancel.discerns_of_not_remains (hs : s.Working) (hr : ¬Remains token s) :
    Cancel.Discerns token s where
  live hh he := by
    obtain ⟨s', hd, hv, hhub⟩ := Cancel.step_stored hs hh (live_eq_some.1 he).1
    exact ⟨s', hd, hv, hhub, fun _ => rfl⟩
  otherwise hn := by
    refine Cancel.step_absent hs fun h hh => ?_
    cases he : s.view h with
    | none => rfl
    | some e =>
      -- It is not live, so it would be an expired one that remains.
      have hx := vacant_of_not_stands hn hh e he
      exact absurd ⟨h, e, hh, he, hx⟩ hr
  swept ts := ⟨_, _, Cancel.finishes token s, Cancel.finishes token (s.sweepAll ts).2,
    Cancel.subscriptions_reaped hr hs (reaped_sweepAll ts s)⟩

/-- An expired sign-in that remains is told of as if it had been there. -/
theorem Cancel.not_discerns_of_remains (hs : s.Working) (hr : Remains token s) :
    ¬Cancel.Discerns token s := by
  rintro hd
  obtain ⟨h, e, hh, he, hx⟩ := hr
  have hn : ¬Stands token s := by
    rintro ⟨k, d, hk, hl⟩
    cases hh.symm.trans hk
    obtain ⟨hd, hd'⟩ := live_eq_some.1 hl
    cases he.symm.trans hd
    cases hx.symm.trans hd'
  obtain ⟨s', ht, -⟩ := Cancel.step_stored hs hh he
  obtain ⟨s'', ht', -⟩ := hd.otherwise hn
  cases ht.symm.trans ht'

end Qr

namespace Lapse

open Desk (users standsFor_token)
open Race (handle nonce setup token)

def offered : World := (World.start setup .memory 1 users 0).run (lapsing.take 1)

theorem reached_offered : offered.Reached setup := .run ..

theorem reached_lapsed : lapsed.Reached setup := .run ..

theorem not_remains_offered : ¬Qr.Remains token offered.service := by
  rintro ⟨h, e, hr, he, hx⟩
  rw [standsFor_token _ rfl] at hr
  cases hr
  have hl : (offered.service.view handle).all (!·.isExpired offered.service.now) = true := by
    decide +kernel
  rw [he, Option.all_some, hx] at hl
  cases hl

theorem remains_lapsed : Qr.Remains token lapsed.service := by
  have he : (lapsed.service.view handle).any (·.isExpired lapsed.service.now) = true := by
    decide +kernel
  obtain ⟨e, he, hx⟩ := (Option.any_eq_true _ _).1 he
  exact ⟨handle, e, standsFor_token _ rfl, he, hx⟩

end Lapse

/-- In every state that the service comes to, a cancellation is for sign-ins that are there exactly
as long as no expired one remains under its token. -/
theorem World.cancel_discerns_iff {setup : Setup} {w : World} (hw : w.Reached setup)
    (hf : ∀ kind op, w.service.faults.store kind op = none) (token : String) :
    Qr.Cancel.Discerns token w.service ↔ ¬Qr.Remains token w.service :=
  ⟨fun hd hr => Qr.Cancel.not_discerns_of_remains (hw.working hf) hr hd,
    Qr.Cancel.discerns_of_not_remains (hw.working hf)⟩

theorem Lapse.cancel_discerns_offered :
    Qr.Cancel.Discerns Race.token offered.service ∧ ¬Qr.Cancel.Discerns Race.token lapsed.service :=
  ⟨(World.cancel_discerns_iff reached_offered (fun _ _ => rfl) Race.token).2 not_remains_offered,
    fun hd => (World.cancel_discerns_iff reached_lapsed (fun _ _ => rfl) Race.token).1 hd
      remains_lapsed⟩

/-- Expired sign-ins do remain, until a look or a sweep takes them away. -/
theorem World.not_forall_cancel_discerns : ¬∀ setup w, World.Reached setup w →
    (∀ kind op, w.service.faults.store kind op = none) →
    ∀ token, Qr.Cancel.Discerns token w.service := fun hd =>
  Qr.Cancel.not_discerns_of_remains
    (Lapse.reached_lapsed.working fun _ _ => rfl) Lapse.remains_lapsed
    (hd Race.setup Lapse.lapsed Lapse.reached_lapsed (fun _ _ => rfl) Race.token)

end Handoff
