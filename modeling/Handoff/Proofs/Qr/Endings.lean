import Handoff.Proofs.Qr.Signing
import Handoff.Proofs.Run.Orderly

namespace Handoff

structure Concluded (h : Handle) (log : List Record) : Prop extends Qr.Outcome (acts h log) where
  heard : ∀ l₁ r l₂ m id s, log = l₁ ++ r :: l₂ → r.told? = some (h, m) → m.isLast = true →
    r.before.hub.view id = some s → s.handle = h →
    (stream id log).filter Qr.Message.isLast = [m] ∧
      ∃ s', r.after.hub.view id = some s' ∧ s'.unread = s.unread ++ [m]

namespace World

variable {w w' : World} {setup : Setup}

/-- The last message finds every subscription open, and closes it. -/
theorem Orderly.heard_last (o : w.Orderly setup) (o' : w'.Orderly setup) {r : Record}
    (hs : Stepped w r w') {m : Qr.Message} (hl : m.isLast = true) {id : Nat} {s : Subscription}
    (hv : w.service.hub.view id = some s) (ht : r.told? = some (s.handle, m)) :
    (stream id w.log).any Qr.Message.isLast = false ∧ stream id [r] = [m] ∧
      w'.service.hub.Deaf id ∧
      ∃ s', w'.service.hub.view id = some s' ∧ s'.unread = s.unread ++ [m] := by
  have hd := (told_new hs.log o'.lives ht).1
  have hears := o.hears hv
  have hn : (stream id w.log).any Qr.Message.isLast = false := by
    rw [Bool.eq_false_iff, Ne, List.any_eq_true]
    rintro ⟨k, hk, hkl⟩
    have hp : k.isLast ∈ (published s.handle w.log).map Qr.Message.isLast :=
      List.mem_map_of_mem (hears.sublist.mem hk)
    rw [Qr.Distinct, List.map_append] at hd
    exact (List.nodup_append.1 hd).2.2 _ hp _ (List.mem_singleton_self _) (hkl.trans hl.symm)
  have hop : s.isOpen = true := by
    rw [hears.isOpen, hn]
    rfl
  have hm := Hub.heardBy_open hop m
  have hst : stream id [r] = [m] := by
    rw [hs.tells.stream, hv, ht, hm]
  obtain ⟨htouch, hid, -⟩ := (hs.move o.owned.sound).touch o.owned.sound id
  rw [hv, ht] at htouch
  generalize hv' : w'.service.hub.view id = v at htouch hid
  generalize w.owns r.id = own, (r.result.rest r.call).bind Call.own = own' at htouch
  generalize htold : some (s.handle, m) = told at htouch
  cases htouch with
  | kept hh =>
    rw [← htold, hm] at hh
    cases hh
  | heard k hop' =>
    cases htold
    refine ⟨hn, hst, ⟨hid.resolve_left (by rintro ⟨⟩), ?_⟩, _, rfl, (hears.deliver hop hd).2⟩
    rw [hv']
    rintro t ⟨⟩
    exact congrArg not hl
  | read | dropped => cases htold

theorem Orderly.deaf_later (o : w.Orderly setup) {id : Nat} (hd : w.service.hub.Deaf id)
    (es : List Event) {l : List Record} (hl : (w.run es).log = w.log ++ l) :
    stream id l = [] := by
  obtain ⟨l', hl', hst, -⟩ := o.later (P := fun l w => stream id l = [] ∧ w.service.hub.Deaf id)
    ⟨rfl, hd⟩ (fun w e l l' i told own' o ht hm hp => by
      obtain ⟨hd, hh⟩ := hm.deaf o.owned.sound hp.2
      exact ⟨by rw [stream_append, hp.1, ht.stream, hh]; rfl, hd⟩) es
  rwa [List.append_cancel_left (hl.symm.trans hl')]

section Run

variable (setup : Setup) (backend : Backend) (limit : Nat) (users : Users) (now : UInt64)
  (es : List Event) (h : Handle)

/-- Whatever is called, in whatever order the steps are taken: a sign-in has one end at most. It is
confirmed if a confirmation took the entry and made a session, and then no other session is made
and nobody cancels; otherwise it is cancelled and no session is made. Whoever is subscribed when
the last message is told hears it, and no other last message. -/
theorem run_concluded : Concluded h ((start setup backend limit users now).run es).log where
  toOutcome := (run_life setup backend limit users now es h).closing.outcome
  heard := by
    intro l₁ r l₂ m id s hlog ht hl hv hh
    subst hh
    have o := Orderly.start setup backend limit users now
    obtain ⟨es₁, e, es₂, rfl, rfl, hs⟩ := run_split o.sound rfl hlog
    have o₁ := o.run es₁
    have o₂ := o₁.next e
    rw [hs.before] at hv
    obtain ⟨hn, hst, hd, s', hv', hu⟩ := o₁.heard_last o₂ hs hl hv ht
    rw [hs.after] at hv'
    refine ⟨?_, s', hv', hu⟩
    have hlater : stream id l₂ = [] := by
      apply o₂.deaf_later hd es₂
      rw [hs.log, List.append_assoc, List.singleton_append, ← hlog, run_append]
      rfl
    rw [hlog, stream_append, ← List.singleton_append, stream_append, hst, hlater,
      List.append_nil, List.filter_append, List.filter_cons_of_pos hl, List.filter_nil,
      List.filter_eq_nil_iff.2 (List.any_eq_false.1 hn), List.nil_append]

end Run

section Example

open Race
open Desk (users phone)

theorem run_concluded_signing : ∃ m ∈ Qr.endings (acts handle signed.log),
    (∃ i session, m = .confirmed session ∧ Qr.Did (acts handle signed.log) i (.minted session)) ∧
    (stream 0 signed.log).filter Qr.Message.isLast = [m] := by
  obtain ⟨l, told, hl, -⟩ := signed_eq
  have hc : Concluded handle signed.log := run_concluded Race.setup .memory 1 users 0 _ handle
  have hlog : signed.log = (l ++ seeing Race.setup 0 users 0 handle ::
      (scanning Race.setup 0 users 0 handle token told ++
        taking Race.setup 0 users 0 handle 7 [] token (some phone))) ++
      ending Race.setup 0 users 0 handle 7 [] :: [] := by
    rw [hl]
    simp
  have hm : .confirmed (made Race.setup 0 7 []) ∈ Qr.endings (acts handle signed.log) := by
    rw [Qr.endings, ← published, hlog, published_concat, told?_ending]
    simp [Qr.toldTo, Qr.Message.confirmed, Qr.Message.isLast, Qr.Status.isTerminal]
  obtain ⟨i, -, hd⟩ := (hc.confirmed_iff _ hm _).1 rfl
  exact ⟨_, hm, ⟨i, _, rfl, hd⟩, (hc.heard _ _ _ _ _ _ hlog rfl rfl rfl rfl).1⟩

end Example

end World

end Handoff
