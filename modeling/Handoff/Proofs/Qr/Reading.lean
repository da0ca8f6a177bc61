import Handoff.Proofs.Run.Orderly

namespace Handoff

namespace Qr

def nextReads (id : Nat) (known : Status) : Nat → Hub → List Message
  | 0, _ => []
  | n + 1, hub =>
    match hub.receive id with
    | (.message m, hub) => if m.status ≠ known then [m] else m :: nextReads id known n hub
    | _ => []

def advanceReads (id : Nat) (known : Status) (s : Service) : List Message :=
  let unread := ((s.hub.find? id).map (·.unread.length)).getD 0
  nextReads id known (unread + 1) s.hub

def Watch.reads (s : Service) : Watch → List Message
  | draining id =>
    match (s.hub.receive id).1 with
    | .message m => [m]
    | _ => []
  | _ => []

end Qr

def Call.reads (s : Service) : Call → List Qr.Message
  | wait (.watching w _ _) => w.reads s
  | wait (.listening id known _) => Qr.advanceReads id known s
  | follow (.watching w) => w.reads s
  | follow (.listening id current changes) =>
    Qr.advanceReads id (Qr.Follow.known current changes) s
  | _ => []

/-- All that was read from the subscription with the number `id`. -/
def reads (id : Nat) (log : List Record) : List Qr.Message :=
  log.flatMap fun r => if r.call.own = some id then r.call.reads r.before else []

theorem reads_append (id : Nat) (log log' : List Record) :
    reads id (log ++ log') = reads id log ++ reads id log' := by
  simp [reads]

theorem reads_singleton (id : Nat) (r : Record) :
    reads id [r] = if r.call.own = some id then r.call.reads r.before else [] := by
  simp [reads]

namespace Qr

/-- A look for a change reads the known status as often as it comes, and one message more. -/
theorem nextReads_of_view {hub : Hub} {id : Nat} {known : Status} {s : Subscription}
    (hs : hub.view id = some s) {n : Nat} (hn : s.unread.length < n) :
    nextReads id known n hub ++ (s.unread.dropWhile (·.status = known)).tail = s.unread := by
  induction n generalizing hub s with
  | zero => exact absurd hn (Nat.not_lt_zero _)
  | succ n ih =>
    obtain ⟨i, h, unread, isOpen⟩ := s
    obtain ⟨hr, hv, -⟩ := Hub.receive_of_view hs
    rw [nextReads]
    generalize hub.receive id = x at hr hv
    obtain ⟨r, hub'⟩ := x
    cases unread with
    | nil => cases isOpen <;> cases hr <;> rfl
    | cons m rest =>
      cases hr
      dsimp only at hv hn ⊢
      by_cases hm : m.status = known
      · rw [if_neg (not_not.2 hm), List.dropWhile_cons_of_pos (by simpa using hm)]
        have hs' : hub'.view id = some ⟨i, h, rest, isOpen⟩ := by
          rw [hv, Function.update_self]
          rfl
        exact congrArg (m :: ·) (ih hs' (Nat.lt_of_succ_lt_succ hn))
      · rw [if_pos hm, List.dropWhile_cons_of_neg (by simpa using hm)]
        rfl

variable {s s' : Service} {id : Nat} {t t' : Subscription}

theorem advanceReads_of_view {known : Status} {c : Change}
    (hc : advanceChange id known s = (c, s')) (ht : s.hub.view id = some t)
    (ht' : s'.hub.view id = some t') : advanceReads id known s ++ t'.unread = t.unread := by
  obtain ⟨-, hv, -⟩ := advanceChange_of_view known ht
  rw [hc] at hv
  cases ((congrFun hv id).symm.trans ht').symm.trans (Function.update_self ..)
  have hf : s.hub.find? id = some t := ht
  unfold advanceReads
  rw [hf]
  exact nextReads_of_view ht (Nat.lt_succ_self _)

theorem view_unsubscribe (id : Nat) (s : Service) : (unsubscribe id s).hub.view id = none :=
  (congrFun (Hub.view_drop id s.hub) id).trans (Function.update_self ..)

theorem Watch.reads_step {w : Watch} (ho : w.own = some id) (ht : s.hub.view id = some t)
    (ht' : (w.step s).2.hub.view id = some t') : w.reads s ++ t'.unread = t.unread := by
  have hw := w.stepped s
  generalize w.step s = x at hw ht'
  cases hw with
  | unresolved | busy | reserved | attached => cases ho
  | read hr | missed hr =>
    cases ho
    rw [get_hub_of hr] at ht'
    cases ht.symm.trans ht'
    rfl
  | failed =>
    cases ho
    cases (view_unsubscribe _ _).symm.trans ht'
  | @caught _ m hub hr =>
    cases ho
    obtain ⟨hm, hv, -⟩ := Hub.receive_of_view ht
    rw [Watch.reads, hr]
    rw [hr] at hm hv
    cases ((congrFun hv id).symm.trans ht').symm.trans (Function.update_self ..)
    cases hu : t.unread with
    | cons k rest =>
      rw [hu] at hm
      cases hm
      rfl
    | nil =>
      rw [hu] at hm
      cases ho : t.isOpen <;> rw [ho] at hm <;> cases hm
  | lost =>
    cases ho
    cases (view_unsubscribe _ _).symm.trans ht'

theorem Wait.reads_step {elapsed : Nat} {c : Wait} (ho : (Call.wait c).own = some id)
    (ht : s.hub.view id = some t) (ht' : (c.step elapsed s).2.hub.view id = some t') :
    (Call.wait c).reads s ++ t'.unread = t.unread := by
  have hc := c.stepped elapsed s
  generalize c.step elapsed s = x at hc ht'
  cases hc with
  | watching hw | failed hw | settled hw =>
    exact Watch.reads_step ho ht (by rwa [hw])
  | answered hw =>
    cases (Watch.own_of_done hw).symm.trans ho
    cases (view_unsubscribe _ _).symm.trans ht'
  | changed | ended | late =>
    cases ho
    cases (view_unsubscribe _ _).symm.trans ht'
  | waiting hv =>
    cases ho
    exact advanceReads_of_view hv ht ht'

theorem Follow.reads_step {c : Follow} (ho : (Call.follow c).own = some id)
    (ht : s.hub.view id = some t) (ht' : (c.step s).2.hub.view id = some t') :
    (Call.follow c).reads s ++ t'.unread = t.unread := by
  have hc := c.stepped s
  generalize c.step s = x at hc ht'
  cases hc with
  | watching hw | failed hw | settled hw =>
    exact Watch.reads_step ho ht (by rwa [hw])
  | answered hw =>
    cases (Watch.own_of_done hw).symm.trans ho
    cases (view_unsubscribe _ _).symm.trans ht'
  | changed hv | waiting hv =>
    cases ho
    exact advanceReads_of_view hv ht ht'
  | ended =>
    cases ho
    cases (view_unsubscribe _ _).symm.trans ht'

end Qr

/-- What a call reads is gone from its subscription, and nothing else is. -/
theorem Call.reads_step {c : Call} {elapsed : Nat} {s : Service} {id : Nat}
    {t t' : Subscription} (ho : c.own = some id) (ht : s.hub.view id = some t)
    (ht' : (c.step elapsed s).2.hub.view id = some t') :
    c.told? (c.step elapsed s).1 s = none ∧ c.reads s ++ t'.unread = t.unread := by
  cases c with
  | wait c =>
    rw [Call.step, Step.lift_service] at ht'
    exact ⟨told?_wait .., Qr.Wait.reads_step ho ht ht'⟩
  | follow c =>
    rw [Call.step, Step.lift_service] at ht'
    exact ⟨told?_follow .., Qr.Follow.reads_step ho ht ht'⟩
  | issue | status | scan | confirm | cancel | oauthBegin | oauthCallback | peek | confirmLink =>
    cases ho

theorem Hub.Move.ended {hub hub' : Hub} {id : Nat} (hm : Move hub (some id) none none hub') :
    hub'.view id = none := by
  cases hm with
  | drop hv => rw [hv, Function.update_self]

theorem Hub.Touch.unread_of_ne {fresh id : Nat} {own own' : Option Nat}
    {told : Option (Handle × Qr.Message)} {o o' : Option Subscription}
    (ht : Touch fresh id o own told own' o') (hn : own ≠ some id)
    (hd : ∀ s m, o = some s → s.isOpen = true → told = some (s.handle, m) →
      (deliver m s).unread = s.unread ++ [m]) {s' : Subscription} (hs : o' = some s') :
    (∃ s, o = some s ∧ s'.unread = s.unread ++ heardBy o told) ∨
      o = none ∧ fresh ≤ id ∧ s'.unread = [] := by
  cases ht with
  | kept hh => exact .inl ⟨s', hs, by rw [hh, List.append_nil]⟩
  | born h hf =>
    cases hs
    exact .inr ⟨rfl, hf, rfl⟩
  | @heard s m ho =>
    cases hs
    refine .inl ⟨s, rfl, ?_⟩
    rw [hd s m rfl ho rfl, heardBy_open ho]
  | read | dropped => exact absurd rfl hn

namespace World

variable {w w' : World} {setup : Setup}

/-- What a subscription has heard was read from it or is in it still. -/
structure Lossless (w : World) (id : Nat) : Prop where
  unborn : w.service.hub.nextId ≤ id → reads id w.log = []
  kept : ∀ s, w.service.hub.view id = some s → reads id w.log ++ s.unread = stream id w.log

theorem Lossless.of_ne {id : Nat} (h : w.Lossless id) (o : w.Orderly setup) {own own' : Option Nat}
    {told : Option (Handle × Qr.Message)} {l : List Record} (hlog : w'.log = w.log ++ l)
    (hr : reads id l = []) (ht : stream id l = Hub.heardBy (w.service.hub.view id) told)
    (hm : Hub.Move w.service.hub own told own' w'.service.hub) (hn : own ≠ some id)
    (hd : ∀ k m, told = some (k, m) → Qr.Distinct (published k w.log ++ [m])) :
    w'.Lossless id := by
  obtain ⟨htouch, -, hle⟩ := hm.touch o.owned.sound id
  have hread : reads id w'.log = reads id w.log := by
    rw [hlog, reads_append, hr, List.append_nil]
  refine ⟨fun hid => hread.trans (h.unborn (Nat.le_trans hle hid)), fun s' hs' => ?_⟩
  have hdeliver (s : Subscription) (m : Qr.Message) (hs : w.service.hub.view id = some s)
      (hop : s.isOpen = true) (he : told = some (s.handle, m)) :
      (Hub.deliver m s).unread = s.unread ++ [m] :=
    ((o.hears hs).deliver hop (hd _ _ he)).2
  rw [hread, hlog, stream_append, ht]
  obtain ⟨s, hs, hu⟩ | ⟨hs, hf, hu⟩ := htouch.unread_of_ne hn hdeliver hs'
  · rw [hu, ← List.append_assoc, h.kept s hs]
  · rw [hu, hs, Hub.heardBy_absent, h.unborn hf, (o.ears id).unborn hf]

theorem Lossless.next {id : Nat} (h : w.Lossless id) (o : w.Orderly setup) (e : Event) :
    (w.next e).Lossless id := by
  have hlives (k : Handle) := (o.lives k).turn (o.sound.next_turn e k)
  obtain ⟨r, hs⟩ | hl | hs := o.sound.next_cases e
  · by_cases ho : r.call.own = some id
    · obtain ⟨t, ht, -, -⟩ := (o.attentive hs).own id ho
      obtain ⟨-, -, hle⟩ := (hs.move o.owned.sound).touch o.owned.sound id
      have hid := Nat.lt_of_lt_of_le (o.owned.sound.given id t ht) hle
      refine ⟨fun hn => absurd hid (Nat.not_lt.2 hn), fun t' ht' => ?_⟩
      obtain ⟨elapsed, hstep⟩ := hs.taken
      rw [hs.after, show r.after = _ from congrArg Prod.snd hstep] at ht'
      obtain ⟨htold, hr⟩ := Call.reads_step ho ht ht'
      have hn : r.told? = none := by
        rw [Record.told?, hs.before, show r.result = _ from congrArg Prod.fst hstep, htold]
      rw [hs.log, reads_append, stream_append, hs.tells.stream, hn, Hub.heardBy_none,
        List.append_nil, reads_singleton, if_pos ho, hs.before, List.append_assoc, hr, h.kept t ht]
    · exact h.of_ne o hs.log ((reads_singleton id r).trans (if_neg ho)) (hs.tells.stream id)
        (hs.move o.owned.sound) (hs.owns_eq ▸ ho) fun k m ht => (told_new hs.log hlives ht).1
  · obtain ⟨⟨i, c, -, hleave, -⟩, hlog⟩ := hl
    have hlog' : (w.next e).log = w.log ++ [] := by rw [hlog, List.append_nil]
    have hm := Call.leave?_move hleave
    by_cases ho : c.own = some id
    · rw [ho] at hm
      obtain ⟨-, -, hle⟩ := hm.touch o.owned.sound id
      refine ⟨fun hid => hlog ▸ h.unborn (Nat.le_trans hle hid), fun s hs => ?_⟩
      cases hm.ended.symm.trans hs
    · exact h.of_ne o hlog' rfl (Hub.heardBy_none _).symm hm ho (by rintro _ _ ⟨⟩)
  · refine ⟨fun hid => ?_, fun s hv => ?_⟩
    · rw [hs.log]
      exact h.unborn (hs.lasting.nextId ▸ hid)
    · rw [hs.log]
      exact h.kept s (hs.view ▸ hv)

theorem Orderly.lossless (o : w.Orderly setup) (hlog : w.log = []) (es : List Event) (id : Nat) :
    (w.run es).Lossless id := by
  induction es using List.reverseRecOn with
  | nil =>
    refine ⟨fun _ => by rw [run_nil, hlog]; rfl, fun s hs => ?_⟩
    have hu := (o.hears hs).unread
    rw [hlog] at hu
    rw [run_nil, hlog, List.suffix_nil.1 hu]
    rfl
  | append_singleton es e ih =>
    rw [run_concat]
    exact ih.next (o.run es) e

end World

end Handoff
