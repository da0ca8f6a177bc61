import Handoff.Proofs.Qr.Reading
import Handoff.Proofs.Qr.Signing

namespace Handoff

structure World.Receptive (w : World) : Prop where
  /-- What was in the subscription when the sign-in was read, and all that was published after it,
  was read since then or is in the subscription still. -/
  delivered : ∀ l₁ r l₂ h id s, w.log = l₁ ++ r :: l₂ → r.did = some (h, .read) →
    r.call.own = some id → w.service.hub.view id = some s →
    ∃ t, r.before.hub.view id = some t ∧
      reads id l₂ ++ s.unread = t.unread ++ Qr.upToTerminal (published h l₂)
  alive : ∀ i c id, w.calls i = some c → c.own = some id → ∃ s, w.service.hub.view id = some s
  topic : ∀ id s, w.service.hub.view id = some s → s.isOpen = true →
    s.handle ∈ w.service.hub.topics
  closed : ∀ id s, w.service.hub.view id = some s → s.isOpen = false →
    ∃ m ∈ reads id w.log ++ s.unread, m.isLast = true
  forward : ∀ i id current changes, w.calls i = some (.follow (.listening id current changes)) →
    Qr.Forward (current :: changes)
  followed : ∀ r ∈ w.log, ∀ c a, r.call = .follow c → c.admitted r.before →
    r.result = .done (.follow a) → ∃ current changes, a = .ok (current, changes) ∧
      Qr.Forward (current :: changes) ∧ (Qr.Follow.known current changes).isTerminal = true
  waited : ∀ r ∈ w.log, ∀ c known a, r.call = .wait c → c.admitted r.before →
    c.given = some known → r.result = .done (.wait a) →
      a = .ok none ∨ ∃ m, a = .ok (some m) ∧ (m.status ≠ known ∨ m.isLast = true)

theorem Call.did_read {c : Call} {result : Step Call Answer} {s : Service} {h : Handle} {id : Nat}
    (hd : c.did result s = some (h, .read)) (ho : c.own = some id) :
    c.watch? = some (.reading h id) ∧ ∃ e, (s.get (P := Qr.Session) h).1 = .ok e := by
  cases c with
  | wait c | follow c =>
    cases c with
    | listening => cases hd
    | watching w =>
      change w.did s = some (h, .read) at hd
      cases w with
      | reading k id' =>
        cases ho
        rw [Qr.Watch.did] at hd
        split at hd
        · next e he =>
          cases hd
          exact ⟨rfl, e, he⟩
        · cases hd
      | start | attaching | draining => cases hd
  | issue | status | scan | confirm | cancel | oauthBegin | oauthCallback | peek | confirmLink =>
    cases ho

theorem Call.reads_of_watch {c : Call} {w : Qr.Watch} (hw : c.watch? = some w) (s : Service) :
    c.reads s = w.reads s := by
  cases c with
  | wait c | follow c =>
    cases c with
    | watching =>
      cases hw
      rfl
    | listening => cases hw
  | issue | status | scan | confirm | cancel | oauthBegin | oauthCallback | peek | confirmLink =>
    cases hw

theorem Record.reads_of_read {r : Record} {h : Handle} {id : Nat} (hd : r.did = some (h, .read))
    (ho : r.call.own = some id) : reads id [r] = [] := by
  rw [reads_singleton, if_pos ho]
  exact Call.reads_of_watch (Call.did_read hd ho).1 r.before

theorem Record.told?_of_read {r : Record} {h : Handle} (hd : r.did = some (h, .read)) :
    r.told? = none := by
  cases ht : r.told? with
  | none => rfl
  | some t => cases (told?_eq_some.1 ht).symm.trans hd

namespace World

variable {w w' : World} {setup : Setup}

theorem Orderly.tuned_later (o : w.Orderly setup) {h : Handle} {id : Nat}
    (hid : id < w.service.hub.nextId)
    (ht : ∀ s, w.service.hub.view id = some s → Hub.Tuned h [] [] s) (es : List Event)
    {l : List Record} (hl : (w.run es).log = w.log ++ l) :
    ∀ s, (w.run es).service.hub.view id = some s →
      Hub.Tuned h (published h l) (stream id l) s := by
  obtain ⟨l', hl', -, hp⟩ := o.later
    (P := fun l w => id < w.service.hub.nextId ∧
      ∀ s, w.service.hub.view id = some s → Hub.Tuned h (published h l) (stream id l) s)
    ⟨hid, ht⟩ (fun w e l l' i told own' o ht hm hp => by
      have hn := (hm.touch o.owned.sound id).2.2
      refine ⟨Nat.lt_of_lt_of_le hp.1 hn, ?_⟩
      rw [published_append, stream_append, ht.published, ht.stream]
      exact hm.tuned o.owned.sound hp.1 hp.2) es
  rwa [List.append_cancel_left (hl.symm.trans hl')]

theorem Orderly.tuned_read (o : w.Orderly setup) {r : Record} (hs : Stepped w r w') {h : Handle}
    {id : Nat} (hd : r.did = some (h, .read)) (ho : r.call.own = some id) :
    id < w'.service.hub.nextId ∧
      ∀ s, w'.service.hub.view id = some s → Hub.Tuned h [] [] s := by
  obtain ⟨t, hv, -, ha⟩ := (o.attentive hs).own id ho
  obtain ⟨hw, e, he⟩ := Call.did_read hd ho
  rw [hs.before] at he
  have hh := (ha.watch hw).1
  have hr : w.service.get h = (.ok e, (w.service.get h).2) := Prod.ext he rfl
  have hg := (o.of_get hr).2
  have hop : t.isOpen = true := by
    have hears := o.hears hv
    rw [hears.isOpen, Bool.not_eq_true', List.any_eq_false]
    intro m hm
    rw [(hg m (hh ▸ hears.sublist.mem hm)).1]
    nofun
  have hn := Record.told?_of_read hd
  obtain ⟨htouch, -, hle⟩ := (hs.move o.owned.sound).touch o.owned.sound id
  refine ⟨Nat.lt_of_lt_of_le (o.owned.sound.given id t hv) hle, ?_⟩
  intro s hs'
  rw [hv, hn, hs'] at htouch
  generalize hsome : some s = v at htouch
  generalize w.owns r.id = own, (r.result.rest r.call).bind Call.own = own' at htouch
  cases htouch with
  | kept =>
    cases hsome
    exact ⟨hh, rfl, hop⟩
  | read =>
    cases hsome
    exact ⟨hh, rfl, hop⟩
  | dropped => cases hsome

theorem Orderly.attentive_of_mem {w₀ : World} (o : w₀.Orderly setup) (hlog : w₀.log = [])
    {es : List Event} {r : Record} (hr : r ∈ (w₀.run es).log) :
    ∃ s heard, Attentive s heard r.call ∧
      ∃ elapsed, r.result = (r.call.step elapsed s).1 ∧ r.before = s := by
  obtain ⟨l₁, l₂, hl⟩ := List.append_of_mem hr
  obtain ⟨es₁, e, es₂, -, -, hs⟩ := run_split o.sound hlog hl
  obtain ⟨elapsed, hstep⟩ := hs.taken
  exact ⟨_, _, (o.run es₁).attentive hs, elapsed, congrArg Prod.fst hstep, hs.before⟩

theorem Orderly.receptive {w₀ : World} (o : w₀.Orderly setup) (hlog : w₀.log = [])
    (es : List Event) : (w₀.run es).Receptive where
  delivered := by
    intro l₁ r l₂ h id s hl hd ho hv
    obtain ⟨es₁, e, es₂, rfl, rfl, hs⟩ := run_split o.sound hlog hl
    have o₁ := o.run es₁
    obtain ⟨hid, ht⟩ := o₁.tuned_read hs hd ho
    rw [run_append] at hv hl
    have hl₂ : (((w₀.run es₁).next e).run es₂).log = ((w₀.run es₁).next e).log ++ l₂ := by
      rw [hs.log, List.append_assoc]
      exact hl
    have htuned := (o₁.next e).tuned_later hid ht es₂ hl₂ s hv
    obtain ⟨t, hview, -⟩ := (o₁.attentive hs).own id ho
    refine ⟨t, by rw [hs.before]; exact hview, ?_⟩
    have hold := (o.lossless hlog es₁ id).kept t hview
    have hnew := (o.lossless hlog (es₁ ++ e :: es₂) id).kept s (by rwa [run_append])
    rw [run_append, run_cons, hl₂, hs.log, reads_append, reads_append, stream_append, stream_append,
      Record.reads_of_read hd ho, hs.tells.stream, Record.told?_of_read hd, Hub.heardBy_none,
      List.append_nil, List.append_nil, ← hold, htuned.stream_eq] at hnew
    simpa only [List.append_assoc, List.append_cancel_left_eq] using hnew
  alive i c id hc ho := (o.run es).owned.alive i id (by rw [owns, hc]; exact ho)
  topic := (o.run es).owned.sound.topic
  closed := by
    intro id s hv hc
    have hears := (o.run es).hears hv
    rw [(o.lossless hlog es id).kept s hv]
    rwa [hears.isOpen, Bool.not_eq_false', List.any_eq_true] at hc
  forward := by
    intro i id current changes hc
    have o' := o.run es
    obtain ⟨s, hs⟩ := o'.owned.alive i id (by rw [owns, hc]; rfl)
    exact (o'.attends i _ id s hc rfl hs).1
  followed := by
    intro r hmem c a hc hadm hres
    obtain ⟨s, heard, ha, elapsed, hstep, hb⟩ := o.attentive_of_mem hlog hmem
    rw [hc] at ha hstep
    rw [hb] at hadm
    obtain ⟨a', ha', he⟩ := Step.lift_done (hstep.symm.trans hres)
    cases he
    exact Qr.Follow.answer_step ha hadm ha'
  waited := by
    intro r hmem c known a hc hadm hk hres
    obtain ⟨s, heard, ha, elapsed, hstep, hb⟩ := o.attentive_of_mem hlog hmem
    rw [hc] at ha hstep
    rw [hb] at hadm
    obtain ⟨a', ha', he⟩ := Step.lift_done (hstep.symm.trans hres)
    cases he
    exact Qr.Wait.answer_step ha hadm hk ha'

section Run

variable (setup : Setup) (backend : Backend) (limit : Nat) (users : Users) (now : UInt64)
  (es : List Event)

/-- Whatever is called, in whatever order the steps are taken: what is told of a sign-in after a
watch has read it is in the subscription of the watch, up to the last message. -/
theorem run_receptive : ((start setup backend limit users now).run es).Receptive :=
  (Orderly.start setup backend limit users now).receptive rfl es

end Run

section Example

open Race
open Desk (users phone)

theorem run_receptive_signing : ∃ l₁ l₂ s,
    signed.log = l₁ ++ seeing Race.setup 0 users 0 handle :: l₂ ∧
    signed.service.hub.view 0 = some s ∧
    reads 0 l₂ ++ s.unread = published handle l₂ ∧
    published handle l₂ = [.ofStatus .scanned, .confirmed (made Race.setup 0 7 [])] := by
  obtain ⟨l, told, hl, hs⟩ := signed_eq
  have hp := published_signing Race.setup 0 users 0 handle token (some phone) 7 [] told
  have hv : signed.service.hub.view 0 =
      some ⟨0, handle, [.ofStatus .scanned, .confirmed (made Race.setup 0 7 [])], false⟩ := by
    rw [hs]
    exact view_ended 0 handle _
  have hw : signed.Receptive := run_receptive Race.setup .memory 1 users 0 _
  obtain ⟨t, ht, hr⟩ := hw.delivered _ _ _ _ _ _ hl (did_seeing ..) rfl hv
  obtain rfl := Option.some.inj (ht.symm.trans (view_attended 0 handle []))
  refine ⟨_, _, _, hl, hv, hr.trans ?_, hp⟩
  rw [hp]
  rfl

end Example

end World

end Handoff
