import Handoff.Proofs.Qr.Overtaking
import Handoff.Proofs.Qr.Reception

namespace Handoff

namespace Qr

def Watch.caught (id : Nat) : List Message → Except Error Watching
  | m :: _ => if m.isLast then .ok ⟨id, m⟩ else .error .notFound
  | [] => .error .notFound

theorem Watch.caught_upToTerminal (id : Nat) (ms : List Message) :
    caught id (upToTerminal ms) = caught id ms := by
  cases ms with
  | nil => rfl
  | cons m ms =>
    rw [upToTerminal]
    split
    · rfl
    · rfl

theorem Watch.step_draining {s : Service} {id : Nat} {t : Subscription}
    (ht : s.hub.view id = some t) :
    ((draining id).step s).1 = .done (caught id t.unread) := by
  have hr := (Hub.receive_of_view ht).1
  rw [Watch.step]
  dsimp only
  rw [hr]
  cases t.unread with
  | nil => cases t.isOpen <;> rfl
  | cons m ms =>
    change (if m.isLast = true then _ else _ : Step Watch (Except Error Watching) × Service).1 = _
    rw [caught]
    split <;> rfl

theorem Closing.alone {tr : List (Nat × Deed)} {f : Nat → Option Debt} (h : Closing tr f) :
    ∃ i, ∀ x ∈ tr, x.1 = i := by
  cases h with
  | idle => exact ⟨0, by simp⟩
  | minting i => exact ⟨i, by simp⟩
  | @owed i _ _ he | @told i _ _ he => cases he <;> exact ⟨i, by simp⟩

end Qr

theorem did_of_mem {log : List Record} {r : Record} (hr : r ∈ log) {h : Handle} {d : Qr.Deed}
    (hd : r.did = some (h, d)) : Qr.Did (acts h log) r.id d :=
  ⟨_, List.mem_filterMap.2 ⟨r, hr, Record.act?_eq_some hd⟩, rfl, rfl⟩

theorem exists_of_mem_published {log : List Record} {h : Handle} {m : Qr.Message}
    (hm : m ∈ published h log) : ∃ r ∈ log, r.told? = some (h, m) := by
  obtain ⟨a, ha, hm⟩ := List.mem_filterMap.1 hm
  obtain ⟨r, hr, ha⟩ := List.mem_filterMap.1 ha
  obtain ⟨⟨k, d⟩, hd, ha⟩ := Option.bind_eq_some_iff.1 ha
  dsimp only at ha
  by_cases hk : k = h
  · rw [if_pos hk] at ha
    cases ha
    cases d with
    | told =>
      cases hm
      exact ⟨r, hr, Record.told?_eq_some.2 (hk ▸ hd)⟩
    | _ => cases hm
  · rw [if_neg hk] at ha
    cases ha

theorem Call.hub_attaching {c : Call} {h : Handle} (hw : c.watch? = some (.attaching h))
    (elapsed : Nat) (s : Service) : (c.step elapsed s).2.hub = (s.hub.attach h).2 := by
  cases c with
  | wait c | follow c =>
    cases c with
    | watching =>
      cases hw
      rfl
    | listening => cases hw
  | issue | status | scan | confirm | cancel | oauthBegin | oauthCallback | peek | confirmLink =>
    cases hw

namespace World

variable {w : World} {setup : Setup}

theorem Orderly.looks (o : w.Orderly setup) (hlog : w.log = []) {es : List Event}
    {l₁ l₂ since : List Record} {a r : Record} {h : Handle}
    (hl : (w.run es).log = l₁ ++ a :: (since ++ r :: l₂))
    (ha : a.call.watch? = some (.attaching h))
    (hr : r.call.watch? = some (.draining a.before.hub.nextId)) :
    ((Qr.Watch.draining a.before.hub.nextId).step r.before).1 =
      .done (Qr.Watch.caught a.before.hub.nextId (published h since)) := by
  rw [← List.cons_append, ← List.append_assoc] at hl
  obtain ⟨es, e, es', rfl, hl, hsr⟩ := run_split o.sound hlog hl
  obtain ⟨es₁, e₁, es₂, rfl, rfl, hsa⟩ := run_split o.sound hlog hl
  have o₁ := o.run es₁
  have o₂ := o₁.next e₁
  have o₃ := o₂.run es₂
  rw [run_append, run_cons] at hl hsr
  obtain ⟨elapsed, hstep⟩ := hsa.taken
  have hhub : ((w.run es₁).next e₁).service.hub = ((w.run es₁).service.hub.attach h).2 := by
    rw [hsa.after, show a.after = _ from congrArg Prod.snd hstep]
    exact Call.hub_attaching ha elapsed _
  have hview := Hub.view_attach o₁.owned.sound h
  rw [← hhub] at hview
  rw [hsa.before] at hr ⊢
  generalize hid : (w.run es₁).service.hub.nextId = id at hr hview ⊢
  have hborn : stream id ((w.run es₁).next e₁).log = [] := by
    have hear := (o₁.ears id).unborn (Nat.le_of_eq hid)
    have hv : (w.run es₁).service.hub.view id = none := by
      by_contra hv
      obtain ⟨s, hv⟩ := Option.ne_none_iff_exists'.1 hv
      exact absurd (o₁.owned.sound.given id s hv) (by rw [hid]; exact Nat.lt_irrefl _)
    rw [hsa.log, stream_append, hear, hsa.tells.stream, hv, Hub.heardBy_absent, List.nil_append]
  have hlt : id < ((w.run es₁).next e₁).service.hub.nextId := by
    rw [hhub, ← hid]
    exact Nat.lt_succ_self _
  have htuned (s : Subscription) (hs : ((w.run es₁).next e₁).service.hub.view id = some s) :
      Hub.Tuned h [] [] s := by
    rw [hview, Function.update_self] at hs
    cases hs
    exact ⟨rfl, rfl, rfl⟩
  have hsince : (((w.run es₁).next e₁).run es₂).log = ((w.run es₁).next e₁).log ++ since := by
    rw [hl, hsa.log, List.append_assoc, List.singleton_append]
  obtain ⟨t, ht, -, hatt⟩ := (o₃.attentive hsr).own id (Call.own_of_watch hr)
  have hst := (o₂.tuned_later hlt htuned es₂ hsince t ht).stream_eq
  have hu : t.unread = Qr.upToTerminal (published h since) := by
    refine (hatt.watch hr : t.unread = _).trans ?_
    rw [← hst, hsince, stream_append, hborn, List.nil_append]
  rw [hsr.before, Qr.Watch.step_draining ht, hu, Qr.Watch.caught_upToTerminal]

/-- The last message is told by the call that removed the entry. -/
theorem Orderly.teller (o : w.Orderly setup) {h : Handle} {x z : Record} {d : Qr.Deed}
    {m : Qr.Message} (hx : x ∈ w.log) (hd : x.did = some (h, d)) (hr : d.removes = true)
    (hz : z ∈ w.log) (ht : z.told? = some (h, m)) (hm : m.isLast = true) : z.id = x.id := by
  obtain ⟨i, hi⟩ := (o.lives h).closing.alone
  have hxi := hi _ ((Qr.mem_trace (Qr.Deed.isClosing_of_removes hr)).2 (did_of_mem hx hd))
  have hzi := hi _ ((Qr.mem_trace hm).2 (did_of_mem hz (Record.told?_eq_some.1 ht)))
  exact hzi.trans hxi.symm

section Run

variable (setup : Setup) (backend : Backend) (limit : Nat) (users : Users) (now : UInt64)
  (es : List Event)

theorem Overtaken.caught {h : Handle} {id remover : Nat} {since : List Record} {r : Record}
    (ho : Overtaken ((start setup backend limit users now).run es).log h id remover since r) :
    ((Qr.Watch.draining id).step r.before).1 = .done (Qr.Watch.caught id (published h since)) := by
  obtain ⟨l₁, a, l₂, hl, ha, rfl, -⟩ := ho.subscribed
  exact (Orderly.start setup backend limit users now).looks rfl hl ha ho.looks

/-- A watch whose sign-in is removed before it is read succeeds if the first that was told since it
subscribed is the last message, which is then the one of the call that removed the entry. Otherwise
it finds nothing: what is told later on is lost to it. -/
theorem run_overtaken {h : Handle} {id remover : Nat} {since : List Record} {r : Record}
    (ho : Overtaken ((start setup backend limit users now).run es).log h id remover since r) :
    (∀ m, (published h since).head? = some m → m.isLast = true →
      ((Qr.Watch.draining id).step r.before).1 = .done (.ok ⟨id, m⟩) ∧
        ∃ z ∈ since, z.id = remover ∧ z.told? = some (h, m)) ∧
    (((Qr.Watch.draining id).step r.before).1 = .done (.error .notFound) ↔
      ∀ m, (published h since).head? = some m → m.isLast = false) := by
  obtain ⟨l₁, a, l₂, hl, -⟩ := ho.subscribed
  obtain ⟨k₁, x, k₂, y, k₃, hs, rfl, hx, -⟩ := ho.removed
  have o := Orderly.start setup backend limit users now
  have hin {z : Record} (hz : z ∈ since) : z ∈ ((start setup backend limit users now).run es).log := by
    rw [hl]
    simp [hz]
  rw [Overtaken.caught _ _ _ _ _ _ ho]
  generalize hp : published h since = ms
  cases ms with
  | nil => simp [Qr.Watch.caught]
  | cons m ms =>
    obtain ⟨z, hz, ht⟩ := exists_of_mem_published (hp ▸ List.mem_cons_self : m ∈ published h since)
    by_cases hm : m.isLast = true
    · have hid : z.id = x.id := by
        have hxs : x ∈ since := by rw [hs]; simp
        obtain hx | hx := hx <;> exact (o.run es).teller (hin hxs) hx rfl (hin hz) ht hm
      simpa [Qr.Watch.caught, hm] using ⟨z, hz, hid, ht⟩
    · simp [Qr.Watch.caught, hm]

end Run

theorem run_overtaken_cancelled : ∃ since r,
    Overtaken ((start Race.setup .memory 1 .empty 0).run
      (Race.events Race.handle Race.token Race.nonce)).log Race.handle 0 3 since r ∧
      ((Qr.Watch.draining 0).step r.before).1 = .done (.error .notFound) := by
  obtain ⟨since, r, hp, ho⟩ := Race.overtaken_example
  refine ⟨since, r, ho, (run_overtaken _ _ _ _ _ _ ho).2.2 ?_⟩
  rw [hp]
  rintro m ⟨⟩
  rfl

/-- A watch does miss what happens between its subscription and its look at the entry. -/
theorem not_forall_overtaken_ok : ¬ ∀ (setup : Setup) (backend : Backend) (limit : Nat)
    (users : Users) (now : UInt64) (es : List Event) (h : Handle) (id remover : Nat)
    (since : List Record) (r : Record),
    Overtaken ((start setup backend limit users now).run es).log h id remover since r →
      ∃ v, ((Qr.Watch.draining id).step r.before).1 = .done (.ok v) := by
  intro hall
  obtain ⟨since, r, hp, ho⟩ := Race.overtaken_example
  obtain ⟨v, hv⟩ := hall _ _ _ _ _ _ _ _ _ _ _ ho
  rw [Overtaken.caught _ _ _ _ _ _ ho, hp] at hv
  cases hv

end World

end Handoff
