import Handoff.Proofs.Hub.Streams

namespace Handoff

def Record.told? (r : Record) : Option (Handle × Qr.Message) := r.call.told? r.result r.before

def published (h : Handle) (log : List Record) : List Qr.Message := Qr.tellings (acts h log)

def stream (id : Nat) (log : List Record) : List Qr.Message :=
  log.flatMap fun r => Hub.heardBy (r.before.hub.view id) r.told?

theorem Record.told?_eq_some {r : Record} {h : Handle} {m : Qr.Message} :
    r.told? = some (h, m) ↔ r.did = some (h, .told m) := by
  unfold told? Call.told?
  rw [show r.call.did r.result r.before = r.did from rfl]
  split
  · next hd => simp [hd]
  · next hn => simpa using hn h m

theorem toldTo_told? (h : Handle) (r : Record) :
    Qr.toldTo h r.told? = Qr.tellings (r.act? h).toList := by
  unfold Record.told? Call.told? Record.act?
  rw [show r.call.did r.result r.before = r.did from rfl]
  cases r.did with
  | none => rfl
  | some t =>
    obtain ⟨k, d⟩ := t
    by_cases hk : k = h <;> cases d <;> simp [Qr.toldTo, Qr.tellings, Qr.Deed.told?, hk]

theorem published_concat (h : Handle) (log : List Record) (r : Record) :
    published h (log ++ [r]) = published h log ++ Qr.toldTo h r.told? := by
  rw [published, acts_concat, Qr.tellings, List.filterMap_append, toldTo_told?]
  rfl

theorem stream_concat (id : Nat) (log : List Record) (r : Record) :
    stream id (log ++ [r]) = stream id log ++ Hub.heardBy (r.before.hub.view id) r.told? := by
  simp [stream]

theorem published_append (h : Handle) (log log' : List Record) :
    published h (log ++ log') = published h log ++ published h log' := by
  simp [published, acts, Qr.tellings]

theorem stream_append (id : Nat) (log log' : List Record) :
    stream id (log ++ log') = stream id log ++ stream id log' := by
  simp [stream]

theorem Call.own_of_isStart {c : Call} (hc : c.isStart = true) : c.own = none := by
  cases c with
  | wait c | follow c =>
    cases c with
    | watching w => cases w <;> first | rfl | cases hc
    | listening => cases hc
  | _ => rfl

theorem Call.leave?_move {c : Call} {s s' : Service} (h : c.leave? s = some s') :
    Hub.Move s.hub c.own none none s'.hub := by
  cases c with
  | wait c | follow c =>
    cases c with
    | watching w =>
      cases h
      cases w with
      | start => exact .refl _ _
      | attaching => exact .rest rfl (Hub.Steady.lasting ⟨rfl, rfl⟩)
      | reading | draining => exact .of_drop _ _
    | listening =>
      cases h
      exact .of_drop _ _
  | issue | status | scan | confirm | cancel | oauthBegin | oauthCallback | peek | confirmLink =>
    cases h

inductive Service.Turned (s : Service) : Service → Prop
  | stepped (c : Call) (elapsed : Nat) : Turned s (c.step elapsed s).2
  | swept (t : Target) : Turned s (s.sweepTarget t).2
  | removed (uid : Int64) : Turned s { s with users := s.users.remove uid }
  | rest (now : Nat) (hub : Hub) (faults : Faults) : Turned s { s with now, hub, faults }

namespace World

variable {w w' : World} {setup : Setup}

theorem turned (w : World) (e : Event) : w.service.Turned (w.next e).service := by
  cases e with
  | begin c elapsed =>
    rw [World.next]
    split
    · exact .stepped c elapsed
    · exact .rest _ _ _
  | step id elapsed =>
    rw [World.next]
    cases w.calls id with
    | none => exact .rest _ _ _
    | some c => exact .stepped c elapsed
  | leave id =>
    rw [World.next]
    cases hl : (w.calls id).bind (·.leave? w.service) with
    | none => exact .rest _ _ _
    | some s =>
      obtain ⟨c, -, hl⟩ := Option.bind_eq_some_iff.1 hl
      rw [Call.leave?_rest hl]
      exact .rest _ _ _
  | pass ms => exact .rest _ _ _
  | sweep t => exact .swept t
  | fail faults => exact .rest _ _ _
  | removeUser uid => exact .removed uid

def owns (w : World) (i : Nat) : Option Nat := (w.calls i).bind Call.own

structure Stepped (w : World) (r : Record) (w' : World) : Prop where
  taken : ∃ elapsed, (r.result, r.after) = r.call.step elapsed w.service
  before : r.before = w.service
  after : w'.service = r.after
  calls : w'.calls = Function.update w.calls r.id (r.result.rest r.call)
  log : w'.log = w.log ++ [r]
  call : w.calls r.id = some r.call ∨ w.calls r.id = none ∧ r.call.isStart = true

structure Left (w w' : World) : Prop where
  left : ∃ i c, w.calls i = some c ∧ c.leave? w.service = some w'.service ∧
    w'.calls = Function.update w.calls i none
  log : w'.log = w.log

structure Still (w w' : World) : Prop where
  calls : w'.calls = w.calls
  log : w'.log = w.log
  view : w'.service.hub.view = w.service.hub.view
  lasting : Hub.Lasting w.service.hub w'.service.hub

theorem Still.refl (w : World) : Still w w := ⟨rfl, rfl, rfl, (Hub.Steady.refl _).lasting⟩

theorem Sound.next_cases (hw : w.Sound setup) (e : Event) :
    (∃ r, Stepped w r (w.next e)) ∨ Left w (w.next e) ∨ Still w (w.next e) := by
  cases e with
  | begin c elapsed =>
    rw [World.next]
    split
    · next ha =>
      have hst := (Bool.and_eq_true_iff.1 ha).1
      exact .inl ⟨w.record w.fresh elapsed c, ⟨elapsed, rfl⟩, rfl, rfl, rfl, rfl,
        .inr ⟨hw.unused _ (Nat.le_refl _), hst⟩⟩
    · exact .inr (.inr (.refl w))
  | step id elapsed =>
    rw [World.next]
    cases hc : w.calls id with
    | none => exact .inr (.inr (.refl w))
    | some c => exact .inl ⟨w.record id elapsed c, ⟨elapsed, rfl⟩, rfl, rfl, rfl, rfl, .inl hc⟩
  | leave id =>
    rw [World.next]
    cases hl : (w.calls id).bind (·.leave? w.service) with
    | none => exact .inr (.inr (.refl w))
    | some s =>
      obtain ⟨c, hc, hs⟩ := Option.bind_eq_some_iff.1 hl
      exact .inr (.inl ⟨⟨id, c, hc, hs, rfl⟩, rfl⟩)
  | sweep t =>
    have ht : (w.service.sweepTarget t).2.hub.view = w.service.hub.view ∧
        Hub.Lasting w.service.hub (w.service.sweepTarget t).2.hub := by
      obtain he | he := Service.hub_sweepTarget t w.service
      · exact he ▸ ⟨rfl, (Hub.Steady.refl _).lasting⟩
      · exact he ▸ ⟨rfl, Hub.lasting_sweep _⟩
    exact .inr (.inr ⟨rfl, rfl, ht.1, ht.2⟩)
  | pass | fail | removeUser => exact .inr (.inr ⟨rfl, rfl, rfl, (Hub.Steady.refl _).lasting⟩)

theorem Stepped.owns_eq {r : Record} (hs : Stepped w r w') : w.owns r.id = r.call.own := by
  unfold owns
  obtain hc | ⟨hc, hst⟩ := hs.call
  · rw [hc]
    rfl
  · rw [hc, Call.own_of_isStart hst]
    rfl

theorem Stepped.move (hh : w.service.hub.Sound) {r : Record}
    (hs : Stepped w r w') :
    Hub.Move w.service.hub (w.owns r.id) r.told? ((r.result.rest r.call).bind Call.own)
      w'.service.hub := by
  obtain ⟨elapsed, ht⟩ := hs.taken
  have hm := Call.hub_move hh elapsed r.call
  rw [← ht] at hm
  rw [hs.owns_eq, hs.after, Record.told?, hs.before]
  exact hm

theorem owns_update {i : Nat} {c : Option Call}
    (hc : w'.calls = Function.update w.calls i c) :
    w'.owns = Function.update w.owns i (c.bind Call.own) := by
  funext k
  by_cases hk : k = i
  · subst hk
    rw [owns, hc, Function.update_self, Function.update_self]
  · rw [owns, hc, Function.update_of_ne hk, Function.update_of_ne hk, owns]

structure Tells (w : World) (l : List Record) (told : Option (Handle × Qr.Message)) : Prop where
  published : ∀ h, published h l = Qr.toldTo h told
  stream : ∀ id, stream id l = Hub.heardBy (w.service.hub.view id) told

theorem Tells.nil (w : World) : w.Tells [] none :=
  ⟨fun _ => rfl, fun _ => (Hub.heardBy_none _).symm⟩

theorem Stepped.tells {r : Record} (hs : Stepped w r w') : w.Tells [r] r.told? where
  published h := by
    rw [← List.nil_append [r], published_concat]
    rfl
  stream id := by
    rw [← List.nil_append [r], stream_concat, hs.before]
    rfl

theorem Sound.next_move (hw : w.Sound setup) (hh : w.service.hub.Sound) (e : Event) :
    ∃ l i told own', (w.next e).log = w.log ++ l ∧ w.Tells l told ∧
      Hub.Move w.service.hub (w.owns i) told own' (w.next e).service.hub ∧
      (w.next e).owns = Function.update w.owns i own' := by
  obtain ⟨r, hs⟩ | hl | hs := hw.next_cases e
  · exact ⟨[r], r.id, _, _, hs.log, hs.tells, hs.move hh, owns_update hs.calls⟩
  · obtain ⟨⟨i, c, hc, hl, hu⟩, hlog⟩ := hl
    refine ⟨[], i, none, none, by rw [hlog, List.append_nil], .nil w, ?_, owns_update hu⟩
    rw [owns, hc]
    exact Call.leave?_move hl
  · refine ⟨[], 0, none, w.owns 0, by rw [hs.log, List.append_nil], .nil w,
      .rest hs.view hs.lasting, ?_⟩
    rw [Function.update_eq_self]
    unfold owns
    rw [hs.calls]

theorem Sound.log_next (hw : w.Sound setup) (e : Event) :
    (w.next e).log = w.log ∨ ∃ r, Stepped w r (w.next e) := by
  obtain hs | hl | hs := hw.next_cases e
  · exact .inr hs
  · exact .inl hl.log
  · exact .inl hs.log

theorem run_append (w : World) (es es' : List Event) : w.run (es ++ es') = (w.run es).run es' :=
  List.foldl_append

theorem run_concat (w : World) (es : List Event) (e : Event) :
    w.run (es ++ [e]) = (w.run es).next e := run_append w es [e]

theorem Sound.run (hw : w.Sound setup) (es : List Event) : (w.run es).Sound setup :=
  run_induction hw (fun _ e hw => hw.next e) es

/-- A record of the log belongs to a turn of the run. -/
theorem run_split (hw : w.Sound setup) (hlog : w.log = []) {es : List Event} {l₁ l₂ : List Record}
    {r : Record} (h : (w.run es).log = l₁ ++ r :: l₂) :
    ∃ es₁ e es₂, es = es₁ ++ e :: es₂ ∧ (w.run es₁).log = l₁ ∧
      Stepped (w.run es₁) r ((w.run es₁).next e) := by
  induction es using List.reverseRecOn generalizing l₂ with
  | nil => simp [hlog] at h
  | append_singleton es e ih =>
    rw [run_concat] at h
    obtain hl | ⟨r', hs⟩ := (hw.run es).log_next e
    · rw [hl] at h
      obtain ⟨es₁, e', es₂, rfl, hl, hs⟩ := ih h
      exact ⟨es₁, e', es₂ ++ [e], by simp, hl, hs⟩
    · rw [hs.log] at h
      obtain ⟨hl, rfl, -⟩ | ⟨l, hl, -⟩ := Qr.split_concat h
      · exact ⟨es, e, [], rfl, hl, hs⟩
      · obtain ⟨es₁, e', es₂, rfl, hl, hs⟩ := ih hl
        exact ⟨es₁, e', es₂ ++ [e], by simp, hl, hs⟩

end World

end Handoff
