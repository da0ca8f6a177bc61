import Handoff.Proofs.OAuth.Tickets

namespace Handoff

open View Ticket OAuth

structure Storage.Stays (σ σ' : Storage) : Prop where
  kept {P : Type} (e : Entry P) : σ'.kept e = σ.kept e
  isOpen : σ.IsOpen → σ'.IsOpen

theorem Storage.Stays.refl (σ : Storage) : Stays σ σ := ⟨fun _ => rfl, id⟩

theorem Storage.Stays.of_eq {σ σ' : Storage} (h : σ' = σ) : Stays σ σ' := h ▸ .refl _

theorem Storage.Aside.stays {P S : Type} [Stage S] [Staged P S] [Shelved P] {σ σ' : Storage}
    (h : Aside P σ σ') : Stays σ σ' := ⟨h.kept, h.isOpen⟩

section Stays

variable (s : Service)

theorem OAuth.Callback.stays_step (c : Callback) : s.storage.Stays (c.step s).2.storage := by
  have hc := c.stepped s
  generalize c.step s = x at hc
  cases hc with
  | taken _ ht => exact (Service.access_take ht).aside.stays
  | untaken _ ht => exact (Service.access_take ht).aside.stays
  | stored hr => exact (Service.access_put hr).aside.stays
  | unstored hr => exact (Service.access_put hr).aside.stays
  | linked hl => exact .of_eq (storage_linkUser hl)
  | rejected | unconfigured | failed | linking | searching | found | unknown | stalled | minted
  | matched => exact .refl _

theorem Call.stays_step (elapsed : Nat) (c : Call) :
    s.storage.Stays (c.step elapsed s).2.storage := by
  cases c with
  | issue | status | scan | confirm | cancel | wait | follow =>
    exact (Call.within rfl elapsed s).aside.stays
  | oauthBegin c => exact Step.lift_service _ _ (c.step s) ▸ (c.access s).aside.stays
  | oauthCallback c => exact Step.lift_service _ _ (c.step s) ▸ c.stays_step s
  | peek c => exact Step.lift_service _ _ (c.step s) ▸ (c.access s).aside.stays
  | confirmLink c => exact Step.lift_service _ _ (c.step s) ▸ (c.aside_step s).stays

theorem Service.stays_sweepTarget (t : Target) :
    s.storage.Stays (s.sweepTarget t).2.storage := by
  cases t with
  | topics => exact .refl _
  | store kind =>
    cases kind with
    | qrSession => exact (access_sweep Qr.Session s).aside.stays
    | oauthState => exact (access_sweep State s).aside.stays
    | pendingLink => exact (access_sweep PendingLink s).aside.stays

end Stays

section Deeds

variable (P : Type) [Issuing P] (h : Handle)

def Record.deed? (r : Record) : Option (Deed P) :=
  (Issuing.did r.call r.result r.before).bind fun (k, d) => if k = h then some d else none

def deeds (log : List Record) : List (Deed P) := log.filterMap (Record.deed? P h)

variable {P h}

theorem Record.deed?_eq_some {r : Record} {d : Deed P} :
    r.deed? P h = some d ↔ Issuing.did (P := P) r.call r.result r.before = some (h, d) := by
  unfold deed?
  cases hd : Issuing.did (P := P) r.call r.result r.before with
  | none => simp
  | some x =>
    obtain ⟨k, d'⟩ := x
    by_cases hk : k = h <;> simp [hk]

theorem deeds_concat (log : List Record) (r : Record) :
    deeds P h (log ++ [r]) = deeds P h log ++ (r.deed? P h).toList := by
  rw [deeds, List.filterMap_append]
  congr 1

end Deeds

namespace World

variable {P : Type} [Staged P OneShot] [Shelved P] [Issuing P] {w : World} {h : Handle}

def ticket (P : Type) [Staged P OneShot] [Shelved P] [Issuing P] (h : Handle) (w : World) :
    Ticket.Life P where
  now := w.service.now
  held := w.service.storage.view P h
  bearers := {id | ∃ c ∈ w.calls id, Issuing.Bears P h c}
  deeds := deeds P h w.log
  drawn := h ∈ w.drawn

def enter (c : Call) (w : World) : World :=
  { w with
    calls := Function.update w.calls w.fresh (some c)
    fresh := w.fresh + 1
    drawn := c.handles ++ w.drawn }

/-- A call begins in two turns: its handles are drawn, and it takes a step. -/
theorem next_begin {c : Call} {elapsed : Nat} (ha : w.admits c = true) :
    w.next (.begin c elapsed) = (w.enter c).perform w.fresh elapsed c := by
  rw [World.next, if_pos ha]
  simp only [perform, enter, Function.update_idem]
  rfl

variable [Staged.Lawful P] [Ticket.Lawful P]

theorem ticket_perform (hs : w.service.Sound) (hp : w.service.storage.Sound P) {id : Nat} {c : Call}
    (hc : w.calls id = some c) (elapsed : Nat) :
    Turn (w.ticket P h) ((w.perform id elapsed c).ticket P h) := by
  have he := Ticket.Lawful.effect hp hs.now_le h elapsed c
  have hn : w.service.now = (w.perform id elapsed c).service.now :=
    (c.keeps elapsed w.service).now.symm
  have hdeeds : ((w.perform id elapsed c).ticket P h).deeds =
      (w.ticket P h).deeds ++ ((w.record id elapsed c).deed? P h).toList := deeds_concat ..
  have hself : id ∈ ((w.perform id elapsed c).ticket P h).bearers →
      ∃ c' ∈ (c.step elapsed w.service).1.rest c, Issuing.Bears P h c' := by
    rintro ⟨c', hc', hb⟩
    exact ⟨c', (perform_calls_self ..).symm.trans hc', hb⟩
  have hothers {i : Nat} (hi : i ≠ id) (hb : i ∈ ((w.perform id elapsed c).ticket P h).bearers) :
      i ∈ (w.ticket P h).bearers := by
    obtain ⟨c', hc', hb⟩ := hb
    exact ⟨c', (perform_calls_of_ne hi ..).symm.trans hc', hb⟩
  have hbearers (hb : (∃ c' ∈ (c.step elapsed w.service).1.rest c, Issuing.Bears P h c') →
      Issuing.Bears P h c) :
      ((w.perform id elapsed c).ticket P h).bearers ⊆ (w.ticket P h).bearers := by
    intro i hi
    by_cases hid : i = id
    · subst hid
      exact ⟨c, hc, hb (hself hi)⟩
    · exact hothers hid hi
  rw [HasEffect] at he
  generalize hd : Issuing.did (P := P) c (c.step elapsed w.service).1 w.service = did at he
  generalize hb' : (∃ c' ∈ (c.step elapsed w.service).1.rest c, Issuing.Bears P h c') = b'
    at he hself hbearers
  cases he with
  | rest hf hno hb =>
    have hnone : (w.record id elapsed c).deed? P h = none := by
      rw [← Option.not_isSome_iff_eq_none, Option.isSome_iff_exists]
      rintro ⟨d, hd'⟩
      exact hno d (hd.symm.trans (Record.deed?_eq_some.1 hd'))
    rw [hnone, Option.toList_none, List.append_nil] at hdeeds
    exact .fade (Nat.le_of_eq hn) hf (hbearers hb) hdeeds fun h => h
  | store hb hh hb' =>
    rw [Record.deed?_eq_some.2 hd] at hdeeds
    refine .store ⟨c, hc, hb⟩ hh (fun i hi => ?_) hdeeds fun h => h
    by_cases hid : i = id
    · subst hid
      exact absurd (hself hi) hb'
    · exact ⟨hothers hid hi, hid⟩
  | use he hx hh hb =>
    rw [Record.deed?_eq_some.2 hd] at hdeeds
    exact .use he hx hh (hbearers hb) hdeeds fun h => h

theorem ticket_enter {c : Call} (ha : w.admits c = true) :
    Turn (w.ticket P h) ((w.enter c).ticket P h) := by
  obtain ⟨hst, hfresh⟩ := Bool.and_eq_true_iff.1 ha
  have hothers {i : Nat} (hi : i ≠ w.fresh) (hb : i ∈ ((w.enter c).ticket P h).bearers) :
      i ∈ (w.ticket P h).bearers := by
    obtain ⟨c', hc', hb⟩ := hb
    exact ⟨c', (Function.update_of_ne hi ..).symm.trans hc', hb⟩
  by_cases hh : h ∈ c.handles
  · have hn : h ∉ w.drawn := of_decide_eq_true (List.all_eq_true.1 hfresh h hh)
    have hb : ((w.enter c).ticket P h).bearers ⊆ insert w.fresh (w.ticket P h).bearers := by
      intro i hi
      by_cases hid : i = w.fresh
      · exact .inl hid
      · exact .inr (hothers hid hi)
    exact .draw hn rfl hb rfl (List.mem_append_left _ hh)
  · refine .fade (Nat.le_refl _) (.refl _ _) (fun i hi => ?_) rfl (List.mem_append_right _)
    by_cases hid : i = w.fresh
    · subst hid
      obtain ⟨c', hc', hb⟩ := hi
      cases (Function.update_self ..).symm.trans hc'
      exact absurd (Ticket.Lawful.drawn hst hb) hh
    · exact hothers hid hi

/-- Each entry of `P` is used once at most, as it should be. -/
structure Ticketed (P : Type) [Staged P OneShot] [Shelved P] [Staged.Lawful P] [Issuing P]
    (w : World) : Prop where
  sound : w.service.storage.Sound P
  lives : ∀ h, (w.ticket P h).Sound

namespace Ticketed

variable {setup : Setup}

theorem perform (ht : w.Ticketed P) (hs : w.service.Sound) {id : Nat} {c : Call}
    (hc : w.calls id = some c) (elapsed : Nat) : (w.perform id elapsed c).Ticketed P :=
  ⟨Ticket.Lawful.sound ht.sound hs.now_le elapsed c,
    fun h => (ht.lives h).turn (ticket_perform hs ht.sound hc elapsed)⟩

theorem next (ht : w.Ticketed P) (hw : w.Sound setup) (e : Event) : (w.next e).Ticketed P := by
  cases e with
  | begin c elapsed =>
    by_cases ha : w.admits c = true
    · have ha' : (w.enter c).Ticketed P := ⟨ht.sound, fun h => (ht.lives h).turn (ticket_enter ha)⟩
      rw [next_begin ha]
      exact ha'.perform hw.service (Function.update_self ..) elapsed
    · rwa [World.next, if_neg ha]
  | step id elapsed =>
    rw [World.next]
    cases hc : w.calls id with
    | none => exact ht
    | some c => exact ht.perform hw.service hc elapsed
  | leave id =>
    rw [World.next]
    cases hl : (w.calls id).bind (·.leave? w.service) with
    | none => exact ht
    | some s =>
      obtain ⟨c, -, hl⟩ := Option.bind_eq_some_iff.1 hl
      rw [Call.leave?_rest hl]
      refine ⟨ht.sound, fun h => (ht.lives h).turn ?_⟩
      refine .fade (Nat.le_refl _) (.refl _ _) (fun i hi => ?_) rfl fun h => h
      obtain ⟨c', hc', hb⟩ := hi
      by_cases hid : i = id
      · subst hid
        cases (Function.update_self ..).symm.trans hc'
      · exact ⟨c', (Function.update_of_ne hid ..).symm.trans hc', hb⟩
  | pass ms =>
    refine ⟨ht.sound, fun h => (ht.lives h).turn ?_⟩
    exact .fade (Nat.le_min.2 ⟨Nat.le_add_right _ _, hw.service.now_le⟩) (.refl _ _) subset_rfl rfl
      fun h => h
  | sweep t =>
    have hr : Rests P w.service (w.service.sweepTarget t).2 := Ticket.Lawful.sweep ht.sound t
    have hn := (Service.sweepTarget_keeps t w.service).1.now
    refine ⟨hr.sound ht.sound, fun h => (ht.lives h).turn ?_⟩
    exact .fade (Nat.le_of_eq hn.symm) (hr.swept h) subset_rfl rfl fun h => h
  | fail | removeUser => exact ⟨ht.sound, ht.lives⟩

omit [Ticket.Lawful P] in
theorem start [Shelved.Lawful P] (setup : Setup) (backend : Backend) (limit : Nat) (users : Users)
    (now : UInt64) : (World.start setup backend limit users now).Ticketed P := by
  have he := Storage.isEmpty_fresh (P := P) backend
  refine ⟨he.sound, fun h => .undrawn (by rintro ⟨⟩) (he.view h) ?_ rfl⟩
  rw [Set.eq_empty_iff_forall_notMem]
  rintro i ⟨c, ⟨⟩, -⟩

theorem run (ht : w.Ticketed P) (hw : w.Sound setup) (es : List Event) : (w.run es).Ticketed P :=
  (run_induction (P := fun w => w.Sound setup ∧ w.Ticketed P) ⟨hw, ht⟩
    (fun _ e h => ⟨h.1.next e, h.2.next h.1 e⟩) es).2

omit [Ticket.Lawful P] in
theorem of_held (ht : w.Ticketed P) {e : Entry P} (he : w.service.storage.view P h = some e) :
    ∃ b ∈ w.log, b.deed? P h = some (.stored e) := by
  have hd : deeds P h w.log = [.stored e] := ((ht.lives h).of_held he).1
  exact List.mem_filterMap.1 (hd ▸ List.mem_singleton_self _ : Deed.stored e ∈ deeds P h w.log)

omit [Ticket.Lawful P] in
theorem held_of_stored (ht : w.Ticketed P) {b : Record} {kept : Entry P} (hb : b ∈ w.log)
    (hd : b.deed? P h = some (.stored kept))
    (hu : ∀ a ∈ w.log, ∀ time, a.deed? P h ≠ some (.used time))
    (hx : w.service.now ≤ kept.expireAt) : w.service.storage.view P h = some kept := by
  refine (ht.lives h).of_stored (List.mem_filterMap.2 ⟨b, hb, hd⟩) (fun time hm => ?_) hx
  obtain ⟨a, ha, hd'⟩ := List.mem_filterMap.1 hm
  exact hu a ha time hd'

omit [Ticket.Lawful P] in
theorem countP_le (ht : w.Ticketed P) {p : Record → Bool}
    (hp : ∀ r, p r = true → ∃ time, r.deed? P h = some (.used time)) : w.log.countP p ≤ 1 := by
  refine Nat.le_trans ?_ (ht.lives h).used_once
  change _ ≤ (deeds P h w.log).countP Deed.isUsed
  rw [deeds, List.countP_filterMap]
  apply List.countP_mono_left
  intro r _ hr
  obtain ⟨time, hd⟩ := hp r hr
  rw [hd]
  rfl

end Ticketed

theorem stays_next (w : World) (e : Event) :
    w.service.storage.Stays (w.next e).service.storage := by
  have ht := w.turned e
  generalize (w.next e).service = s at ht
  cases ht with
  | stepped c elapsed => exact c.stays_step _ elapsed
  | swept t => exact Service.stays_sweepTarget _ t
  | removed | rest => exact .refl _

namespace Reached

variable {setup : Setup} (hw : w.Reached setup)
include hw

theorem ticketed [Shelved.Lawful P] : w.Ticketed P := by
  obtain ⟨backend, limit, users, now, es, rfl⟩ := hw
  exact (Ticketed.start setup backend limit users now).run (sound_start ..) es

theorem isOpen : w.service.storage.IsOpen := by
  obtain ⟨backend, limit, users, now, es, rfl⟩ := hw
  refine run_induction (P := fun w => w.service.storage.IsOpen) ?_
    (fun w e => (stays_next w e).isOpen) es
  cases backend with
  | memory => trivial
  | sqlite => rfl

end Reached

end World

end Handoff
