import Handoff.Proofs.Qr.Steps

namespace Handoff

namespace Call

def isIssue : Call → Bool
  | issue .. => true
  | _ => false

theorem isIssue_rest {c c' : Call} {elapsed : Nat} {s : Service}
    (h : (c.step elapsed s).1.rest c = some c') : c'.isIssue = false := by
  cases c with
  | issue | status => cases h
  | scan c | confirm c | cancel c | wait c | follow c | oauthBegin c | oauthCallback c | peek c
  | confirmLink c =>
    rw [Call.step, Step.rest_lift, Option.map_eq_some_iff] at h
    obtain ⟨d, -, rfl⟩ := h
    rfl

theorem debt_of_isStart {c : Call} (hc : c.isStart = true) (h : Handle) : c.debt h = none := by
  cases c with
  | scan c | confirm c | cancel c => cases c <;> first | rfl | cases hc
  | _ => rfl

theorem did_issued {c : Call} {result : Step Call Answer} {s : Service} {h : Handle}
    (hd : c.did result s = some (h, .issued)) : c.isIssue = true ∧ h ∈ c.handles := by
  cases c with
  | issue ip agent k nonce =>
    dsimp only [did] at hd
    split at hd
    · cases hd
      exact ⟨rfl, List.mem_singleton_self _⟩
    · cases hd
  | status token =>
    dsimp only [did] at hd
    split at hd <;> cases hd
  | scan c =>
    cases c with
    | start =>
      dsimp only [did] at hd
      split at hd <;> cases hd
    | publishing => cases hd
  | confirm c =>
    cases c with
    | start => cases hd
    | taking =>
      dsimp only [did] at hd
      split at hd <;> cases hd
    | minting =>
      dsimp only [did] at hd
      split at hd <;> cases hd
    | publishing => cases hd
  | cancel c =>
    cases c with
    | start =>
      dsimp only [did] at hd
      split at hd <;> cases hd
    | publishing => cases hd
  | wait c | follow c =>
    obtain ⟨w, -, hw⟩ := Option.bind_eq_some_iff.1 hd
    cases w with
    | reading => rw [Qr.Watch.did] at hw; split at hw <;> cases hw
    | start | attaching | draining => cases hw
  | oauthBegin | oauthCallback | peek | confirmLink => cases hd

end Call

theorem Record.act?_eq_none {h : Handle} {r : Record} (hr : ∀ d, r.did ≠ some (h, d)) :
    r.act? h = none := by
  unfold act?
  cases hd : r.did with
  | none => rfl
  | some x =>
    obtain ⟨k, d⟩ := x
    have hk : k ≠ h := by
      rintro rfl
      exact hr d hd
    simp [hk]

theorem Record.act?_eq_some {h : Handle} {r : Record} {d : Qr.Deed} (hr : r.did = some (h, d)) :
    r.act? h = some ⟨r.id, r.before.now, d⟩ := by
  simp [act?, hr]

theorem Call.leave?_rest {c : Call} {s s' : Service} (h : c.leave? s = some s') :
    s' = { s with hub := s'.hub } := by
  cases c with
  | wait c | follow c =>
    cases c with
    | watching w => cases w <;> cases h <;> rfl
    | listening =>
      cases h
      rfl
  | issue | status | scan | confirm | cancel | oauthBegin | oauthCallback | peek | confirmLink =>
    cases h

theorem Call.leave?_keeps {c : Call} {s s' : Service} (h : c.leave? s = some s') :
    s.Keeps s' ∧ s'.view = s.view ∧ ∀ k, c.debt k = none := by
  cases c with
  | wait c | follow c =>
    cases c with
    | watching w =>
      cases h
      cases w with
      | start => exact ⟨.refl s, rfl, fun _ => rfl⟩
      | attaching | reading | draining => exact ⟨.hub s _, rfl, fun _ => rfl⟩
    | listening =>
      cases h
      exact ⟨.hub s _, rfl, fun _ => rfl⟩
  | issue | status | scan | confirm | cancel | oauthBegin | oauthCallback | peek | confirmLink =>
    cases h

theorem Service.sweepTarget_keeps (t : Target) (s : Service) :
    s.Keeps (s.sweepTarget t).2 ∧
      (s.Sound → View.Swept s.now s.view (s.sweepTarget t).2.view) := by
  cases t with
  | topics => exact ⟨.hub s _, fun _ => .refl _ _⟩
  | store kind =>
    cases kind with
    | qrSession => exact ⟨(within_sweep s).1.toKeeps, fun hs => swept hs.storage⟩
    | oauthState =>
      have hb := (access_sweep OAuth.State s).beside
      exact ⟨hb.toKeeps, fun _ => hb.view ▸ .refl _ _⟩
    | pendingLink =>
      have hb := (access_sweep OAuth.PendingLink s).beside
      exact ⟨hb.toKeeps, fun _ => hb.view ▸ .refl _ _⟩

theorem Service.hub_sweepTarget (t : Target) (s : Service) :
    (s.sweepTarget t).2.hub = s.hub ∨ (s.sweepTarget t).2.hub = s.hub.sweep.2 := by
  cases t with
  | topics => exact .inr rfl
  | store kind =>
    cases kind with
    | qrSession => exact .inl (within_sweep s).2
    | oauthState => exact .inl (access_sweep OAuth.State s).beside.hub
    | pendingLink => exact .inl (access_sweep OAuth.PendingLink s).beside.hub

theorem acts_concat (h : Handle) (log : List Record) (r : Record) :
    acts h (log ++ [r]) = acts h log ++ (r.act? h).toList := by
  rw [acts, List.filterMap_append]
  congr 1

namespace World

def life (h : Handle) (w : World) : Qr.Life where
  held := w.service.view h
  owed id := (w.calls id).bind (Call.debt h)
  acts := acts h w.log
  drawn := decide (h ∈ w.drawn)

structure Sound (setup : Setup) (w : World) : Prop where
  service : w.service.Sound
  setup : w.service.setup = setup
  unused : ∀ id, w.fresh ≤ id → w.calls id = none
  issued : ∀ id c, w.calls id = some c → c.isIssue = false

variable {w : World} {setup : Setup}

theorem Sound.perform_turn (hw : w.Sound setup) {id : Nat} {c : Call} {h : Handle} {drawn : Bool}
    (hd : (w.calls id).bind (Call.debt h) = c.debt h)
    (hi : c.isIssue = true → h ∈ c.handles → h ∉ w.drawn ∧ drawn = true)
    (hn : h ∈ w.drawn → drawn = true) (elapsed : Nat) :
    Qr.Life.Turn setup.qrTtl w.service.now (w.life h)
      { (w.perform id elapsed c).life h with drawn } := by
  have ho : ((w.perform id elapsed c).life h).owed = Function.update (w.life h).owed id
      (((c.step elapsed w.service).1.rest c).bind (Call.debt h)) := by
    funext k
    by_cases hk : k = id
    · subst hk
      rw [Function.update_self, ← perform_calls_self]
      rfl
    · rw [Function.update_of_ne hk]
      exact congrArg (·.bind (Call.debt h)) (perform_calls_of_ne hk elapsed c w)
  have ha : ((w.perform id elapsed c).life h).acts = (w.life h).acts ++
      ((w.record id elapsed c).act? h).toList := acts_concat h w.log (w.record id elapsed c)
  have hn' : (w.life h).drawn = true → drawn = true := fun h => hn (of_decide_eq_true h)
  change Qr.Life.Turn _ _ _ ⟨_, ((w.perform id elapsed c).life h).owed,
    ((w.perform id elapsed c).life h).acts, drawn⟩
  obtain ⟨hf, hno, hdebt⟩ | ⟨d, hdid, hm⟩ := (Call.effect hw.service h elapsed c).elim
  · have hno : ∀ d, (w.record id elapsed c).did ≠ some (h, d) := hno
    rw [ha, ho, Record.act?_eq_none hno, hdebt, ← hd, Option.toList_none, List.append_nil,
      show (w.calls id).bind (Call.debt h) = (w.life h).owed id from rfl, Function.update_eq_self]
    exact .fade hf hn'
  · have hdid : (w.record id elapsed c).did = some (h, d) := hdid
    rw [ha, ho, Record.act?_eq_some hdid, Option.toList_some]
    rw [hw.setup, ← hd] at hm
    refine .act hm ?_ hn'
    rintro rfl
    obtain ⟨hc, hh⟩ := Call.did_issued hdid
    obtain ⟨hu, hb⟩ := hi hc hh
    exact ⟨decide_eq_false hu, hb⟩

theorem Sound.perform (hw : w.Sound setup) (id elapsed : Nat) (c : Call) {fresh : Nat}
    (hid : id < fresh) (hf : w.fresh ≤ fresh) (drawn : List Handle) :
    Sound setup { w.perform id elapsed c with fresh, drawn } where
  service := (c.keeps elapsed w.service).sound hw.service
  setup := (c.keeps elapsed w.service).setup.trans hw.setup
  unused k hk := by
    have hne : k ≠ id := Nat.ne_of_gt (Nat.lt_of_lt_of_le hid hk)
    exact (perform_calls_of_ne hne elapsed c w).trans (hw.unused k (Nat.le_trans hf hk))
  issued k c' hc' := by
    by_cases hk : k = id
    · subst hk
      exact Call.isIssue_rest ((perform_calls_self k elapsed c w).symm.trans hc')
    · exact hw.issued k c' ((perform_calls_of_ne hk elapsed c w).symm.trans hc')

theorem Sound.lt_fresh (hw : w.Sound setup) {id : Nat} {c : Call} (hc : w.calls id = some c) :
    id < w.fresh := by
  by_contra hn
  cases (hw.unused id (Nat.not_lt.1 hn)).symm.trans hc

theorem sound_start (setup : Setup) (backend : Backend) (limit : Nat) (users : Users)
    (now : UInt64) : (start setup backend limit users now).Sound setup where
  service := by
    refine ⟨?_, ?_⟩
    · have hn := now.toNat_lt
      change now.toNat ≤ Text.maxWord
      unfold Text.maxWord
      omega
    · exact (Storage.isEmpty_fresh backend).sound
  setup := rfl
  unused _ _ := rfl
  issued _ _ h := by cases h

theorem Sound.next (hw : w.Sound setup) (e : Event) : (w.next e).Sound setup := by
  cases e with
  | begin c elapsed =>
    rw [World.next]
    split
    · exact hw.perform w.fresh elapsed c (Nat.lt_succ_self _) (Nat.le_succ _) _
    · exact hw
  | step id elapsed =>
    rw [World.next]
    cases hc : w.calls id with
    | none => exact hw
    | some c => exact hw.perform id elapsed c (hw.lt_fresh hc) (Nat.le_refl _) _
  | leave id =>
    rw [World.next]
    cases hl : (w.calls id).bind (·.leave? w.service) with
    | none => exact hw
    | some s =>
      obtain ⟨c, -, hl⟩ := Option.bind_eq_some_iff.1 hl
      obtain ⟨hk, -, -⟩ := Call.leave?_keeps hl
      refine ⟨hk.sound hw.service, hk.setup.trans hw.setup, ?_, ?_⟩
      · intro k hk
        by_cases hki : k = id
        · subst hki
          exact Function.update_self ..
        · exact (Function.update_of_ne hki ..).trans (hw.unused k hk)
      · intro k c' hc'
        by_cases hki : k = id
        · subst hki
          cases (Function.update_self ..).symm.trans hc'
        · exact hw.issued k c' ((Function.update_of_ne hki ..).symm.trans hc')
  | pass ms =>
    exact ⟨⟨Nat.min_le_right _ _, hw.service.storage⟩, hw.setup, hw.unused, hw.issued⟩
  | sweep t =>
    have hk := (Service.sweepTarget_keeps t w.service).1
    exact ⟨hk.sound hw.service, hk.setup.trans hw.setup, hw.unused, hw.issued⟩
  | fail | removeUser =>
    exact ⟨⟨hw.service.now_le, hw.service.storage⟩, hw.setup, hw.unused, hw.issued⟩

/-- A turn of the world is a turn in the life of every sign-in. -/
theorem Sound.next_turn (hw : w.Sound setup) (e : Event) (h : Handle) :
    Qr.Life.Turn setup.qrTtl w.service.now (w.life h) ((w.next e).life h) := by
  have hrefl : Qr.Life.Turn setup.qrTtl w.service.now (w.life h) (w.life h) :=
    .fade (.refl _ _) id
  cases e with
  | begin c elapsed =>
    rw [World.next]
    split
    · next ha =>
      obtain ⟨hst, hfresh⟩ := Bool.and_eq_true_iff.1 ha
      have hd : (w.calls w.fresh).bind (Call.debt h) = c.debt h := by
        rw [hw.unused _ (Nat.le_refl _), Call.debt_of_isStart hst]
        rfl
      apply hw.perform_turn hd
      · intro _ hh
        have hn := List.all_eq_true.1 hfresh h hh
        refine ⟨of_decide_eq_true hn, decide_eq_true ?_⟩
        exact List.mem_append_left _ hh
      · intro hh
        exact decide_eq_true (List.mem_append_right _ hh)
    · exact hrefl
  | step id elapsed =>
    rw [World.next]
    cases hc : w.calls id with
    | none => exact hrefl
    | some c =>
      have hd : (w.calls id).bind (Call.debt h) = c.debt h := by
        rw [hc]
        rfl
      apply hw.perform_turn hd
      · intro hi
        cases (hw.issued id c hc).symm.trans hi
      · exact decide_eq_true
  | leave id =>
    rw [World.next]
    cases hl : (w.calls id).bind (·.leave? w.service) with
    | none => exact hrefl
    | some s =>
      obtain ⟨c, hc, hl⟩ := Option.bind_eq_some_iff.1 hl
      obtain ⟨-, hv, hd⟩ := Call.leave?_keeps hl
      have ho : (fun k => (Function.update w.calls id none k).bind (Call.debt h)) =
          (w.life h).owed := by
        funext k
        by_cases hk : k = id
        · subst hk
          rw [Function.update_self]
          exact (hd h).symm.trans (congrArg (·.bind (Call.debt h)) hc).symm
        · rw [Function.update_of_ne hk]
          rfl
      change Qr.Life.Turn _ _ _ ⟨s.view h,
        fun k => (Function.update w.calls id none k).bind (Call.debt h), (w.life h).acts,
        (w.life h).drawn⟩
      rw [ho, hv]
      exact hrefl
  | sweep t =>
    have hk := (Service.sweepTarget_keeps t w.service).2 hw.service h
    exact .fade hk id
  | pass | fail | removeUser => exact hrefl

section Run

variable (setup : Setup) (backend : Backend) (limit : Nat) (users : Users) (now : UInt64)
  (es : List Event)

theorem run_life (h : Handle) :
    (((start setup backend limit users now).run es).life h).Sound setup.qrTtl := by
  have h0 : ((start setup backend limit users now).life h).Sound setup.qrTtl := by
    cases backend with
    | memory => exact Qr.Life.sound_unborn setup.qrTtl
    | sqlite => exact Qr.Life.sound_unborn setup.qrTtl
  have hr := run_induction (P := fun w => w.Sound setup ∧ (w.life h).Sound setup.qrTtl)
    ⟨sound_start setup backend limit users now, h0⟩
    (fun w e hw => ⟨hw.1.next e, hw.2.turn (hw.1.next_turn e h)⟩) es
  exact hr.2

end Run

end World

end Handoff
