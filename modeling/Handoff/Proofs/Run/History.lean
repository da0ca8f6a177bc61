import Handoff.Proofs.Run.Log

namespace Handoff

namespace Qr

variable {s : Service}

theorem Scan.begun {c c' : Scan} (h : (c.step s).1.rest c = some c') :
    (Call.scan c').isStart = false := by
  have hc := c.stepped s
  generalize c.step s = x at h hc
  cases hc <;> cases h
  rfl

theorem Confirm.begun {c c' : Confirm} (h : (c.step s).1.rest c = some c') :
    (Call.confirm c').isStart = false := by
  have hc := c.stepped s
  generalize c.step s = x at h hc
  cases hc <;> cases h <;> rfl

theorem Cancel.begun {c c' : Cancel} (h : (c.step s).1.rest c = some c') :
    (Call.cancel c').isStart = false := by
  have hc := c.stepped s
  generalize c.step s = x at h hc
  cases hc <;> cases h
  rfl

theorem Watch.begun {w w' : Watch} {s' : Service} (h : w.step s = (.more w', s')) :
    ∀ token, w' ≠ .start token := by
  have hw := w.stepped s
  rw [h] at hw
  cases hw <;> rintro token ⟨⟩

theorem Wait.begun {elapsed : Nat} {c c' : Wait} (h : (c.step elapsed s).1.rest c = some c') :
    (Call.wait c').isStart = false := by
  have hc := c.stepped elapsed s
  generalize c.step elapsed s = x at h hc
  cases hc with
  | @watching w w' known timeout s' hw =>
    cases h
    cases w' with
    | start token => exact absurd rfl (Watch.begun hw token)
    | attaching | reading | draining => rfl
  | settled | waiting =>
    cases h
    rfl
  | failed | answered | changed | ended | late => cases h

theorem Follow.begun {c c' : Follow} (h : (c.step s).1.rest c = some c') :
    (Call.follow c').isStart = false := by
  have hc := c.stepped s
  generalize c.step s = x at h hc
  cases hc with
  | @watching w w' s' hw =>
    cases h
    cases w' with
    | start token => exact absurd rfl (Watch.begun hw token)
    | attaching | reading | draining => rfl
  | settled | changed | waiting =>
    cases h
    rfl
  | failed | answered | ended => cases h

end Qr

namespace OAuth

variable {s : Service}

theorem Begin.begun {c c' : Begin} (h : (c.step s).1.rest c = some c') :
    (Call.oauthBegin c').isStart = false := by
  have hc := c.stepped s
  generalize c.step s = x at h hc
  cases hc <;> cases h <;> rfl

theorem Callback.begun {c c' : Callback} (h : (c.step s).1.rest c = some c') :
    (Call.oauthCallback c').isStart = false := by
  have hc := c.stepped s
  generalize c.step s = x at h hc
  cases hc <;> cases h <;> rfl

theorem Peek.begun {c c' : Peek} (h : (c.step s).1.rest c = some c') :
    (Call.peek c').isStart = false := by
  have hc := c.stepped s
  generalize c.step s = x at h hc
  cases hc <;> cases h
  rfl

theorem ConfirmLink.begun {c c' : ConfirmLink} (h : (c.step s).1.rest c = some c') :
    (Call.confirmLink c').isStart = false := by
  have hc := c.stepped s
  generalize c.step s = x at h hc
  cases hc <;> cases h <;> rfl

end OAuth

theorem Call.begun {c c' : Call} {elapsed : Nat} {s : Service}
    (h : (c.step elapsed s).1.rest c = some c') : c'.isStart = false := by
  cases c with
  | issue | status => cases h
  | scan c | confirm c | cancel c | wait c | follow c | oauthBegin c | oauthCallback c | peek c
  | confirmLink c =>
    rw [Call.step, Step.rest_lift, Option.map_eq_some_iff] at h
    obtain ⟨d, hd, rfl⟩ := h
    exact c.begun hd

namespace Call

variable {c c' : Call} {elapsed : Nat} {s s' : Service}

inductive Led (elapsed : Nat) (s s' : Service) : Call → Call → Prop
  | scan {c d : Qr.Scan} : c.step s = (.more d, s') → Led elapsed s s' (.scan c) (.scan d)
  | confirm {c d : Qr.Confirm} : c.step s = (.more d, s') →
    Led elapsed s s' (.confirm c) (.confirm d)
  | cancel {c d : Qr.Cancel} : c.step s = (.more d, s') → Led elapsed s s' (.cancel c) (.cancel d)
  | wait {c d : Qr.Wait} : c.step elapsed s = (.more d, s') → Led elapsed s s' (.wait c) (.wait d)
  | follow {c d : Qr.Follow} : c.step s = (.more d, s') → Led elapsed s s' (.follow c) (.follow d)
  | oauthBegin {c d : OAuth.Begin} : c.step s = (.more d, s') →
    Led elapsed s s' (.oauthBegin c) (.oauthBegin d)
  | oauthCallback {c d : OAuth.Callback} : c.step s = (.more d, s') →
    Led elapsed s s' (.oauthCallback c) (.oauthCallback d)
  | peek {c d : OAuth.Peek} : c.step s = (.more d, s') → Led elapsed s s' (.peek c) (.peek d)
  | confirmLink {c d : OAuth.ConfirmLink} : c.step s = (.more d, s') →
    Led elapsed s s' (.confirmLink c) (.confirmLink d)

theorem led (h : c.step elapsed s = (.more c', s')) : Led elapsed s s' c c' := by
  cases c with
  | issue | status => cases h
  | scan | confirm | cancel | wait | follow | oauthBegin | oauthCallback | peek | confirmLink =>
    obtain ⟨d, hd, rfl⟩ := Step.lift_more h
    constructor
    exact hd

inductive Answered (elapsed : Nat) (s : Service) : Call → Answer → Prop
  | issue (ip agent : String) (h : Handle) (nonce : List UInt8) :
    Answered elapsed s (.issue ip agent h nonce) (.issue (Qr.issue ip agent h nonce s).1)
  | status (token : String) : Answered elapsed s (.status token) (.status (Qr.status token s).1)
  | scan {c : Qr.Scan} {a : Except Qr.Error Qr.Scanned} : (c.step s).1 = .done a →
    Answered elapsed s (.scan c) (.scan a)
  | confirm {c : Qr.Confirm} {a : Except Qr.Error Unit} : (c.step s).1 = .done a →
    Answered elapsed s (.confirm c) (.confirm a)
  | cancel {c : Qr.Cancel} : (c.step s).1 = .done () → Answered elapsed s (.cancel c) .cancel
  | wait {c : Qr.Wait} {a : Except Qr.Error (Option Qr.Message)} :
    (c.step elapsed s).1 = .done a → Answered elapsed s (.wait c) (.wait a)
  | follow {c : Qr.Follow} {a : Except Qr.Error (Qr.Message × List Qr.Message)} :
    (c.step s).1 = .done a → Answered elapsed s (.follow c) (.follow a)
  | oauthBegin {c : OAuth.Begin} {a : Except OAuth.Error OAuth.Begun} : (c.step s).1 = .done a →
    Answered elapsed s (.oauthBegin c) (.oauthBegin a)
  | oauthCallback {c : OAuth.Callback} {a : Except OAuth.Error OAuth.Outcome} :
    (c.step s).1 = .done a → Answered elapsed s (.oauthCallback c) (.oauthCallback a)
  | peek {c : OAuth.Peek} {a : Except OAuth.LinkError OAuth.LinkView} : (c.step s).1 = .done a →
    Answered elapsed s (.peek c) (.peek a)
  | confirmLink {c : OAuth.ConfirmLink} {a : Except OAuth.LinkError OAuth.Linked} :
    (c.step s).1 = .done a → Answered elapsed s (.confirmLink c) (.confirmLink a)

theorem answered {a : Answer} (h : (c.step elapsed s).1 = .done a) : Answered elapsed s c a := by
  cases c with
  | issue ip agent k nonce =>
    cases h
    exact .issue ip agent k nonce
  | status token =>
    cases h
    exact .status token
  | scan | confirm | cancel | wait | follow | oauthBegin | oauthCallback | peek | confirmLink =>
    obtain ⟨a', ha, rfl⟩ := Step.lift_done h
    constructor
    exact ha

end Call

def steps (id : Nat) (log : List Record) : List Record := log.filter (·.id = id)

theorem mem_steps {id : Nat} {log : List Record} {r : Record} :
    r ∈ steps id log ↔ r ∈ log ∧ r.id = id := by
  simp [steps]

theorem mem_steps_of_subset {id : Nat} {log log' : List Record} {a b : Record}
    (hl : log ⊆ log') (hb : b ∈ steps id log') (ha : a ∈ steps b.id log) : a ∈ steps id log' := by
  obtain ⟨ha, hid⟩ := mem_steps.1 ha
  exact mem_steps.2 ⟨hl ha, hid.trans (mem_steps.1 hb).2⟩

namespace World

structure Traced (w : World) : Prop where
  cause : ∀ id c, w.calls id = some c →
    c.isStart = false ∧ ∃ r ∈ w.log, r.id = id ∧ r.result = .more c
  unused : ∀ id, w.fresh ≤ id → w.calls id = none
  numbered : ∀ r ∈ w.log, r.id < w.fresh
  apart : w.log.Pairwise fun a b => b.call.isStart = true → a.id ≠ b.id

namespace Traced

variable {w : World}

theorem perform (hw : w.Traced) {id fresh : Nat} {c : Call} (elapsed : Nat) (drawn : List Handle)
    (hid : id < fresh) (hf : w.fresh ≤ fresh)
    (hc : w.calls id = some c ∨ c.isStart = true ∧ w.fresh ≤ id) :
    Traced { w.perform id elapsed c with fresh, drawn } where
  cause k c' hc' := by
    have hold : w.calls k = some c' →
        c'.isStart = false ∧
        ∃ r ∈ w.log ++ [w.record id elapsed c], r.id = k ∧ r.result = .more c' := by
      intro hk
      obtain ⟨hst, r, hr, h⟩ := hw.cause k c' hk
      exact ⟨hst, r, List.mem_append_left _ hr, h⟩
    by_cases hk : k = id
    · subst hk
      have hrest := (perform_calls_self k elapsed c w).symm.trans hc'
      have hst := Call.begun hrest
      cases hstep : (c.step elapsed w.service).1 with
      | more d =>
        rw [hstep] at hrest
        cases hrest
        exact ⟨hst, _, List.mem_append_right _ (List.mem_singleton_self _), rfl, hstep⟩
      | done a =>
        rw [hstep] at hrest
        cases hrest
      | blocked =>
        rw [hstep] at hrest
        cases hrest
        obtain hc | ⟨hst', -⟩ := hc
        · exact hold hc
        · cases hst.symm.trans hst'
    · exact hold ((perform_calls_of_ne hk elapsed c w).symm.trans hc')
  unused k hk := by
    have hne : k ≠ id := Nat.ne_of_gt (Nat.lt_of_lt_of_le hid hk)
    exact (perform_calls_of_ne hne elapsed c w).trans (hw.unused k (Nat.le_trans hf hk))
  numbered r hr := by
    obtain hr | hr := List.mem_append.1 hr
    · exact Nat.lt_of_lt_of_le (hw.numbered r hr) hf
    · rw [List.mem_singleton.1 hr]
      exact hid
  apart := by
    refine List.pairwise_append.2 ⟨hw.apart, List.pairwise_singleton _ _, ?_⟩
    intro a ha b hb hst
    rw [List.mem_singleton.1 hb] at hst ⊢
    obtain hc | ⟨-, hle⟩ := hc
    · cases (hw.cause id c hc).1.symm.trans hst
    · exact Nat.ne_of_lt (Nat.lt_of_lt_of_le (hw.numbered a ha) hle)

theorem next (hw : w.Traced) (e : Event) : (w.next e).Traced := by
  cases e with
  | begin c elapsed =>
    rw [World.next]
    split
    · next ha =>
      have hst := (Bool.and_eq_true_iff.1 ha).1
      exact hw.perform elapsed _ (Nat.lt_succ_self _) (Nat.le_succ _) (.inr ⟨hst, Nat.le_refl _⟩)
    · exact hw
  | step id elapsed =>
    rw [World.next]
    cases hc : w.calls id with
    | none => exact hw
    | some c =>
      have hid : id < w.fresh := by
        by_contra hn
        cases (hw.unused id (Nat.not_lt.1 hn)).symm.trans hc
      exact hw.perform elapsed w.drawn hid (Nat.le_refl _) (.inl hc)
  | leave id =>
    rw [World.next]
    cases hl : (w.calls id).bind (·.leave? w.service) with
    | none => exact hw
    | some s =>
      refine ⟨fun k c hk => ?_, fun k hk => ?_, hw.numbered, hw.apart⟩
      · by_cases hki : k = id
        · subst hki
          cases (Function.update_self ..).symm.trans hk
        · exact hw.cause k c ((Function.update_of_ne hki ..).symm.trans hk)
      · by_cases hki : k = id
        · subst hki
          exact Function.update_self ..
        · exact (Function.update_of_ne hki ..).trans (hw.unused k hk)
  | pass | sweep | fail | removeUser => exact ⟨hw.cause, hw.unused, hw.numbered, hw.apart⟩

theorem start (setup : Setup) (backend : Backend) (limit : Nat) (users : Users) (now : UInt64) :
    (World.start setup backend limit users now).Traced where
  cause _ _ h := by cases h
  unused _ _ := rfl
  numbered _ h := by cases h
  apart := .nil

theorem run (hw : w.Traced) (es : List Event) : (w.run es).Traced :=
  run_induction hw (fun _ e hw => hw.next e) es

theorem eq_of_isStart (hw : w.Traced) {a b : Record} (ha : a ∈ w.log) (hb : b ∈ w.log)
    (hsa : a.call.isStart = true) (hsb : b.call.isStart = true) (hid : a.id = b.id) : a = b := by
  have hp : w.log.Pairwise fun a b =>
      a.call.isStart = true → b.call.isStart = true → a.id ≠ b.id :=
    hw.apart.imp fun h _ hb => h hb
  have : Std.Symm fun a b : Record =>
      a.call.isStart = true → b.call.isStart = true → a.id ≠ b.id :=
    ⟨fun a b h hb ha => (h ha hb).symm⟩
  by_contra hne
  exact hp.forall ha hb hne hsa hsb hid

end Traced

section Stepped

variable {w w' : World} {r : Record} (hs : Stepped w r w')
include hs

theorem Stepped.led {c : Call} (hr : r.result = .more c) :
    ∃ elapsed, Call.Led elapsed r.before r.after r.call c := by
  obtain ⟨elapsed, ht⟩ := hs.taken
  rw [hr, ← hs.before] at ht
  exact ⟨elapsed, Call.led ht.symm⟩

theorem Stepped.scan_more {d : Qr.Scan} (hr : r.result = .more (.scan d)) :
    ∃ c, r.call = .scan c ∧ c.step r.before = (.more d, r.after) := by
  obtain ⟨elapsed, hl⟩ := hs.led hr
  generalize r.call = c at hl ⊢
  cases hl with
  | scan hd => exact ⟨_, rfl, hd⟩

theorem Stepped.confirm_more {d : Qr.Confirm} (hr : r.result = .more (.confirm d)) :
    ∃ c, r.call = .confirm c ∧ c.step r.before = (.more d, r.after) := by
  obtain ⟨elapsed, hl⟩ := hs.led hr
  generalize r.call = c at hl ⊢
  cases hl with
  | confirm hd => exact ⟨_, rfl, hd⟩

theorem Stepped.answered {a : Answer} (hr : r.result = .done a) :
    ∃ elapsed, Call.Answered elapsed r.before r.call a := by
  obtain ⟨elapsed, ht⟩ := hs.taken
  rw [hr, ← hs.before] at ht
  exact ⟨elapsed, Call.answered (congrArg Prod.fst ht).symm⟩

end Stepped

/-- A call takes the step that its own steps have led to. -/
theorem Stepped.cause {w w' : World} {r : Record} (hs : Stepped w r w') (hw : w.Traced) :
    r.call.isStart = true ∨ ∃ a ∈ w.log, a.id = r.id ∧ a.result = .more r.call := by
  obtain hc | ⟨-, hst⟩ := hs.call
  · exact .inr (hw.cause _ _ hc).2
  · exact .inl hst

/-- A world that the service comes to, whatever happens. -/
def Reached (setup : Setup) (w : World) : Prop :=
  ∃ backend limit users now es, w = (start setup backend limit users now).run es

namespace Reached

variable {w : World} {setup : Setup}

theorem run (setup : Setup) (backend : Backend) (limit : Nat) (users : Users) (now : UInt64)
    (es : List Event) : ((start setup backend limit users now).run es).Reached setup :=
  ⟨backend, limit, users, now, es, rfl⟩

variable (hw : w.Reached setup)
include hw

theorem sound : w.Sound setup := by
  obtain ⟨backend, limit, users, now, es, rfl⟩ := hw
  exact (sound_start setup backend limit users now).run es

theorem traced : w.Traced := by
  obtain ⟨backend, limit, users, now, es, rfl⟩ := hw
  exact (Traced.start setup backend limit users now).run es

theorem split {l₁ l₂ : List Record} {r : Record} (hl : w.log = l₁ ++ r :: l₂) :
    ∃ v v', v.Reached setup ∧ v'.Reached setup ∧ v.log = l₁ ∧ Stepped v r v' := by
  obtain ⟨backend, limit, users, now, es, rfl⟩ := hw
  obtain ⟨es₁, e, es₂, -, hl₁, hs⟩ := run_split (sound_start ..) rfl hl
  refine ⟨_, _, .run setup backend limit users now es₁, ?_, hl₁, hs⟩
  rw [← run_concat]
  exact .run setup backend limit users now (es₁ ++ [e])

theorem of_mem {r : Record} (hr : r ∈ w.log) :
    ∃ v v', v.Reached setup ∧ v'.Reached setup ∧ v.log ⊆ w.log ∧ Stepped v r v' := by
  obtain ⟨l₁, l₂, hl⟩ := List.append_of_mem hr
  obtain ⟨v, v', hv, hv', hl₁, hs⟩ := hw.split hl
  exact ⟨v, v', hv, hv', by rw [hl, hl₁]; exact List.subset_append_left _ _, hs⟩

theorem cause {r : Record} {w' : World} (hs : Stepped w r w') (hc : r.call.isStart = false) :
    ∃ v v' a, v.Reached setup ∧ v.log ⊆ w.log ∧ Stepped v a v' ∧ a ∈ steps r.id w.log ∧
      a.result = .more r.call := by
  obtain hst | ⟨a, ha, hid, hr⟩ := hs.cause hw.traced
  · cases hc.symm.trans hst
  · obtain ⟨v, v', hv, -, hl, hsa⟩ := hw.of_mem ha
    exact ⟨v, v', a, hv, hl, hsa, mem_steps.2 ⟨ha, hid⟩, hr⟩

end Reached

end World

end Handoff
