import Handoff.Proofs.OAuth.Issued

namespace Handoff

open View Ticket OAuth

namespace Record

/-- A callback that carries the state, however it is spelt, goes on to ask the provider. -/
def exchanges (h : Handle) (r : Record) : Bool :=
  match r.call with
  | .oauthCallback (.start state ..) =>
    match r.result with
    | .more (.oauthCallback (.exchanging ..)) => Handle.parse state stateBytes = some h
    | _ => false
  | _ => false

def redeems (h : Handle) (r : Record) : Bool :=
  match r.call with
  | .confirmLink (.start token _) =>
    match r.result with
    | .more (.confirmLink (.linking ..)) => Handle.parse token linkBytes = some h
    | _ => false
  | _ => false

variable {h : Handle} {r : Record}

theorem exchanges_iff : r.exchanges h = true ↔ ∃ state code denied chance st code' chance',
    r.call = .oauthCallback (.start state code denied chance) ∧
    r.result = .more (.oauthCallback (.exchanging st code' chance')) ∧
    Handle.parse state stateBytes = some h := by
  unfold exchanges
  split
  · next state code denied chance hc =>
    split
    · next st code' chance' hr => simp [hc, hr]
    · next hn =>
      refine ⟨nofun, ?_⟩
      rintro ⟨_, _, _, _, st, code', chance', -, hr, -⟩
      exact absurd hr (hn st code' chance')
  · next hn =>
    refine ⟨nofun, ?_⟩
    rintro ⟨state, code, denied, chance, _, _, _, hc, -⟩
    exact absurd hc (hn state code denied chance)

theorem redeems_iff : r.redeems h = true ↔ ∃ token random l random',
    r.call = .confirmLink (.start token random) ∧
    r.result = .more (.confirmLink (.linking l random')) ∧
    Handle.parse token linkBytes = some h := by
  unfold redeems
  split
  · next token random hc =>
    split
    · next l random' hr => simp [hc, hr]
    · next hn =>
      refine ⟨nofun, ?_⟩
      rintro ⟨_, _, l, random', -, hr, -⟩
      exact absurd hr (hn l random')
  · next hn =>
    refine ⟨nofun, ?_⟩
    rintro ⟨token, random, _, _, hc, -⟩
    exact absurd hc (hn token random)

theorem exchanges_iff_used :
    r.exchanges h = true ↔ ∃ time, r.deed? State h = some (.used time) := by
  obtain ⟨id, call, before, result, after⟩ := r
  simp only [deed?_eq_some, exchanges, Issuing.did]
  split
  · split <;> simp
  · split
    · split <;> simp
    · next hn => exact absurd rfl (hn _ _ _ _)
    · simp

theorem redeems_iff_used :
    r.redeems h = true ↔ ∃ time, r.deed? PendingLink h = some (.used time) := by
  obtain ⟨id, call, before, result, after⟩ := r
  simp only [deed?_eq_some, redeems, Issuing.did]
  split
  · split <;> simp
  · split
    · split <;> simp
    · next hn => exact absurd rfl (hn _ _)
    · simp

end Record

namespace OAuth

variable {s : Service}

theorem Error.isRefusal_ofTake (e : StoreError) : (ofTake e).isRefusal = false := by
  cases e <;> rfl

theorem precheck_blank (s : Service) (state : String) {code : String} (denied : Option String)
    (hc : Text.nonBlank code = none) : ∃ e, precheck state code denied s = .error e := by
  unfold precheck
  split
  · exact ⟨_, rfl⟩
  · split
    · exact ⟨_, rfl⟩
    · rw [hc]
      exact ⟨_, rfl⟩

section Live

variable (ho : s.storage.IsOpen) (hn : s.now ≤ Text.maxWord)
include ho hn

theorem takeOnce_live {P : Type} [Staged P OneShot] [Shelved P] [Staged.Lawful P]
    (hs : s.storage.Sound P) {h : Handle} {e : Entry P}
    (hf : s.failure (Staged.kind P) .take = none) (he : s.storage.view P h = some e)
    (hx : e.isExpired s.now = false) (hst : Staged.stage e.payload = OneShot.issued) :
    ∃ s', s.takeOnce h = (.ok e, s') := by
  rw [Service.takeOnce, ← hst]
  exact Service.take_live hs hn ho hf he hx

theorem Callback.step_live (hs : s.storage.Sound State) {state code code' : String}
    {denied : Option String} {chance : Chance} {h : Handle} {e : Entry State}
    (hp : precheck state code denied s = .ok (h, code'))
    (hf : s.failure .oauthState .take = none) (he : s.storage.view State h = some e)
    (hx : e.isExpired s.now = false) (hst : e.payload.stage = .issued) :
    ((Callback.start state code denied chance).step s).1 =
      .more (.exchanging e.payload code' chance) := by
  obtain ⟨s', ht⟩ := takeOnce_live ho hn hs hf he hx hst
  rw [Callback.step, hp]
  dsimp only
  rw [ht]

theorem ConfirmLink.step_live (hs : s.storage.Sound PendingLink) {token : String}
    {random : List UInt8} {h : Handle} {e : Entry PendingLink}
    (hh : Handle.parse token linkBytes = some h)
    (hf : s.failure .pendingLink .take = none) (he : s.storage.view PendingLink h = some e)
    (hx : e.isExpired s.now = false) (hst : e.payload.stage = .issued) :
    ((ConfirmLink.start token random).step s).1 = .more (.linking e.payload random) := by
  obtain ⟨s', ht⟩ := takeOnce_live ho hn hs hf he hx hst
  rw [ConfirmLink.step, hh]
  dsimp only
  rw [ht]

end Live

/-- A confirmation that does not fail goes the same way where expired links have been removed. -/
theorem ConfirmLink.step_of_swept {s' : Service} (hs : s.storage.Sound PendingLink)
    (hn : s.now ≤ Text.maxWord) (ha : Service.Access PendingLink s s')
    (hv : Swept s.now (s.storage.view PendingLink) (s'.storage.view PendingLink))
    (hs' : s'.storage.Sound PendingLink) (ho : s'.storage.IsOpen) {c : ConfirmLink}
    {r : Step ConfirmLink (Except LinkError Linked)} (hr : (c.step s).1 = r)
    (hne : ∀ e, r ≠ .done (.error e)) : (c.step s').1 = r := by
  obtain ⟨hrest, -⟩ := ha
  generalize s'.storage = σ at hrest hv hs' ho
  subst hrest
  rw [← hr] at hne ⊢
  cases c with
  | start token random =>
    have hc := (ConfirmLink.start token random).stepped s
    generalize (ConfirmLink.start token random).step s = x at hc hne
    cases hc with
    | failed | untaken => exact absurd rfl (hne _)
    | @taken _ _ h e _ hh ht =>
      obtain ⟨he, hx, hst, -⟩ := Service.take_ok hs hn ht
      have he' : σ.view PendingLink h = some e := by
        obtain hk | ⟨-, hvac⟩ := hv h
        · exact hk.trans he
        · cases (hvac e he).symm.trans hx
      exact step_live (s := { s with storage := σ }) ho hn hs' hh (Service.failure_of_take ht) he'
        hx hst
  | linking l random =>
    have hf : ({ s with storage := σ } : Service).userFailure .link = s.userFailure .link := rfl
    simp only [ConfirmLink.step, Service.linkUser, hf]
    cases (do s.userFailure .link; s.users.link l.userId l.identity) <;> rfl
  | minting uid random =>
    have hm : ({ s with storage := σ } : Service).mint uid random = s.mint uid random := rfl
    simp only [ConfirmLink.step, hm]
    split <;> rfl

end OAuth

namespace World

variable {w v v' : World} {setup : Setup} {r b : Record} {h : Handle}

section Held

variable (hv : v.Reached setup) (hb : b ∈ v.log) (hm : v.service.now ≤ Text.maxSigned)
include hv hb hm

theorem Reached.live_of_stored {P : Type} [Staged P OneShot] [Shelved P] [Staged.Lawful P]
    [Shelved.Lawful P] [Issuing P] [Ticket.Lawful P] {e : Entry P}
    (hd : b.deed? P h = some (.stored (b.before.storage.kept e)))
    (hu : ∀ a ∈ v.log, ∀ time, a.deed? P h ≠ some (.used time))
    (hn : v.service.now ≤ e.expireAt) :
    ∃ e', v.service.storage.view P h = some e' ∧ e'.isExpired v.service.now = false ∧
      e'.payload = e.payload := by
  have hx := Storage.le_expireAt_kept b.before.storage hn hm
  exact ⟨_, hv.ticketed.held_of_stored hb hd hu hx, decide_eq_false (Nat.not_lt.2 hx),
    Storage.payload_kept _ _⟩

variable {expireAt : Nat} (hn : v.service.now ≤ expireAt)
include hn

theorem Reached.live_of_begins {action : Action} {uid : Option Int64}
    (ho : b.Begins h action uid expireAt) (hu : ∀ a ∈ v.log, a.exchanges h = false) :
    ∃ e : Entry State, v.service.storage.view State h = some e ∧
      e.isExpired v.service.now = false ∧ e.payload = ⟨.issued, action, uid⟩ := by
  obtain ⟨x, x', hx, -, -, hs⟩ := hv.of_mem hb
  have hset : b.before.setup = setup := hs.before ▸ hx.sound.setup
  obtain ⟨action', uid', ho', -⟩ := hs.begins hx ho.deed?
  obtain ⟨url, hr⟩ := ho.result
  obtain ⟨url', hr'⟩ := ho'.result
  cases hr.symm.trans hr'
  rw [← hset] at hn
  refine hv.live_of_stored hb hm ho.deed? (fun a ha time hd => ?_) hn
  cases (hu a ha).symm.trans (Record.exchanges_iff_used.2 ⟨time, hd⟩)

theorem Reached.live_of_offers {uid : Int64} {i : Identity} (ho : b.Offers h uid i expireAt)
    (hu : ∀ a ∈ v.log, a.redeems h = false) :
    ∃ e : Entry PendingLink, v.service.storage.view PendingLink h = some e ∧
      e.isExpired v.service.now = false ∧ e.payload = ⟨.issued, uid, i⟩ := by
  obtain ⟨x, x', hx, -, -, hs⟩ := hv.of_mem hb
  have hset : b.before.setup = setup := hs.before ▸ hx.sound.setup
  obtain ⟨uid', i', ho', -⟩ := hs.offers hx ho.deed?
  cases ho.result.symm.trans ho'.result
  rw [← hset] at hn
  refine hv.live_of_stored hb hm ho.deed? (fun a ha time hd => ?_) hn
  cases (hu a ha).symm.trans (Record.redeems_iff_used.2 ⟨time, hd⟩)

end Held

theorem Reached.refused (hw : w.Reached setup) (hs : Stepped w r w') {c : Callback} {e : Error}
    (hc : r.call = .oauthCallback c) (hr : r.result = .done (.oauthCallback (.error e)))
    (he : e.isRefusal = true) : r.call.isStart = true ∧ r.after = r.before := by
  obtain ⟨x, hx, hrx⟩ := hs.oauthCallback hc
  have hrx' := hr.symm.trans (congrArg Prod.fst hrx)
  have hax := congrArg Prod.snd hrx
  cases hx with
  | rejected => exact ⟨hc ▸ rfl, hax⟩
  | untaken =>
    cases hrx'
    cases (Error.isRefusal_ofTake _).symm.trans he
  | @unconfigured st code chance ho =>
    -- the provider is asked only where it is set up, and it stays so
    obtain ⟨v, v', a, hv, -, hsa, -, hra⟩ := hw.cause hs (hc ▸ rfl)
    obtain ⟨_, _, _, _, _, -, hp, -⟩ := hv.exchanging hsa (hra.trans (congrArg _ hc))
    have hset : a.before.setup = r.before.setup :=
      (hsa.before ▸ hv.sound.setup).trans (hs.before ▸ hw.sound.setup).symm
    have hsome := (precheck_ok hp).2
    rw [hset, ho] at hsome
    cases hsome
  | failed hn =>
    cases hrx'
    cases hn.symm.trans he
  | unstored =>
    cases hrx'
    cases he
  | taken | linking | searching | linked | found | unknown | stalled | minted | matched
  | stored => cases hrx'

theorem Stepped.blank (hs : Stepped w r w') {state code : String} {denied : Option String}
    {chance : Chance} (hc : r.call = .oauthCallback (.start state code denied chance))
    (hb : Text.nonBlank code = none) :
    (∃ e, r.result = .done (.oauthCallback (.error e))) ∧ r.after = r.before := by
  obtain ⟨x, hx, hrx⟩ := hs.oauthCallback hc
  obtain ⟨e, he⟩ := precheck_blank r.before state denied hb
  cases hx with
  | rejected | failed => exact ⟨⟨_, congrArg Prod.fst hrx⟩, congrArg Prod.snd hrx⟩
  | untaken hp => cases he.symm.trans hp
  | taken hp => cases he.symm.trans hp

theorem Reached.exchanged (hw : w.Reached setup) (hs : Stepped w r w')
    (he : r.exchanges h = true) : ∃ b ∈ w.log, ∃ action uid,
    b.Begins h action uid (Text.addTime b.before.now setup.oauthTtl) ∧
      r.before.now ≤ Text.addTime b.before.now setup.oauthTtl := by
  obtain ⟨state, code, denied, chance, st, code', chance', hc, hr, hh⟩ := Record.exchanges_iff.1 he
  obtain ⟨_, _, _, k, e, hc', hp, ht, -⟩ := hw.exchanging hs hr
  cases hc.symm.trans hc'
  cases (precheck_ok hp).1.symm.trans hh
  obtain ⟨b, hb, hbegins, hle⟩ := hw.begun_of_takes hs ht
  exact ⟨b, hb, _, _, hbegins, hle⟩

theorem Reached.redeemed (hw : w.Reached setup) (hs : Stepped w r w')
    (he : r.redeems h = true) : ∃ b ∈ w.log, ∃ uid i,
    b.Offers h uid i (Text.addTime b.before.now setup.oauthTtl) ∧
      r.before.now ≤ Text.addTime b.before.now setup.oauthTtl := by
  obtain ⟨token, random, l, random', hc, hr, hh⟩ := Record.redeems_iff.1 he
  obtain ⟨_, k, e, hc', hk, ht, -⟩ := hw.redeeming hs hr
  cases hc.symm.trans hc'
  cases hk.symm.trans hh
  obtain ⟨b, hb, hoffers, hle⟩ := hw.offered_of_takes hs ht
  exact ⟨b, hb, _, _, hoffers, hle⟩

section Lasts

variable (hv : v.Reached setup) (hs : Stepped v r v') (hb : b ∈ v.log) {expireAt : Nat}
  (hn : r.before.now ≤ min expireAt Text.maxSigned)
include hv hs hb hn

theorem Reached.state_lasts {action : Action} {uid : Option Int64}
    (ho : b.Begins h action uid expireAt) (hu : ∀ a ∈ v.log, a.exchanges h = false)
    {state code code' : String} {denied : Option String} {chance : Chance}
    (hc : r.call = .oauthCallback (.start state code denied chance))
    (hp : precheck state code denied r.before = .ok (h, code'))
    (hf : r.before.failure .oauthState .take = none) :
    r.result = .more (.oauthCallback (.exchanging ⟨.issued, action, uid⟩ code' chance)) := by
  obtain ⟨hn, hm⟩ := Nat.le_min.1 hn
  rw [hs.before] at hn hm hp hf
  obtain ⟨e, he, hx, hpay⟩ := hv.live_of_begins hb hm hn ho hu
  obtain ⟨elapsed, ht⟩ := hs.taken
  rw [hc] at ht
  rw [← hpay]
  refine (congrArg Prod.fst ht).trans (Step.lift_eq_more _ _ ?_)
  exact Callback.step_live hv.isOpen hv.sound.service.now_le hv.ticketed.sound hp hf he hx
    (hpay ▸ rfl)

theorem Reached.link_lasts {uid : Int64} {i : Identity} (ho : b.Offers h uid i expireAt)
    (hu : ∀ a ∈ v.log, a.redeems h = false) {token : String} {random : List UInt8}
    (hc : r.call = .confirmLink (.start token random)) (hh : Handle.parse token linkBytes = some h)
    (hf : r.before.failure .pendingLink .take = none) :
    r.result = .more (.confirmLink (.linking ⟨.issued, uid, i⟩ random)) := by
  obtain ⟨hn, hm⟩ := Nat.le_min.1 hn
  rw [hs.before] at hn hm hf
  obtain ⟨e, he, hx, hpay⟩ := hv.live_of_offers hb hm hn ho hu
  obtain ⟨elapsed, ht⟩ := hs.taken
  rw [hc] at ht
  rw [← hpay]
  refine (congrArg Prod.fst ht).trans (Step.lift_eq_more _ _ ?_)
  exact ConfirmLink.step_live hv.isOpen hv.sound.service.now_le hv.ticketed.sound hh hf he hx
    (hpay ▸ rfl)

end Lasts

theorem Reached.peek_harmless (hv : v.Reached setup) (hv' : v'.Reached setup)
    (hs : Stepped v r v') {p : Peek} (hc : r.call = .peek p) {c : ConfirmLink}
    {x : Step ConfirmLink (Except LinkError Linked)} (hx : (c.step r.before).1 = x)
    (hne : ∀ e, x ≠ .done (.error e)) : (c.step r.after).1 = x := by
  obtain ⟨elapsed, ht⟩ := hs.taken
  rw [hc] at ht
  have ha : r.after = (p.step v.service).2 := (congrArg Prod.snd ht).trans (Step.lift_service ..)
  have hacc := p.access v.service
  have hswept := p.swept hv.ticketed.sound
  rw [← ha, ← hs.after] at hacc hswept
  rw [hs.before] at hx
  rw [← hs.after]
  exact c.step_of_swept hv.ticketed.sound hv.sound.service.now_le hacc hswept
    hv'.ticketed.sound hv'.isOpen hx hne

end World

/-- What the log shows of the states and of the link tokens. -/
structure OAuth.SingleUse (setup : Setup) (log : List Record) : Prop where
  state_once (h : Handle) : log.countP (·.exchanges h) ≤ 1
  state_in_time {l₁ l₂ : List Record} {r : Record} {h : Handle} : log = l₁ ++ r :: l₂ →
    r.exchanges h = true → ∃ b ∈ l₁, ∃ action uid,
      b.Begins h action uid (Text.addTime b.before.now setup.oauthTtl) ∧
      r.before.now ≤ Text.addTime b.before.now setup.oauthTtl
  /-- Nothing but its use and its time ends a state. -/
  state_lasts {l₁ l₂ : List Record} {b r : Record} {h : Handle} {action : Action}
    {uid : Option Int64} {expireAt : Nat} {state code code' : String} {denied : Option String}
    {chance : Chance} : log = l₁ ++ r :: l₂ → b ∈ l₁ → b.Begins h action uid expireAt →
    (∀ a ∈ l₁, a.exchanges h = false) → r.before.now ≤ min expireAt Text.maxSigned →
    r.call = .oauthCallback (.start state code denied chance) →
    precheck state code denied r.before = .ok (h, code') →
    r.before.failure .oauthState .take = none →
    r.result = .more (.oauthCallback (.exchanging ⟨.issued, action, uid⟩ code' chance))
  link_once (h : Handle) : log.countP (·.redeems h) ≤ 1
  link_in_time {l₁ l₂ : List Record} {r : Record} {h : Handle} : log = l₁ ++ r :: l₂ →
    r.redeems h = true → ∃ b ∈ l₁, ∃ uid i,
      b.Offers h uid i (Text.addTime b.before.now setup.oauthTtl) ∧
      r.before.now ≤ Text.addTime b.before.now setup.oauthTtl
  link_lasts {l₁ l₂ : List Record} {b r : Record} {h : Handle} {uid : Int64} {i : Identity}
    {expireAt : Nat} {token : String} {random : List UInt8} : log = l₁ ++ r :: l₂ → b ∈ l₁ →
    b.Offers h uid i expireAt → (∀ a ∈ l₁, a.redeems h = false) →
    r.before.now ≤ min expireAt Text.maxSigned → r.call = .confirmLink (.start token random) →
    Handle.parse token linkBytes = some h → r.before.failure .pendingLink .take = none →
    r.result = .more (.confirmLink (.linking ⟨.issued, uid, i⟩ random))
  /-- A confirmation that does not fail before somebody looks at a link does not fail after it. -/
  peek_harmless {r : Record} {p : Peek} {c : ConfirmLink}
    {x : Step ConfirmLink (Except LinkError Linked)} : r ∈ log → r.call = .peek p →
    (c.step r.before).1 = x → (∀ e, x ≠ .done (.error e)) → (c.step r.after).1 = x
  /-- A callback that is refused has taken no step before, and takes no state. -/
  refused_kept {r : Record} {c : Callback} {e : Error} : r ∈ log → r.call = .oauthCallback c →
    r.result = .done (.oauthCallback (.error e)) → e.isRefusal = true →
    r.call.isStart = true ∧ r.after = r.before
  blank_kept {r : Record} {state code : String} {denied : Option String} {chance : Chance} :
    r ∈ log → r.call = .oauthCallback (.start state code denied chance) →
    Text.nonBlank code = none →
    (∃ e, r.result = .done (.oauthCallback (.error e))) ∧ r.after = r.before

namespace World

/-- Whatever is called, in whatever order the steps are taken and however a token is spelt: a state
and a link token are used once at most and in time, and until then nothing takes them away. -/
theorem run_singleUse (setup : Setup) (backend : Backend) (limit : Nat) (users : Users)
    (now : UInt64) (es : List Event) :
    OAuth.SingleUse setup ((start setup backend limit users now).run es).log := by
  have hw := Reached.run setup backend limit users now es
  generalize (start setup backend limit users now).run es = w at hw
  constructor
  case state_once =>
    intro h
    exact hw.ticketed.countP_le fun r hr => Record.exchanges_iff_used.1 hr
  case state_in_time =>
    intro l₁ l₂ r h hl he
    obtain ⟨v, v', hv, -, rfl, hs⟩ := hw.split hl
    exact hv.exchanged hs he
  case state_lasts =>
    intro l₁ l₂ b r h action uid expireAt state code code' denied chance hl hb ho hu hn hc hp hf
    obtain ⟨v, v', hv, -, rfl, hs⟩ := hw.split hl
    exact hv.state_lasts hs hb hn ho hu hc hp hf
  case link_once =>
    intro h
    exact hw.ticketed.countP_le fun r hr => Record.redeems_iff_used.1 hr
  case link_in_time =>
    intro l₁ l₂ r h hl he
    obtain ⟨v, v', hv, -, rfl, hs⟩ := hw.split hl
    exact hv.redeemed hs he
  case link_lasts =>
    intro l₁ l₂ b r h uid i expireAt token random hl hb ho hu hn hc hh hf
    obtain ⟨v, v', hv, -, rfl, hs⟩ := hw.split hl
    exact hv.link_lasts hs hb hn ho hu hc hh hf
  case peek_harmless =>
    intro r p c x hr hc hx hne
    obtain ⟨v, v', hv, hv', -, hs⟩ := hw.of_mem hr
    exact hv.peek_harmless hv' hs hc hx hne
  case refused_kept =>
    intro r c e hr hc hres he
    obtain ⟨v, v', hv, -, -, hs⟩ := hw.of_mem hr
    exact hv.refused hs hc hres he
  case blank_kept =>
    intro r state code denied chance hr hc hb
    obtain ⟨v, v', -, -, -, hs⟩ := hw.of_mem hr
    exact hs.blank hc hb

section Example

open OAuth.Visit

/-- The state comes back twice, in capitals and with a blank before it; then it is used up. -/
def replaying : List Event :=
  leaving ++ [returning " 0123456789ABCDEF0123456789ABCDEF" ⟨"a"⟩, .step 1 0, .pass 600000,
    returning "0123456789abcdef0123456789abcdef" ⟨"b"⟩]

theorem run_singleUse_replayed :
    let log := ((start Visit.setup .memory 1 Visit.users 0).run replaying).log
    log.map (·.exchanges handle) = [false, false, true, false, false] ∧
      log.countP (·.exchanges handle) ≤ 1 := by
  have hs := run_singleUse Visit.setup .memory 1 Visit.users 0 replaying
  exact ⟨by decide +kernel, hs.state_once handle⟩

end Example

end World

end Handoff
