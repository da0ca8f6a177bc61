import Handoff.Proofs.OAuth.Issued

namespace Handoff

open View Ticket OAuth

namespace Service

variable {s s' : Service}

structure Authentic (s : Service) (session : Option String) (uid : Int64) : Prop where
  verified : ∃ token claims, session.bind Text.nonBlank = some token ∧
    s.verify token = .ok claims ∧ claims.uid = uid
  positive : 0 < uid
  known : ∃ u, s.users.findById uid = some u

theorem Authentic.unique {session : Option String} {uid' : Int64} (h : s.Authentic session uid)
    (h' : s.Authentic session uid') : uid = uid' := by
  obtain ⟨token, claims, ht, hv, rfl⟩ := h.verified
  obtain ⟨token', claims', ht', hv', rfl⟩ := h'.verified
  cases ht.symm.trans ht'
  cases hv.symm.trans hv'
  rfl

theorem findById_ok {id : Int64} {o : Option User} (h : s.findById id = .ok o) :
    s.users.findById id = o := by
  unfold findById at h
  cases hf : s.userFailure .byId with
  | error =>
    rw [hf] at h
    cases h
  | ok =>
    rw [hf] at h
    cases h
    rfl

theorem findByProvider_ok {provider : String} {o : Option User}
    (h : s.findByProvider provider = .ok o) : s.users.findByProvider provider = o := by
  unfold findByProvider at h
  cases hf : s.userFailure .byProvider with
  | error =>
    rw [hf] at h
    cases h
  | ok =>
    rw [hf] at h
    cases h
    rfl

theorem authenticate_ok {session : Option String} {uid : Int64}
    (h : s.authenticate session = .ok uid) : s.Authentic session uid := by
  unfold authenticate at h
  split at h
  · cases h
  · next token hs =>
    split at h
    · cases h
    · next claims hv =>
      split at h
      · cases h
      · next hp =>
        split at h
        · cases h
        · cases h
        · next u hf =>
          cases h
          exact ⟨⟨token, claims, hs, hv, rfl⟩, Int64.not_le.1 hp, u, findById_ok hf⟩

def made (uid : Int64) (random : List UInt8) (s : Service) : Option (Int64 × String) :=
  match s.mint uid random with
  | some (.ok session) => some (uid, session)
  | _ => none

theorem made_eq_some {k uid : Int64} {random : List UInt8} {session : String} :
    s.made k random = some (uid, session) ↔ k = uid ∧ s.mint k random = some (.ok session) := by
  unfold made
  split
  · next hm => simp [hm]
  · next hm => simpa using fun _ => hm session

theorem issue_of_mint {uid : Int64} {random : List UInt8} {session : String}
    (h : s.mint uid random = some (.ok session)) :
    session = s.setup.issuer.issue s.now uid random := by
  unfold mint at h
  split at h
  · cases h
  · cases h
  · exact (Except.ok.inj (Option.some.inj h)).symm

end Service

namespace Qr

variable {s s' : Service} {c : Confirm}

theorem Confirm.of_publishing {k : Handle} {session : String} {answer : Except Error Unit}
    (h : c.step s = (.more (.publishing k (.confirmed session) answer), s')) :
    ∃ uid random, c = .minting uid k random ∧ s.made uid random = some (uid, session) := by
  have hc := c.stepped s
  rw [h] at hc
  cases hc with
  | minted hm => exact ⟨_, _, rfl, Service.made_eq_some.2 ⟨rfl, hm⟩⟩

end Qr

theorem Call.users_step (elapsed : Nat) (c : Call) (s : Service) :
    (c.step elapsed s).2.users = s.users ∨
    (∃ uid i, c = .oauthCallback (.linking uid i) ∧
      s.users.link uid i = .ok (c.step elapsed s).2.users) ∨
    ∃ l random, c = .confirmLink (.linking l random) ∧
      s.users.link l.userId l.identity = .ok (c.step elapsed s).2.users := by
  cases c with
  | issue | status | scan | confirm | cancel | wait | follow =>
    exact .inl (Call.within rfl elapsed s).users
  | oauthBegin c => exact .inl (Step.lift_service _ _ (c.step s) ▸ (c.access s).users)
  | oauthCallback c =>
    rw [Call.step, Step.lift_service]
    have hc := c.stepped s
    generalize c.step s = x at hc
    cases hc with
    | taken _ ht => exact .inl (Service.access_take ht).users
    | untaken _ ht => exact .inl (Service.access_take ht).users
    | stored hr => exact .inl (Service.access_put hr).users
    | unstored hr => exact .inl (Service.access_put hr).users
    | linked hl => exact .inr (.inl ⟨_, _, rfl, (linkUser_ok hl).1⟩)
    | rejected | unconfigured | failed | linking | searching | found | unknown | stalled | minted
    | matched => exact .inl rfl
  | peek c => exact .inl (Step.lift_service _ _ (c.step s) ▸ (c.access s).users)
  | confirmLink c =>
    rw [Call.step, Step.lift_service]
    have hc := c.stepped s
    generalize c.step s = x at hc
    cases hc with
    | taken _ ht => exact .inl (Service.access_take ht).users
    | untaken _ ht => exact .inl (Service.access_take ht).users
    | linked hl => exact .inr (.inr ⟨_, _, rfl, (linkUser_ok hl).1⟩)
    | failed | stalled | minted => exact .inl rfl

def Record.minted? (r : Record) : Option (Int64 × String) :=
  match r.call with
  | .confirm (.minting uid _ random) => r.before.made uid random
  | .oauthCallback (.minting uid random) => r.before.made uid random
  | .confirmLink (.minting uid random) => r.before.made uid random
  | _ => none

/-- What a session may be made for. -/
inductive Ground
  | phone
  | login
  | link
  deriving DecidableEq

/-- The call may make a session for the user, as its own steps show. -/
inductive Justified (setup : Setup) (log : List Record) (id : Nat) (uid : Int64) : Ground → Prop
  /-- The phone was signed in as the user, and it took a scanned sign-in. -/
  | phone {a t : Record} {token : String} {session : Option String} {random : List UInt8}
    {h : Handle} {e : Entry Qr.Session} :
    a ∈ steps id log → a.call = .confirm (.start token session random) →
    a.before.Authentic session uid →
    t ∈ steps id log → t.call = .confirm (.taking uid token random) →
    Qr.resolve token t.before = .ok h → t.Takes h e → e.payload.status = .scanned →
    Justified setup log id uid .phone
  /-- The callback took a state for a login, and the identity it got was the user's. -/
  | login {a b x f : Record} {state code code' : String} {denied : Option String}
    {chance : Chance} {h : Handle} {e : Entry State} {expireAt : Nat} {o : OAuthSettings}
    {provider : Provider} {i : Identity} {u : User} :
    a ∈ steps id log → a.call = .oauthCallback (.start state code denied chance) →
    Handle.parse state stateBytes = some h → a.Takes h e →
    b ∈ log → b.Begins h .login e.payload.userId expireAt → a.before.now ≤ expireAt →
    x ∈ steps id log → x.call = .oauthCallback (.exchanging e.payload code' chance) →
    setup.oauth = some (o, provider) → provider code' = .ok i →
    f ∈ steps id log → f.call = .oauthCallback (.searching i chance) →
    f.before.users.findByProvider i.providerId = some u → u.id = uid →
    Justified setup log id uid .login
  /-- The confirmation took a link to the user, and linked him. -/
  | link {a b k : Record} {token : String} {random : List UInt8} {h : Handle}
    {e : Entry PendingLink} {expireAt : Nat} :
    a ∈ steps id log → a.call = .confirmLink (.start token random) →
    Handle.parse token linkBytes = some h → a.Takes h e → e.payload.userId = uid →
    b ∈ log → b.Offers h uid e.payload.identity expireAt → a.before.now ≤ expireAt →
    k ∈ steps id log → k.call = .confirmLink (.linking e.payload random) →
    k.before.users.link uid e.payload.identity = .ok k.after.users →
    Justified setup log id uid .link

def Call.ground? : Call → Option Ground
  | confirm _ => some .phone
  | oauthCallback _ => some .login
  | confirmLink _ => some .link
  | _ => none

theorem Justified.began {setup : Setup} {log : List Record} {id : Nat} {uid : Int64} {g : Ground}
    (hj : Justified setup log id uid g) :
    ∃ a ∈ steps id log, a.call.isStart = true ∧ a.call.ground? = some g := by
  cases hj with
  | phone ha hc | login ha hc | link ha hc => exact ⟨_, ha, hc ▸ rfl, hc ▸ rfl⟩

def Record.Carries (h : Handle) (r : Record) : Prop :=
  ∃ state code denied chance, r.call = .oauthCallback (.start state code denied chance) ∧
    Handle.parse state stateBytes = some h

namespace World

variable {w w' : World} {setup : Setup} {r : Record} {uid : Int64}

section Causes

variable (hw : w.Reached setup) (hs : Stepped w r w')
include hw hs

theorem Reached.phone {k : Handle} {random : List UInt8}
    (hc : r.call = .confirm (.minting uid k random)) :
    Justified setup w.log r.id uid .phone := by
  obtain ⟨v, v', t, hv, hl, hst, ht, hrt⟩ := hw.cause hs (hc ▸ rfl)
  obtain ⟨c, hct, hx⟩ := hst.confirm_more (hrt.trans (congrArg _ hc))
  obtain ⟨token, e, rfl, hres, htake⟩ := Qr.Confirm.of_minting hx
  obtain ⟨_, _, a, _, _, hsa, ha, hra⟩ := hv.cause hst (hct ▸ rfl)
  obtain ⟨c, hca, hx⟩ := hsa.confirm_more (hra.trans (congrArg _ hct))
  obtain ⟨session, rfl, hauth⟩ := Qr.Confirm.of_taking hx
  have hsound : t.before.Sound := hst.before ▸ hv.sound.service
  obtain ⟨he, hx, hstage, hview⟩ := Service.take_ok hsound.storage hsound.now_le htake
  refine .phone (mem_steps_of_subset hl ht ha) hca (Service.authenticate_ok hauth) ht hct hres
    ⟨he, hx, ?_⟩ hstage
  rw [hview, Function.update_self]
  rfl

theorem Reached.took_state {st : State} {code : String} {chance : Chance}
    (hc : r.call = .oauthCallback (.exchanging st code chance)) :
    ∃ a ∈ steps r.id w.log, ∃ state code' denied h e,
      a.call = .oauthCallback (.start state code' denied chance) ∧
      Handle.parse state stateBytes = some h ∧ a.Takes h e ∧ e.payload = st ∧ ∃ b ∈ w.log,
      b.Begins h st.action st.userId (Text.addTime b.before.now setup.oauthTtl) ∧
      a.before.now ≤ Text.addTime b.before.now setup.oauthTtl := by
  obtain ⟨v, v', a, hv, hl, hsa, ha, hra⟩ := hw.cause hs (hc ▸ rfl)
  obtain ⟨state, code', denied, h, e, hca, hp, ht, rfl⟩ :=
    hv.exchanging hsa (hra.trans (congrArg _ hc))
  obtain ⟨b, hb, hbegins, hle⟩ := hv.begun_of_takes hsa ht
  exact ⟨a, ha, state, code', denied, h, e, hca, (precheck_ok hp).1, ht, rfl, b, hl hb, hbegins,
    hle⟩

theorem Reached.login {random : List UInt8}
    (hc : r.call = .oauthCallback (.minting uid random)) :
    Justified setup w.log r.id uid .login := by
  obtain ⟨v, v', f, hv, hl, hsf, hf, hrf⟩ := hw.cause hs (hc ▸ rfl)
  obtain ⟨c, hcf, hx⟩ := hsf.oauthCallback_more (hrf.trans (congrArg _ hc))
  generalize f.after = s' at hx
  cases hx with
  | found hfind =>
    obtain ⟨x, x', d, hx, hlx, hsd, hd, hrd⟩ := hv.cause hsf (hcf ▸ rfl)
    obtain ⟨c, hcd, hstep⟩ := hsd.oauthCallback_more (hrd.trans (congrArg _ hcf))
    generalize d.after = s' at hstep
    cases hstep with
    | searching ho hi hact =>
      have hset : d.before.setup = setup := hsd.before ▸ hx.sound.setup
      obtain ⟨a, ha, state, code, denied, h, e, hca, hh, ht, rfl, b, hb, hbegins, hle⟩ :=
        hx.took_state hsd hcd
      have hd' := mem_steps_of_subset hl hf hd
      rw [hact] at hbegins
      rw [hset] at ho
      exact .login (mem_steps_of_subset (fun _ hm => hl (hlx hm)) hd' ha) hca hh ht (hl (hlx hb))
        hbegins hle hd' hcd ho hi hf hcf (Service.findByProvider_ok hfind) rfl

theorem Reached.link {random : List UInt8}
    (hc : r.call = .confirmLink (.minting uid random)) :
    Justified setup w.log r.id uid .link := by
  obtain ⟨v, v', k, hv, hl, hsk, hk, hrk⟩ := hw.cause hs (hc ▸ rfl)
  obtain ⟨c, hck, hx⟩ := hsk.confirmLink_more (hrk.trans (congrArg _ hc))
  cases hx with
  | linked hlink =>
    obtain ⟨x, x', a, hx, hlx, hsa, ha, hra⟩ := hv.cause hsk (hck ▸ rfl)
    obtain ⟨token, h, e, hca, hh, ht, rfl⟩ := hx.redeeming hsa (hra.trans (congrArg _ hck))
    obtain ⟨b, hb, hoffers, hle⟩ := hx.offered_of_takes hsa ht
    exact .link (mem_steps_of_subset hl hk ha) hca hh ht rfl (hl (hlx hb)) hoffers hle hk hck
      (linkUser_ok hlink).1

theorem Reached.linking {i : Identity} (hc : r.call = .oauthCallback (.linking uid i)) :
    ∃ a ∈ steps r.id w.log, ∃ h, a.Carries h ∧ ∃ b ∈ w.log, ∃ expireAt,
      b.Begins h .link (some uid) expireAt := by
  obtain ⟨v, v', x, hv, hl, hsx, hx, hrx⟩ := hw.cause hs (hc ▸ rfl)
  obtain ⟨c, hcx, hstep⟩ := hsx.oauthCallback_more (hrx.trans (congrArg _ hc))
  generalize x.after = s' at hstep
  cases hstep with
  | linking _ _ hact huid =>
    obtain ⟨a, ha, state, code, denied, h, e, hca, hh, -, -, b, hb, hbegins, -⟩ :=
      hv.took_state hsx hcx
    rw [hact, huid] at hbegins
    exact ⟨a, mem_steps_of_subset hl hx ha, h, ⟨_, _, _, _, hca, hh⟩, b, hl hb, _, hbegins⟩

theorem Reached.of_minted {session : String} (hm : r.minted? = some (uid, session)) :
    ∃ g, Justified setup w.log r.id uid g := by
  unfold Record.minted? at hm
  split at hm
  · next hc =>
    obtain ⟨rfl, -⟩ := Service.made_eq_some.1 hm
    exact ⟨_, hw.phone hs hc⟩
  · next hc =>
    obtain ⟨rfl, -⟩ := Service.made_eq_some.1 hm
    exact ⟨_, hw.login hs hc⟩
  · next hc =>
    obtain ⟨rfl, -⟩ := Service.made_eq_some.1 hm
    exact ⟨_, hw.link hs hc⟩
  · cases hm

end Causes

theorem Reached.ground_unique (hw : w.Reached setup) {id : Nat} {g g' : Ground} {uid' : Int64}
    (hj : Justified setup w.log id uid g) (hj' : Justified setup w.log id uid' g') : g = g' := by
  obtain ⟨a, ha, hsa, hga⟩ := hj.began
  obtain ⟨a', ha', hsa', hga'⟩ := hj'.began
  obtain ⟨ha, hid⟩ := mem_steps.1 ha
  obtain ⟨ha', hid'⟩ := mem_steps.1 ha'
  cases hw.traced.eq_of_isStart ha ha' hsa hsa' (hid.trans hid'.symm)
  cases hga.symm.trans hga'
  rfl

section Callback

variable (hw : w.Reached setup) {a b : Record} {h : Handle} {action : Action}
  {owner : Option Int64} {expireAt : Nat} (hb : b ∈ w.log)
  (hbegins : b.Begins h action owner expireAt) (ha : a ∈ w.log) (hca : a.Carries h)
include hw hb hbegins ha hca

theorem Reached.begun_of_carries {a' b' : Record} {k : Handle} {action' : Action}
    {owner' : Option Int64} {expireAt' : Nat} (ha' : a' ∈ steps a.id w.log) (hca' : a'.Carries k)
    (hb' : b' ∈ w.log) (hbegins' : b'.Begins k action' owner' expireAt') :
    action = action' ∧ owner = owner' := by
  obtain ⟨ha', hid⟩ := mem_steps.1 ha'
  obtain ⟨state, _, _, _, hc, hh⟩ := hca
  obtain ⟨state', _, _, _, hc', hh'⟩ := hca'
  cases hw.traced.eq_of_isStart ha ha' (hc ▸ rfl) (hc' ▸ rfl) hid.symm
  cases hc.symm.trans hc'
  cases hh.symm.trans hh'
  exact hw.begins_unique hb hb' hbegins hbegins'

theorem Reached.users_of_carries (hr : r ∈ steps a.id w.log) :
    r.after.users = r.before.users ∨
    action = .link ∧ ∃ u i, owner = some u ∧ r.before.users.link u i = .ok r.after.users := by
  obtain ⟨v, v', hv, -, hl, hs⟩ := hw.of_mem (mem_steps.1 hr).1
  obtain ⟨elapsed, ht⟩ := hs.taken
  rw [← hs.before] at ht
  have hafter : (r.call.step elapsed r.before).2 = r.after := (congrArg Prod.snd ht).symm
  have hu := r.call.users_step elapsed r.before
  rw [hafter] at hu
  obtain hu | ⟨u, i, hc, hlink⟩ | ⟨l, random, hc, -⟩ := hu
  · exact .inl hu
  · obtain ⟨a', ha', k, hca', b', hb', _, hbegins'⟩ := hv.linking hs hc
    obtain ⟨rfl, rfl⟩ :=
      hw.begun_of_carries hb hbegins ha hca (mem_steps_of_subset hl hr ha') hca' (hl hb') hbegins'
    exact .inr ⟨rfl, u, i, rfl, hlink⟩
  · -- a call that began as a callback confirms no link
    obtain ⟨x, x', k, hx, -, hsk, hk, hrk⟩ := hv.cause hs (hc ▸ rfl)
    obtain ⟨token, _, _, hck, -⟩ := hx.redeeming hsk (hrk.trans (congrArg _ hc))
    obtain ⟨hk, hkid⟩ := mem_steps.1 (mem_steps_of_subset hl hr hk)
    obtain ⟨state, _, _, _, hc', -⟩ := hca
    cases hw.traced.eq_of_isStart ha hk (hc' ▸ rfl) (hck ▸ rfl) hkid.symm
    cases hc'.symm.trans hck

theorem Reached.action_of_minted (hr : r ∈ steps a.id w.log) {session : String}
    (hm : r.minted? = some (uid, session)) : action = .login := by
  obtain ⟨v, v', hv, -, hl, hs⟩ := hw.of_mem (mem_steps.1 hr).1
  obtain ⟨g, hj⟩ := hv.of_minted hs hm
  obtain ⟨x, hx, hsx, hg⟩ := hj.began
  obtain ⟨hx, hxid⟩ := mem_steps.1 (mem_steps_of_subset hl hr hx)
  obtain ⟨state, _, _, _, hc, hh⟩ := id hca
  cases hw.traced.eq_of_isStart ha hx (hc ▸ rfl) hsx hxid.symm
  rw [hc] at hg
  cases hg
  cases hj with
  | login ha' hc' hh' ht hb' hbegins' =>
    exact (hw.begun_of_carries hb hbegins ha hca (mem_steps_of_subset hl hr ha')
      ⟨_, _, _, _, hc', hh'⟩ (hl hb') hbegins').1

end Callback

theorem Reached.link_begun (hw : w.Reached setup) {b : Record} {h : Handle} {owner : Option Int64}
    {expireAt : Nat} (hb : b ∈ w.log) (hbegins : b.Begins h .link owner expireAt) :
    ∃ u, owner = some u ∧ ∃ a ∈ steps b.id w.log, ∃ session,
      a.call = .oauthBegin (.start .link session h) ∧ a.before.Authentic session u := by
  obtain ⟨v, v', hv, -, hl, hs⟩ := hw.of_mem hb
  obtain ⟨_, _, a, -, -, hsa, ha, hra⟩ := hv.cause hs (hbegins.call ▸ rfl)
  obtain ⟨c, hca, hx⟩ := hsa.oauthBegin_more (hra.trans (congrArg _ hbegins.call))
  generalize a.after = s' at hx
  cases hx with
  | link hauth =>
    obtain ⟨ha, hid⟩ := mem_steps.1 ha
    exact ⟨_, rfl, a, mem_steps.2 ⟨hl ha, hid⟩, _, hca, Service.authenticate_ok hauth⟩

end World

structure Warranted (setup : Setup) (log : List Record) : Prop where
  justified {l₁ l₂ : List Record} {r : Record} {uid : Int64} {session : String} :
    log = l₁ ++ r :: l₂ → r.minted? = some (uid, session) →
    ∃! g, Justified setup l₁ r.id uid g
  login_keeps {a b r : Record} {h : Handle} {owner : Option Int64} {expireAt : Nat} :
    b ∈ log → b.Begins h .login owner expireAt → a ∈ log → a.Carries h → r ∈ steps a.id log →
    r.after.users = r.before.users
  link_mints_nothing {a b r : Record} {h : Handle} {owner : Option Int64} {expireAt : Nat} :
    b ∈ log → b.Begins h .link owner expireAt → a ∈ log → a.Carries h → r ∈ steps a.id log →
    r.minted? = none
  link_links {a b r : Record} {h : Handle} {owner : Option Int64} {expireAt : Nat} :
    b ∈ log → b.Begins h .link owner expireAt → a ∈ log → a.Carries h → r ∈ steps a.id log →
    r.after.users = r.before.users ∨
    ∃ u i, owner = some u ∧ r.before.users.link u i = .ok r.after.users
  link_begun {b : Record} {h : Handle} {owner : Option Int64} {expireAt : Nat} : b ∈ log →
    b.Begins h .link owner expireAt → ∃ u, owner = some u ∧ ∃ a ∈ steps b.id log, ∃ session,
      a.call = .oauthBegin (.start .link session h) ∧ a.before.Authentic session u

namespace World

/-- Whatever is called and in whatever order the steps are taken: no session is made without a
ground, and nobody is linked by a callback but who asked for it. -/
theorem run_warranted (setup : Setup) (backend : Backend) (limit : Nat) (users : Users)
    (now : UInt64) (es : List Event) :
    Warranted setup ((start setup backend limit users now).run es).log := by
  have hw := Reached.run setup backend limit users now es
  generalize (start setup backend limit users now).run es = w at hw
  constructor
  case justified =>
    intro l₁ l₂ r uid session hl hm
    obtain ⟨v, v', hv, -, rfl, hs⟩ := hw.split hl
    obtain ⟨g, hj⟩ := hv.of_minted hs hm
    exact ⟨g, hj, fun g' hj' => hv.ground_unique hj' hj⟩
  case login_keeps =>
    intro a b r h owner expireAt hb hbegins ha hca hr
    obtain hu | ⟨hact, -⟩ := hw.users_of_carries hb hbegins ha hca hr
    · exact hu
    · cases hact
  case link_mints_nothing =>
    intro a b r h owner expireAt hb hbegins ha hca hr
    rw [Option.eq_none_iff_forall_ne_some]
    rintro ⟨uid, session⟩ hm
    cases hw.action_of_minted hb hbegins ha hca hr hm
  case link_links =>
    intro a b r h owner expireAt hb hbegins ha hca hr
    obtain hu | ⟨-, hu⟩ := hw.users_of_carries hb hbegins ha hca hr
    · exact .inl hu
    · exact .inr hu
  case link_begun =>
    intro b h owner expireAt hb hbegins
    exact hw.link_begun hb hbegins

section Example

open OAuth.Visit

def visiting : List Event :=
  leaving ++ [returning "0123456789abcdef0123456789abcdef" ⟨"a"⟩, .step 1 0, .step 1 0, .step 1 0]

theorem run_warranted_visit :
    let log := ((start Visit.setup .memory 1 Visit.users 0).run visiting).log
    ∃ l₁ l₂ r session, log = l₁ ++ r :: l₂ ∧ r.minted? = some (7, session) ∧
      ∃! g, Justified Visit.setup l₁ r.id 7 g := by
  intro log
  have hm : (log.findSome? Record.minted?).map Prod.fst = some 7 := by decide +kernel
  obtain ⟨⟨uid, session⟩, hm, ⟨⟩⟩ := Option.map_eq_some_iff.1 hm
  obtain ⟨l₁, r, l₂, hl, hr, -⟩ := List.findSome?_eq_some_iff.1 hm
  exact ⟨l₁, l₂, r, session, hl, hr,
    (run_warranted Visit.setup .memory 1 Visit.users 0 visiting).justified hl hr⟩

end Example

end World

end Handoff
