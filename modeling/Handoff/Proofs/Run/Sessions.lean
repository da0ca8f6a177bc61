import Handoff.Proofs.Run.Minting
import Handoff.Proofs.Session.Token

namespace Handoff

open OAuth

namespace Service

structure Attends (s : Service) (uid : Int64) : Prop where
  verifies : s.faults.verify = none
  finds : s.faults.users .byId = none
  known : ∃ u, s.users.findById uid = some u

variable {s : Service} {uid : Int64}

theorem Attends.findById_ok (ha : s.Attends uid) : ∃ u, s.findById uid = .ok (some u) := by
  obtain ⟨u, hu⟩ := ha.known
  refine ⟨u, ?_⟩
  rw [findById, userFailure, ha.finds, hu]
  rfl

theorem authenticate_issue (ha : s.Attends uid) {t : Nat} (ht : t ≤ Text.maxWord)
    (random : List UInt8) : s.authenticate (some (s.setup.issuer.issue t uid random)) =
      if 0 < uid ∧ s.now / 1000 < Text.addTime (t / 1000) s.setup.issuer.ttl then .ok uid
      else .error (.rejected .invalid) := by
  have hv := s.setup.issuer.verify_issue ht uid random s.now
  obtain ⟨u, hu⟩ := ha.findById_ok
  rw [authenticate, Option.bind_some, Session.Issuer.issue, Session.Issuer.nonBlank_write]
  rw [Session.Issuer.issue] at hv
  simp only [verify, ha.verifies, hv]
  by_cases hx : Text.addTime (t / 1000) s.setup.issuer.ttl ≤ s.now / 1000
  · rw [if_pos hx, if_neg fun h => Nat.not_lt.2 hx h.2]
  · rw [if_neg hx]
    by_cases hp : uid ≤ 0
    · rw [if_neg fun h => Int64.not_lt.2 hp h.1]
      exact if_pos hp
    · rw [if_pos ⟨Int64.not_le.1 hp, Nat.not_le.1 hx⟩]
      simp only [Session.Issuer.claims, if_neg hp, hu]

end Service

theorem Record.issue_of_minted? {r : Record} {uid : Int64} {session : String}
    (h : r.minted? = some (uid, session)) :
    ∃ random, session = r.before.setup.issuer.issue r.before.now uid random := by
  unfold minted? at h
  split at h
  case h_4 => cases h
  all_goals
    obtain ⟨rfl, hm⟩ := Service.made_eq_some.1 h
    exact ⟨_, Service.issue_of_mint hm⟩

/-- How a session is given away, and to whom. -/
inductive Record.Hands (log : List Record) (r : Record) (uid : Int64) (session : String) :
    Ground → Prop
  /-- The desktop is told of it, and the phone that confirms is signed in as the user. -/
  | pushed {a : Record} {h : Handle} {token : String} {random : List UInt8} :
    r.told? = some (h, .confirmed session) → a ∈ steps r.id log →
    a.result = .more (.confirm (.taking uid token random)) → Hands log r uid session .phone
  | loggedIn : r.result = .done (.oauthCallback (.ok (.loggedIn uid session))) →
    Hands log r uid session .login
  | linked : r.result = .done (.confirmLink (.ok ⟨uid, session⟩)) → Hands log r uid session .link

theorem Record.of_told_confirmed {r : Record} {h : Handle} {session : String}
    (ht : r.told? = some (h, .confirmed session)) :
    ∃ answer, r.call = .confirm (.publishing h (.confirmed session) answer) := by
  have hd := Record.told?_eq_some.1 ht
  unfold Record.did Call.did at hd
  split at hd
  case h_7 hc =>
    cases hd
    exact ⟨_, hc⟩
  -- a scan and a cancellation tell something else
  case h_4 | h_9 => cases hd
  case h_10 => exact absurd hd (Call.watch?_did_told _ _ _ _)
  all_goals split at hd <;> cases hd

namespace World

variable {w w' : World} {setup : Setup} {r : Record} {uid : Int64} {session : String} {g : Ground}

section Stepped

variable (hs : Stepped w r w')
include hs

theorem Stepped.minted_of_loggedIn
    (hr : r.result = .done (.oauthCallback (.ok (.loggedIn uid session)))) :
    r.minted? = some (uid, session) := by
  obtain ⟨elapsed, ha⟩ := hs.answered hr
  rw [Record.minted?]
  generalize r.call = c at ha ⊢
  cases ha with
  | @oauthCallback c _ hd =>
    have hx := c.stepped r.before
    generalize c.step r.before = x at hd hx
    cases hx with
    | minted hm =>
      cases hd
      exact Service.made_eq_some.2 ⟨rfl, hm⟩
    | _ => cases hd

theorem Stepped.minted_of_linked
    (hr : r.result = .done (.confirmLink (.ok ⟨uid, session⟩))) :
    r.minted? = some (uid, session) := by
  obtain ⟨elapsed, ha⟩ := hs.answered hr
  rw [Record.minted?]
  generalize r.call = c at ha ⊢
  cases ha with
  | @confirmLink c _ hd =>
    have hx := c.stepped r.before
    generalize c.step r.before = x at hd hx
    cases hx with
    | minted hm =>
      cases hd
      exact Service.made_eq_some.2 ⟨rfl, hm⟩
    | _ => cases hd

end Stepped

section Hands

variable (hw : w.Reached setup)
include hw

theorem Reached.signed_in {a b : Record} {token token' : String} {random random' : List UInt8}
    {session : Option String} {uid' : Int64} (ha : a ∈ steps r.id w.log)
    (hra : a.result = .more (.confirm (.taking uid token random))) (hb : b ∈ steps r.id w.log)
    (hcb : b.call = .confirm (.start token' session random'))
    (hauth : b.before.Authentic session uid') : uid = uid' ∧ 0 < uid := by
  obtain ⟨ha, hida⟩ := mem_steps.1 ha
  obtain ⟨hb, hidb⟩ := mem_steps.1 hb
  obtain ⟨v, v', hv, -, hl, hsa⟩ := hw.of_mem ha
  obtain ⟨c, hca, hx⟩ := hsa.confirm_more hra
  obtain ⟨session', rfl, hok⟩ := Qr.Confirm.of_taking hx
  cases hw.traced.eq_of_isStart ha hb (hca ▸ rfl) (hcb ▸ rfl) (hida.trans hidb.symm)
  cases hca.symm.trans hcb
  have hauth' := Service.authenticate_ok hok
  exact ⟨hauth'.unique hauth, hauth'.positive⟩

theorem Reached.minted_of_hands (hr : r ∈ w.log) (hh : r.Hands w.log uid session g) :
    ∃ m ∈ steps r.id w.log, m.minted? = some (uid, session) ∧ (g = .phone → 0 < uid) := by
  obtain ⟨v, v', hv, -, hl, hs⟩ := hw.of_mem hr
  cases hh with
  | loggedIn hres => exact ⟨r, mem_steps.2 ⟨hr, rfl⟩, hs.minted_of_loggedIn hres, nofun⟩
  | linked hres => exact ⟨r, mem_steps.2 ⟨hr, rfl⟩, hs.minted_of_linked hres, nofun⟩
  | pushed ht ha hra =>
    obtain ⟨answer, hc⟩ := Record.of_told_confirmed ht
    obtain ⟨u, u', m, hu, hlu, hsm, hm, hrm⟩ := hv.cause hs (hc ▸ rfl)
    obtain ⟨c, hcm, hx⟩ := hsm.confirm_more (hrm.trans (congrArg _ hc))
    obtain ⟨k, random, rfl, hmade⟩ := Qr.Confirm.of_publishing hx
    have hm' : m ∈ steps r.id w.log := mem_steps_of_subset hl (mem_steps.2 ⟨hr, rfl⟩) hm
    cases hu.phone hsm hcm with
    | phone hb hcb hauth =>
      have hb' := mem_steps_of_subset (fun _ h => hl (hlu h)) hm' hb
      obtain ⟨rfl, hp⟩ := hw.signed_in ha hra hb' hcb hauth
      refine ⟨m, hm', ?_, fun _ => hp⟩
      rw [Record.minted?, hcm]
      exact hmade

/-- A session lets its user in until it expires, if his number is positive. -/
theorem Reached.authenticate_minted {m : Record} (hm : m ∈ w.log)
    (hmint : m.minted? = some (uid, session)) {s : Service} (hs : s.setup = setup)
    (ha : s.Attends uid) : s.authenticate (some session) =
      if 0 < uid ∧ s.now / 1000 < Text.addTime (m.before.now / 1000) setup.issuer.ttl then .ok uid
      else .error (.rejected .invalid) := by
  obtain ⟨v, v', hv, -, -, hsm⟩ := hw.of_mem hm
  have hset : m.before.setup = s.setup := (hsm.before ▸ hv.sound.setup).trans hs.symm
  have hn : m.before.now ≤ Text.maxWord := hsm.before ▸ hv.sound.service.now_le
  obtain ⟨random, rfl⟩ := Record.issue_of_minted? hmint
  rw [hset, Service.authenticate_issue ha hn, hs]

end Hands

/-- Whatever users there are and whatever is called, in whatever order the steps are taken: a
session that is given away was made by the call that gives it away. From then on until it expires it
lets its user in, as long as he exists and his number is positive, as it is if a desktop is told of
it. With no other number and at no later time does it let anybody in. -/
theorem run_usable (setup : Setup) (backend : Backend) (limit : Nat) (users : Users) (now : UInt64)
    (es : List Event) {r : Record} {uid : Int64} {session : String} {g : Ground}
    (hr : r ∈ ((start setup backend limit users now).run es).log)
    (hh : r.Hands ((start setup backend limit users now).run es).log uid session g) :
    ∃ m ∈ steps r.id ((start setup backend limit users now).run es).log,
      m.minted? = some (uid, session) ∧ (g = .phone → 0 < uid) ∧
      ∀ s : Service, s.setup = setup → s.Attends uid → s.authenticate (some session) =
        if 0 < uid ∧ s.now / 1000 < Text.addTime (m.before.now / 1000) setup.issuer.ttl then
          .ok uid
        else .error (.rejected .invalid) := by
  have hw := Reached.run setup backend limit users now es
  obtain ⟨m, hm, hmint, hp⟩ := hw.minted_of_hands hr hh
  exact ⟨m, hm, hmint, hp, fun s hs ha =>
    hw.authenticate_minted (mem_steps.1 hm).1 hmint hs ha⟩

section Example

open OAuth.Visit

def answered? (r : Record) : Option (Int64 × String) :=
  match r.result with
  | .done (.oauthCallback (.ok (.loggedIn uid session))) => some (uid, session)
  | .done (.confirmLink (.ok ⟨uid, session⟩)) => some (uid, session)
  | _ => none

theorem hands_of_answered? {log : List Record} (h : answered? r = some (uid, session)) :
    ∃ g, r.Hands log uid session g := by
  unfold answered? at h
  split at h
  · next hr =>
    cases h
    exact ⟨_, .loggedIn hr⟩
  · next hr =>
    cases h
    exact ⟨_, .linked hr⟩
  · cases h

theorem exists_hands {log : List Record} (h : (log.findSome? answered?).map Prod.fst = some uid) :
    ∃ r ∈ log, ∃ session g, r.Hands log uid session g := by
  obtain ⟨⟨_, session⟩, hs, ⟨⟩⟩ := Option.map_eq_some_iff.1 h
  obtain ⟨r, hr, hres⟩ := List.exists_of_findSome?_eq_some hs
  exact ⟨r, hr, session, hands_of_answered? hres⟩

/-- The session of a visitor is good in its last second, and not in the next one. -/
theorem run_usable_visit :
    let w := (start Visit.setup .memory 1 Visit.users 0).run visiting
    ∃ r ∈ w.log, ∃ session g, r.Hands w.log 7 session g ∧
      { w.service with now := 3599999 }.authenticate (some session) = .ok 7 ∧
      { w.service with now := 3600000 }.authenticate (some session) =
        .error (.rejected .invalid) := by
  intro w
  have hfound : (w.log.findSome? answered?).map Prod.fst = some 7 := by decide +kernel
  obtain ⟨r, hr, session, g, hh⟩ := exists_hands hfound
  have hall : ∀ m ∈ w.log, m.before.now = 0 := by decide +kernel
  have hknown : (w.service.users.findById 7).isSome = true := by decide +kernel
  have ha (t : Nat) : { w.service with now := t }.Attends 7 :=
    ⟨rfl, rfl, Option.isSome_iff_exists.1 hknown⟩
  obtain ⟨m, hm, -, -, hgood⟩ := run_usable Visit.setup .memory 1 Visit.users 0 visiting hr hh
  have hn := hall m (mem_steps.1 hm).1
  refine ⟨r, hr, session, g, hh, (hgood _ rfl (ha _)).trans ?_, (hgood _ rfl (ha _)).trans ?_⟩
  · rw [hn]
    exact if_pos (by decide)
  · rw [hn]
    exact if_neg (by decide)

/-- The provider sends everybody back as the one user of a list, whose number is zero. -/
def zero : Setup :=
  { Visit.setup with
    oauth := Visit.setup.oauth.map fun (o, _) =>
      (o, fun _ => .ok ⟨"ext-0", "Zero", none, some "zero@x.io"⟩) }

def zeroLink : Handle := ⟨"0123456789abcdef0123456789abcdef0123456789abcdef"⟩

def confirming : List Event :=
  leaving ++ [returning "0123456789abcdef0123456789abcdef" zeroLink, .step 1 0, .step 1 0,
    .step 1 0, .step 1 0, .begin (.confirmLink (.start zeroLink.text [])) 0, .step 2 0, .step 2 0]

def confirmed : World :=
  (start zero .memory 1 (.ofList (Users.parseSeeds "0:zero:zero@x.io")) 0).run confirming

theorem attends_confirmed : confirmed.service.Attends 0 :=
  ⟨rfl, rfl, Option.isSome_iff_exists.1 (by decide +kernel)⟩

theorem locked_out : ∃ r m session g, r ∈ confirmed.log ∧ r.Hands confirmed.log 0 session g ∧
    m ∈ steps r.id confirmed.log ∧ m.minted? = some (0, session) ∧
    confirmed.service.now / 1000 < Text.addTime (m.before.now / 1000) zero.issuer.ttl ∧
    confirmed.service.authenticate (some session) = .error (.rejected .invalid) := by
  have hw : confirmed.Reached zero := .run zero .memory 1 _ 0 confirming
  have hfound : (confirmed.log.findSome? answered?).map Prod.fst = some 0 := by decide +kernel
  have hn : confirmed.service.now = 0 := by decide +kernel
  obtain ⟨r, hr, session, g, hh⟩ := exists_hands hfound
  obtain ⟨m, hm, hmint, -⟩ := hw.minted_of_hands hr hh
  refine ⟨r, m, session, g, hr, hh, hm, hmint, ?_, ?_⟩
  · rw [hn, Text.addTime]
    exact Nat.lt_min.2 ⟨Nat.lt_add_left _ (by decide), by decide⟩
  · have hin := hw.authenticate_minted (mem_steps.1 hm).1 hmint hw.sound.setup attends_confirmed
    rw [hin]
    exact if_neg fun h => absurd h.1 (by decide)

/-- Not every session that is given away lets its user in. -/
theorem not_forall_usable : ¬∀ (seeds : String) (setup : Setup) (backend : Backend) (limit : Nat)
    (now : UInt64) (es es' : List Event) (r m : Record) (uid : Int64) (session : String)
    (g : Ground),
    let w := start setup backend limit (.ofList (Users.parseSeeds seeds)) now
    let s := (w.run (es ++ es')).service
    r ∈ (w.run es).log → r.Hands (w.run es).log uid session g →
    m ∈ steps r.id (w.run es).log → m.minted? = some (uid, session) → s.Attends uid →
    s.now / 1000 < Text.addTime (m.before.now / 1000) setup.issuer.ttl →
    s.authenticate (some session) = .ok uid := by
  intro hall
  obtain ⟨r, m, session, g, hr, hh, hm, hmint, hx, hout⟩ := locked_out
  have hin := hall "0:zero:zero@x.io" zero .memory 1 0 confirming [] r m 0 session g
  rw [List.append_nil] at hin
  cases hout.symm.trans (hin hr hh hm hmint attends_confirmed hx)

end Example

end World

end Handoff
