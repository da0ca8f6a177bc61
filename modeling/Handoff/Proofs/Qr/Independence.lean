import Handoff.Proofs.Qr.Errand
import Handoff.Proofs.Qr.Overtaking
import Handoff.Proofs.Run.Sessions

namespace Handoff

open Qr (StandsFor)

namespace Desk

variable {σ : Setup} {h k : Handle} {d d' : Desk} {s : Service} {q : Errand}

structure Tidy (σ : Setup) (d : Desk) : Prop where
  idle : d.server.Idle
  orderly : d.rest.Orderly σ

theorem tidy_start (setup : Setup) (backend : Backend) (limit : Nat) (users : Users) (now : UInt64)
    (entropy : Entropy) : (start setup backend limit users now entropy).Tidy setup where
  idle := ⟨rfl, rfl⟩
  orderly := ⟨rfl, Hub.regular_empty limit, nofun, fun _ => List.nodup_nil, nofun, nofun⟩

theorem Tidy.perform_eq (hd : d.Tidy σ) (q : Errand) : (d.perform q).1 = (d.rest.perform q).1 ∧
    (d.perform q).2.rest = (d.rest.perform q).2 ∧ (d.perform q).2.server.Idle :=
  perform_rest hd.idle hd.orderly.regular.given q

theorem Tidy.perform (hd : d.Tidy σ) (q : Errand) : (d.perform q).2.Tidy σ where
  idle := (hd.perform_eq q).2.2
  orderly := (hd.perform_eq q).2.1 ▸ hd.orderly.perform q

theorem Tidy.after (hd : d.Tidy σ) (qs : List Errand) : (d.after qs).Tidy σ := by
  induction qs generalizing d with
  | nil => exact hd
  | cons q qs ih => exact ih (hd.perform q)

theorem Errand.subject_congr {s s' : Service} (hs : s.setup = s'.setup) (q : Errand) :
    q.subject s = q.subject s' := by
  cases q <;> simp only [Errand.subject, Qr.resolve_congr hs]

theorem Tidy.subject_eq (hd : d.Tidy σ) (hs : s.setup = σ) (q : Errand) :
    q.subject d.rest.service = q.subject s :=
  q.subject_congr (hd.orderly.setup.trans hs.symm)

/-- Two desks that look alike to those of the sign-in; the second one has no other subscriptions. -/
structure Paired (σ : Setup) (h : Handle) (d d' : Desk) : Prop where
  left : d.Tidy σ
  right : d'.Tidy σ
  like : Rest.Like h d.rest d'.rest
  only : d'.rest.Only h

theorem Paired.of_ne (hd : Paired σ h d d') (hs : s.setup = σ) (hq : q.subject s = some k)
    (hk : h ≠ k) : Paired σ h (d.perform q).2 d' where
  left := hd.left.perform q
  right := hd.right
  like := (hd.left.perform_eq q).2.1 ▸
    (Rest.like_of_ne hd.left.orderly ((hd.left.subject_eq hs q).trans hq) hk).trans hd.like
  only := hd.only

theorem Paired.of_like (hd : Paired σ h d d') (hs : s.setup = σ)
    (hq : ∀ k, q.subject s = some k → k = h)
    (hl : Rest.Like h (d.rest.perform q).2 (d'.rest.perform q).2) :
    Paired σ h (d.perform q).2 (d'.perform q).2 where
  left := hd.left.perform q
  right := hd.right.perform q
  like := (hd.left.perform_eq q).2.1 ▸ (hd.right.perform_eq q).2.1 ▸ hl
  only := (hd.right.perform_eq q).2.1 ▸ hd.only.perform hd.right.orderly
    fun k hk => hq k ((hd.right.subject_eq hs q).symm.trans hk)

theorem Paired.common (hd : Paired σ h d d') (hs : s.setup = σ) (hq : q.subject s = none) :
    Paired σ h (d.perform q).2 (d'.perform q).2 :=
  hd.of_like hs (fun _ hk => nomatch hq.symm.trans hk)
    (hd.like.common hd.left.orderly ((hd.left.subject_eq hs q).trans hq))

theorem Paired.own (hd : Paired σ h d d') (hs : s.setup = σ) (hq : q.subject s = some h)
    (hn : (d.perform q).1.isRefusal = false) :
    (d.perform q).1 = (d'.perform q).1 ∧ Paired σ h (d.perform q).2 (d'.perform q).2 := by
  rw [(hd.left.perform_eq q).1] at hn
  obtain ⟨hr, hl⟩ := hd.like.perform hd.left.orderly hd.right.orderly hd.only
    ((hd.left.subject_eq hs q).trans hq) hn
  refine ⟨?_, hd.of_like hs (fun k hk => Option.some.inj (hk.symm.trans hq)) hl⟩
  rw [(hd.left.perform_eq q).1, (hd.right.perform_eq q).1, hr]

/-- What is asked about the sign-in is answered alike at both desks, where those who come to the
second one do not ask about others. -/
theorem Paired.trace_filter (hd : Paired σ h d d') (hs : s.setup = σ) (qs : List Errand)
    (hn : ∀ x ∈ d.trace qs, x.2.isRefusal = false) :
    ((d.trace qs).filter fun x => x.1.subject s = some h) =
      (d'.trace (qs.filter fun q => (q.subject s).all (· = h))).filter
        fun x => x.1.subject s = some h := by
  induction qs generalizing d d' with
  | nil => rfl
  | cons q qs ih =>
    rw [trace, List.forall_mem_cons] at hn
    rw [trace]
    cases hq : q.subject s with
    | none =>
      have ih := ih (hd.common hs hq) hn.2
      simpa [trace, hq] using ih
    | some k =>
      by_cases hk : k = h
      · subst hk
        obtain ⟨hr, hp⟩ := hd.own hs hq hn.1
        have ih := ih hp hn.2
        simpa [trace, hq, hr] using ih
      · have ih := ih (hd.of_ne hs hq (Ne.symm hk)) hn.2
        simpa [hq, hk] using ih

def Made (qs : List Errand) (d : Desk) (h : Handle) (session : String) : Prop :=
  ∃ past q, past ++ [q] <+: qs ∧ Rest.Makes q (d.after past).server.service h session

theorem after_concat (qs : List Errand) (q : Errand) (d : Desk) :
    d.after (qs ++ [q]) = ((d.after qs).perform q).2 := List.foldl_concat ..

theorem Tidy.holds_after (hd : d.Tidy σ) (hm : d.rest.Holds fun _ _ => False) (qs : List Errand) :
    (d.after qs).rest.Holds (d.Made qs) := by
  induction qs using List.reverseRecOn with
  | nil => exact fun t ht m hmem session hs => (hm t ht m hmem session hs).elim
  | append_singleton qs q ih =>
    have ht := hd.after qs
    rw [after_concat, (ht.perform_eq q).2.1]
    intro t hmem m hm session hs
    rcases ih.perform ht.orderly q t hmem m hm session hs with ⟨past, c, hp, hc⟩ | hc
    · exact ⟨past, c, hp.trans (List.prefix_append qs [q]), hc⟩
    · exact ⟨qs, q, List.prefix_refl _, hc⟩

/-- Sign-ins are independent: what is asked about one of them is answered as if nothing had been
asked about others, and every session that is received about a sign-in was made for it. -/
theorem start_independent (setup : Setup) (backend : Backend) (limit : Nat) (users : Users)
    (now : UInt64) (entropy : Entropy) (qs : List Errand) (h : Handle) :
    let d := start setup backend limit users now entropy
    let subject (q : Errand) := q.subject d.server.service
    (∀ x ∈ d.trace qs, x.2.isRefusal = false) →
    ((d.trace qs).filter fun x => subject x.1 = some h) =
      (d.trace (qs.filter fun q => (subject q).all (· = h))).filter
        (fun x => subject x.1 = some h) ∧
    ∀ past q later session, qs = past ++ q :: later →
      ((d.after past).perform q).1.session? = some session →
      ∃ k, subject q = some k ∧ d.Made past k session := by
  intro d subject hn
  have hd : d.Tidy setup := tidy_start setup backend limit users now entropy
  refine ⟨Paired.trace_filter ⟨hd, hd, .refl .., nofun⟩ rfl qs hn, fun past q _ _ _ hs => ?_⟩
  have ht := hd.after past
  rw [(ht.perform_eq q).1] at hs
  obtain ⟨k, hq, hm⟩ := (hd.holds_after nofun past).session? ht.orderly hs
  exact ⟨k, (ht.subject_eq rfl q).symm.trans hq, hm⟩

section Example

open Race

def other : Handle := .ofEntropy (List.replicate 32 1)

def users : Users := ⟨[⟨7, "ada", none, none, none⟩]⟩

theorem resolve_token {s : Service} (hk : s.setup.qrKey = some key) :
    Qr.resolve token s = .ok handle := by
  have hu : Qr.Token.unwrap key token = .ok ⟨handle, 0⟩ :=
    Qr.Token.unwrap_fresh (Gcm.Key.sound_ofBytes (Hmac.length_sha256 _ _)) List.length_replicate
      List.length_replicate (Nat.zero_le _)
  rw [Qr.resolve, Qr.openToken, hk]
  dsimp only
  rw [hu]
  rfl

theorem standsFor_token : StandsFor setup token handle := fun _ hs => resolve_token (by rw [hs]; rfl)

def phone : String := setup.issuer.issue 0 7 []

def scanned (s : Service) : Service :=
  (Service.deal handle Qr.Scan.ending
    (s.take (P := Qr.Session) handle Qr.Status.pending Qr.Status.scanned)).2

def confirmed (s : Service) : Service :=
  (Service.deal handle (Qr.Confirm.ending (s.mint 7 []))
    (s.take (P := Qr.Session) handle Qr.Status.scanned Qr.Status.confirmed)).2

theorem rest_entering (hd : d.Tidy setup) (hf : d.server.service.faults = .none)
    (hu : d.server.service.users = users) (hn : d.server.service.now = 0) :
    (d.after [.scan token, .confirm token (some phone) []]).rest =
      ⟨confirmed (scanned d.server.service), d.seats⟩ := by
  have h₁ := hd.perform (.scan token)
  have hr := standsFor_token _ hd.orderly.setup
  have hq : (Errand.scan token).subject d.rest.service = some handle := by
    rw [Errand.subject, hr]
    rfl
  have hl := Rest.like_of_ne hd.orderly hq (show other ≠ handle by decide +kernel)
  rw [← (hd.perform_eq (.scan token)).2.1] at hl
  have ha : (d.perform (.scan token)).2.rest.service.Attends 7 :=
    ⟨congrArg Faults.verify (hl.faults.trans hf),
      congrFun (congrArg Faults.users (hl.faults.trans hf)) .byId, _,
      congrArg (Users.findById 7) (hl.users.trans hu)⟩
  have ha := Service.authenticate_issue ha (Nat.zero_le _) []
  rw [h₁.orderly.setup, hl.now.trans hn] at ha
  have ha := ha.trans (if_pos (by decide +kernel))
  have e₀ := (hd.perform_eq (.scan token)).2.1
  rw [Rest.perform, Rest.ask, Qr.Scan.alone, hr] at e₀
  have e₁ := (h₁.perform_eq (.confirm token (some phone) [])).2.1
  rw [Rest.perform, Rest.ask, Qr.Confirm.alone, phone, ha,
    standsFor_token _ h₁.orderly.setup, e₀] at e₁
  exact e₁

def waiting : List Errand :=
  [.subscribe handle, .subscribe other, .issue "" "" handle nonce, .issue "" "" other nonce]

def entering : List Errand :=
  waiting ++ [.scan token, .confirm token (some phone) [], .receive handle 0]

theorem receives_session : ∃ session, (((start setup .memory 2 users 0 (.ofSeed [])).after
    entering).perform (.receive handle 0)).1.session? = some session := by
  have h₀ := (tidy_start setup .memory 2 users 0 (.ofSeed [])).after waiting
  have he := rest_entering h₀ rfl rfl rfl
  have h₂ := h₀.after [.scan token, .confirm token (some phone) []]
  have h₃ := h₂.perform (.receive handle 0)
  rw [entering, Desk.after, List.foldl_append]
  change ∃ session, (((((start setup .memory 2 users 0 (.ofSeed [])).after waiting).after
    [.scan token, .confirm token (some phone) []]).perform (.receive handle 0)).2.perform
    (.receive handle 0)).1.session? = some session
  rw [(h₃.perform_eq (.receive handle 0)).1, (h₂.perform_eq (.receive handle 0)).2.1, he]
  apply Option.isSome_iff_exists.1
  decide +kernel

theorem start_independent_entering :
    let d := start setup .memory 2 users 0 (.ofSeed [])
    let qs := entering ++ [.receive handle 0, .receive other 0]
    let subject (q : Errand) := q.subject d.server.service
    (∀ x ∈ d.trace qs, x.2.isRefusal = false) ∧
    ((d.trace qs).filter fun x => subject x.1 = some other) =
      (d.trace (qs.filter fun q => (subject q).all (· = other))).filter
        (fun x => subject x.1 = some other) ∧
    ∃ session, ((d.after entering).perform (.receive handle 0)).1.session? =
      some session ∧ d.Made entering handle session := by
  intro d qs subject
  have hn : ∀ x ∈ d.trace qs, x.2.isRefusal = false := by decide +kernel
  obtain ⟨he, hs⟩ := start_independent setup .memory 2 users 0 (.ofSeed []) qs other hn
  obtain ⟨session, hr⟩ := receives_session
  obtain ⟨k, hk, hm⟩ := hs entering _ [.receive other 0] session
    (List.append_assoc _ _ _) hr
  exact ⟨hn, he, session, hr, Option.some.inj (show some handle = some k from hk) ▸ hm⟩

end Example

end Desk

end Handoff
