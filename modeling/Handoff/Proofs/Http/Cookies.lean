import Handoff.Proofs.Http.Request
import Handoff.Proofs.OAuth.Steps
import Handoff.Proofs.Run.Minting
import Handoff.Proofs.Session.Carrier

namespace Handoff.Http

open Session

namespace Response

def cookies (r : Response) : List String := Headers.all "set-cookie" r.headers

inductive Keeps (s : Service) (r : Response) : Option String → Prop
  | none : r.cookies = [] → Keeps s r none
  | some {token field : String} : s.cookie token = some field → kept field = "token=" ++ token →
    r.cookies = [field] → Keeps s r (some token)

variable {r : Response}

theorem cookies_withHeader (name value : String) :
    (r.withHeader name value).cookies =
      r.cookies ++ if Text.sameIgnoringCase name "set-cookie" then [value] else [] := by
  rw [cookies, cookies, withHeader, Headers.all, Headers.all, List.filter_append, List.map_append]
  congr 1
  rw [List.filter_singleton]
  split <;> simp_all

theorem cookies_withCookie (cookie : Option String) :
    (withCookie cookie r).cookies = r.cookies ++ cookie.toList := by
  cases cookie with
  | none => simp [withCookie]
  | some c => exact cookies_withHeader _ _

@[simp] theorem cookies_shared : (shared r).cookies = r.cookies :=
  (cookies_withHeader _ _).trans (List.append_nil _)

@[simp] theorem cookies_finish (isHead : Bool) : (finish isHead r).cookies = r.cookies := by
  cases isHead <;> exact cookies_shared

@[simp] theorem cookies_empty (status : Nat) : (empty status).cookies = [] := rfl

@[simp] theorem cookies_plain (status : Nat) (text : String) : (plain status text).cookies = [] :=
  rfl

@[simp] theorem cookies_json (status : Nat) (j : Json) : (json status j).cookies = [] := rfl

@[simp] theorem cookies_reply {α E : Type} (message : String) (data : α → Json)
    (failure : E → Failure) (x : Except E α) : (reply message data failure x).cookies = [] := by
  cases x <;> rfl

theorem Keeps.cookies_ne_nil_iff {s : Service} {session : Option String} (h : r.Keeps s session) :
    r.cookies ≠ [] ↔ session.isSome = true := by
  cases h with
  | none hc => simp [hc]
  | some _ _ hc => simp [hc]

theorem Keeps.finish {s : Service} {session : Option String} (h : r.Keeps s session)
    (isHead : Bool) : (finish isHead r).Keeps s session := by
  cases h with
  | none hc => exact .none ((cookies_finish isHead).trans hc)
  | some hf hk hc => exact .some hf hk ((cookies_finish isHead).trans hc)

end Response

open Response

section Session

variable {s : Service} {token : String}

theorem exists_cookie (hp : ∀ c ∈ token.toList, IsPlain c) :
    ∃ field, s.cookie token = some field ∧ kept field = "token=" ++ token :=
  Option.map_eq_some_iff.1 (setCookie_plain hp _ _)

theorem keeps_withCookie (hp : ∀ c ∈ token.toList, IsPlain c) {r : Response} (hr : r.cookies = []) :
    (withCookie (s.cookie token) r).Keeps s (some token) := by
  obtain ⟨field, hf, hk⟩ := exists_cookie (s := s) hp
  refine .some hf hk ?_
  rw [cookies_withCookie, hr, hf]
  rfl

theorem keeps_withCookie_none {r : Response} (hr : r.cookies = []) :
    (withCookie none r).Keeps s none := .none hr

theorem isPlain_of_verified {c : Claims} (ht : Text.trim token = token)
    (hv : s.verify token = .ok c) : ∀ c ∈ token.toList, IsPlain c := by
  unfold Service.verify at hv
  split at hv
  · cases hv
  · have hp := (Issuer.isPlain_of_verify hv).2
    rwa [ht] at hp

/-- What asking to keep a session comes to. There is no session that cannot be kept. -/
inductive Kept (s : Service) (token : String) : Response → Prop
  | missing : Text.nonBlank token = none → Kept s token Failure.missingToken.response
  | refused {t : String} {e : Session.Error} : Text.nonBlank token = some t →
    s.verify t = .error e → Kept s token Failure.invalidSession.response
  | kept {t : String} {c : Claims} : Text.nonBlank token = some t → s.verify t = .ok c →
    Kept s token (withCookie (s.cookie t) (success "登录成功" "" none))

theorem keepSession_kept (token : String) (s : Service) : Kept s token (keepSession token s) := by
  unfold keepSession
  split
  · next hn => exact .missing hn
  · next t hn =>
    split
    · next hv => exact .refused hn hv
    · next c hv =>
      obtain ⟨field, hf, -⟩ :=
        exists_cookie (s := s) (isPlain_of_verified (Text.trim_of_nonBlank hn) hv)
      have hk := Kept.kept (s := s) hn hv
      rw [hf] at hk ⊢
      exact hk

def good? (token : String) (s : Service) : Option String :=
  (Text.nonBlank token).filter fun t => (s.verify t).isOk

theorem keepSession_keeps (token : String) (s : Service) :
    (keepSession token s).Keeps s (good? token s) := by
  have h := keepSession_kept token s
  rw [good?]
  generalize keepSession token s = r at h
  cases h with
  | missing hn =>
    rw [hn]
    exact .none rfl
  | refused hn hv =>
    rw [hn, Option.filter_some_neg (by rw [hv]; rfl)]
    exact .none rfl
  | @kept t c hn hv =>
    rw [hn, Option.filter_some_pos (by rw [hv]; rfl)]
    exact keeps_withCookie (isPlain_of_verified (Text.trim_of_nonBlank hn) hv) rfl

theorem keepSession_ne (token : String) (s : Service) :
    keepSession token s ≠ (Failure.internal "SESSION_COOKIE_FAILED").response := by
  have h := keepSession_kept token s
  generalize keepSession token s = r at h
  intro he
  have hs : r.status = 500 := congrArg Response.status he
  cases h with
  | missing | refused => cases hs
  | @kept t c hn hv =>
    cases hc : s.cookie t <;> (rw [hc] at hs; cases hs)

end Session

section Job

def Job.session? (s : Service) : Job → Option String
  | .oauthCallback c =>
    match (c.step s).1 with
    | .done (.ok (.loggedIn _ session)) => some session
    | _ => none
  | .confirmLink c =>
    match (c.step s).1 with
    | .done (.ok l) => some l.session
    | _ => none
  | _ => none

variable {s s' : Service} {r : Response} {uid : Int64} {session : String}

theorem isPlain_of_mint {random : List UInt8} (h : s.mint uid random = some (.ok session)) :
    ∀ c ∈ session.toList, IsPlain c := by
  rw [Service.issue_of_mint h]
  exact s.setup.issuer.isPlain_write _

theorem isPlain_of_loggedIn {c : OAuth.Callback}
    (h : (c.step s).1 = .done (.ok (.loggedIn uid session))) :
    ∀ c ∈ session.toList, IsPlain c := by
  have hc := c.stepped s
  generalize c.step s = x at h hc
  cases hc with
  | minted hm =>
    cases h
    exact isPlain_of_mint hm
  | _ => cases h

theorem isPlain_of_linked {c : OAuth.ConfirmLink} {l : OAuth.Linked}
    (h : (c.step s).1 = .done (.ok l)) : ∀ c ∈ l.session.toList, IsPlain c := by
  have hc := c.stepped s
  generalize c.step s = x at h hc
  cases hc with
  | minted hm =>
    cases h
    exact isPlain_of_mint hm
  | _ => cases h

theorem respond_done {C A : Type} {job : C → Job} {response : A → Response}
    {x : Step C A × Service} (h : Step.respond job response x = (.done r, s')) :
    ∃ a, x.1 = .done a ∧ r = response a := by
  obtain ⟨x, u⟩ := x
  cases x with
  | done a => cases h; exact ⟨a, rfl, rfl⟩
  | more | blocked => cases h

theorem toTask_done {isHead : Bool} {x : Step Job Response}
    (h : (Step.toTask isHead x, s) = (.done r, s')) : ∃ a, x = .done a ∧ r = finish isHead a := by
  cases x with
  | done a => cases h; exact ⟨a, rfl, rfl⟩
  | more | blocked => cases h

theorem Job.keeps_of_step {elapsed : Nat} {job : Job} (h : job.step elapsed s = (.done r, s')) :
    r.Keeps s (job.session? s) := by
  cases job with
  | scan | wait | oauthBegin | peek =>
    obtain ⟨a, -, rfl⟩ := respond_done h
    exact .none (cookies_reply _ _ _ _)
  | confirm =>
    obtain ⟨a, -, rfl⟩ := respond_done h
    cases a <;> exact .none rfl
  | cancel =>
    obtain ⟨a, -, rfl⟩ := respond_done h
    exact .none rfl
  | oauthCallback c =>
    obtain ⟨a, ha, rfl⟩ := respond_done h
    rw [session?, ha]
    cases a with
    | error => exact keeps_withCookie_none (cookies_reply _ _ _ _)
    | ok o =>
      cases o with
      | linked | pendingLink => exact keeps_withCookie_none (cookies_reply _ _ _ _)
      | loggedIn uid session =>
        exact keeps_withCookie (isPlain_of_loggedIn ha) (cookies_reply _ _ _ _)
  | confirmLink c =>
    obtain ⟨a, ha, rfl⟩ := respond_done h
    rw [session?, ha]
    cases a with
    | error => exact keeps_withCookie_none (cookies_reply _ _ _ _)
    | ok l =>
      simp only [Except.toOption, Option.bind_some]
      exact keeps_withCookie (isPlain_of_linked ha) (cookies_reply _ _ _ _)

/-- The request comes to its response by a step of the job on this service, whatever others do to
the service before that. -/
inductive Task.Answers : Task → Job → Service → Response → Prop
  | done {elapsed : Nat} {t : Task} {s s' : Service} {r : Response} :
    t.step elapsed s = (.done r, s') → Answers t t.job s r
  | more {elapsed : Nat} {t u : Task} {j : Job} {s s' v : Service} {r : Response} :
    t.step elapsed s = (.more u, s') → Answers u j v r → Answers t j v r

theorem Task.keeps_of_step {elapsed : Nat} {t : Task} (h : t.step elapsed s = (.done r, s')) :
    r.Keeps s (t.job.session? s) := by
  unfold Task.step at h
  generalize hx : t.job.step elapsed s = y at h
  obtain ⟨x, u⟩ := y
  obtain ⟨a, rfl, rfl⟩ := toTask_done h
  exact (Job.keeps_of_step hx).finish t.isHead

theorem Task.Answers.keeps {t : Task} {j : Job} (h : t.Answers j s r) :
    r.Keeps s (j.session? s) := by
  induction h with
  | done h => exact Task.keeps_of_step h
  | more _ _ ih => exact ih

end Job

section Request

def Request.session? (r : Request) (s : Service) : Option String :=
  if Endpoint.find? r.path = some (false, .setSession) ∧ r.method = "POST" then
    (readTextBody "sessionToken" r).toOption.bind fun token => good? token s
  else none

variable {serverTime : String} {chance : Chance} {r : Request} {s s' : Service} {e : Endpoint}
  {x : Response}

theorem cookies_of_refused {name : String} (h : readTextBody name r = .error x) :
    x.cookies = [] := by
  unfold readTextBody readBody at h
  split at h
  · cases h
    rfl
  · split at h
    · cases h
    · cases h
      rfl
    · cases h
      rfl

theorem cookies_noSocket (r : Request) : (noSocket r).cookies = [] := by
  unfold noSocket
  split
  · rfl
  · split <;> rfl

theorem cookies_preflight (path : String) : (preflight path).cookies = [] := by
  have hn (name value : String) (h : Text.sameIgnoringCase name "set-cookie" = false)
      (x : Response) : (x.withHeader name value).cookies = x.cookies := by
    rw [cookies_withHeader, h]
    exact List.append_nil _
  unfold preflight
  dsimp only
  split
  · rw [hn _ _ (by decide), hn _ _ (by decide), hn _ _ (by decide), cookies_shared, cookies_empty]
  · rw [hn _ _ (by decide), hn _ _ (by decide), cookies_shared, cookies_empty]

theorem cookies_withToken {start : String → Job} (h : withToken r start = .done x) :
    x.cookies = [] := by
  unfold withToken at h
  split at h
  · next hr =>
    cases h
    exact cookies_of_refused hr
  · split at h
    · cases h
      rfl
    · cases h

theorem reads_of_find?_setSession {path : String} {reads : Bool}
    (h : Endpoint.find? path = some (reads, .setSession)) : reads = false := by
  obtain ⟨x, hx, he⟩ := Option.map_eq_some_iff.1 h
  have key : ∀ x ∈ Endpoint.table, x.2.2 = .setSession → x.2.1 = false := by decide
  have := key x (List.mem_of_find?_eq_some hx) (by rw [he])
  rwa [he] at this

theorem session?_eq_none
    (h : Endpoint.find? r.path = some (false, .setSession) → r.method ≠ "POST") :
    r.session? s = none := if_neg fun hr => h hr.1 hr.2

theorem cookies_of_start (he : e ≠ .setSession)
    (h : e.start serverTime chance r s = (.done x, s')) : x.cookies = [] := by
  unfold Endpoint.start at h
  cases e with
  | setSession => exact absurd rfl he
  | health | stats => cases h; rfl
  | generate => cases h; exact cookies_reply _ _ _ _
  | socket => cases h; exact cookies_noSocket r
  | scan | confirm => exact cookies_withToken (congrArg Prod.fst h)
  | cancel | mobileCancel | confirmLink =>
    dsimp only at h
    split at h
    · next hr => cases h; exact cookies_of_refused hr
    · cases h
  | status =>
    dsimp only at h
    split at h
    · cases h; rfl
    · cases h; exact cookies_reply _ _ _ _
  | pendingLink =>
    dsimp only at h
    split at h
    · cases h; rfl
    · cases h
  | wait =>
    cases hw : startWait r with
    | none => rw [hw] at h; cases h; rfl
    | some => rw [hw] at h; cases h
  | oauthCallback =>
    cases hw : startCallback chance r with
    | none => rw [hw] at h; cases h; rfl
    | some => rw [hw] at h; cases h
  | oauthBegin =>
    dsimp only at h
    split at h
    · next hr => cases h; exact cookies_of_refused hr
    · split at h
      · cases h; rfl
      · cases h

theorem keeps_of_setSession (hf : Endpoint.find? r.path = some (false, .setSession))
    (hp : r.method = "POST") (h : Endpoint.setSession.start serverTime chance r s = (.done x, s')) :
    x.Keeps s (r.session? s) := by
  have hs : r.session? s = (readTextBody "sessionToken" r).toOption.bind fun token =>
      good? token s := if_pos ⟨hf, hp⟩
  rw [hs]
  unfold Endpoint.start at h
  dsimp only at h
  cases hr : readTextBody "sessionToken" r with
  | error y =>
    rw [hr] at h
    obtain rfl : y = x := Step.done.inj (congrArg Prod.fst h)
    exact .none (cookies_of_refused hr)
  | ok token =>
    rw [hr] at h
    obtain rfl : keepSession token s = x := Step.done.inj (congrArg Prod.fst h)
    simp only [Except.toOption, Option.bind_some]
    exact keepSession_keeps token s

theorem accept_setSession (hr : r.GoesTo .setSession) {token : String}
    (ht : readTextBody "sessionToken" r = .ok token) :
    accept serverTime chance r s = (.done (finish false (keepSession token s)), s) := by
  rw [accept_of_goesTo hr]
  unfold Endpoint.start
  dsimp only
  rw [ht]
  rfl

theorem keeps_of_accept (h : accept serverTime chance r s = (.done x, s')) :
    x.Keeps s (r.session? s) := by
  unfold accept at h
  split at h
  · next ho =>
    cases h
    rw [session?_eq_none fun _ => ho ▸ by decide]
    exact .none (cookies_preflight _)
  · split at h
    · next hf =>
      cases h
      rw [session?_eq_none fun hs => by cases hf.symm.trans hs]
      exact .none cookies_shared
    · next reads e hf =>
      by_cases hm : r.method = (if reads then "GET" else "POST") ∨ (reads ∧ r.method = "HEAD")
      · rw [if_pos hm] at h
        generalize hx : e.start serverTime chance r s = y at h
        obtain ⟨step, u⟩ := y
        obtain ⟨a, rfl, rfl⟩ := toTask_done h
        refine Keeps.finish ?_ _
        by_cases he : e = .setSession
        · subst he
          obtain rfl := reads_of_find?_setSession hf
          have hp : r.method = "POST" := hm.resolve_right fun hm => by cases hm.1
          exact keeps_of_setSession hf hp hx
        · rw [session?_eq_none fun hs => absurd (by cases hf.symm.trans hs; rfl) he]
          exact .none (cookies_of_start he hx)
      · rw [if_neg hm] at h
        cases h
        rw [session?_eq_none]
        · exact .none (cookies_shared.trans (cookies_withHeader _ _))
        · intro hs hp
          cases hf.symm.trans hs
          exact hm (.inl hp)

end Request

/-- A session that is accepted can be kept: with any age and attributes there is a field for it,
what a browser keeps of the field gives the session back in every request that sends it, unless
there is a bearer token or an earlier cookie of the name, and asking to keep it does not fail for
want of the field. A response sets a cookie exactly when its request brings a session, be it one
that is to be kept, or one with which a callback or the confirmation of a link has ended, and sets
it for that session; this holds of the responses that a request has at once, and of those that it
comes to in steps. -/
theorem cookie_carries_session :
    (∀ (i : Issuer) (now : Nat) (token : String) (c : Claims), i.verify now token = .ok c →
      ∀ maxAge secure, ∃ field, setCookie (Text.trim token) maxAge secure = some field ∧
        ∀ hs, Bearerless hs → Sends hs (kept field) → fromHeaders hs = some (Text.trim token)) ∧
    (∀ token s, keepSession token s ≠ (Failure.internal "SESSION_COOKIE_FAILED").response) ∧
    (∀ serverTime chance r s x s', accept serverTime chance r s = (.done x, s') →
      x.Keeps s (r.session? s) ∧ (x.cookies ≠ [] ↔ (r.session? s).isSome = true)) ∧
    ∀ t j s x, Task.Answers t j s x →
      x.Keeps s (j.session? s) ∧ (x.cookies ≠ [] ↔ (j.session? s).isSome = true) where
  left _ _ _ _ hv := Issuer.exists_setCookie hv
  right :=
    ⟨keepSession_ne,
      fun _ _ _ _ _ _ h => ⟨keeps_of_accept h, (keeps_of_accept h).cookies_ne_nil_iff⟩,
      fun _ _ _ _ h => ⟨h.keeps, h.keeps.cookies_ne_nil_iff⟩⟩

section Example

def signedIn : String := Issuer.issue ⟨"session-secret", 3600⟩ 0 7 []

theorem isPlain_signedIn : ∀ c ∈ signedIn.toList, IsPlain c := Issuer.isPlain_write _ _

theorem sends_signedIn :
    Sends [("Cookie", "tokens=x; token=" ++ signedIn)] ("token=" ++ signedIn) := by
  have hp := isPlain_signedIn
  have hs (l : List Char) : "tokens=x; token=".toList ++ l =
      "tokens=x".toList ++ ';' :: (" token=".toList ++ l) := rfl
  have hb (l : List Char) : " token=".toList ++ l = [' '] ++ ("token=".toList ++ l ++ []) := by
    rw [List.append_nil]
    rfl
  refine ⟨[], "tokens=x; token=" ++ signedIn, [], ["tokens=x".toList],
    " token=".toList ++ signedIn.toList, [], ?_, isReadable_append hp (by decide), ?_, ?_, by simp,
    ?_⟩
  · rw [Headers.all_cons, if_pos (by decide)]
    rfl
  · rw [String.toList_append, hs, Text.splitChars_append (by decide), Text.splitChars_of_not_mem]
    · rfl
    · rw [List.mem_append, not_or]
      exact ⟨by decide, fun hm => (hp _ hm).visible.2.1 rfl⟩
  · have ht := Text.trimChars_eq_self (isBlank_pair hp)
    rw [hb, Text.trimChars_pad rfl rfl ht, String.toList_append]
  · intro q hq hc
    rw [List.mem_singleton.1 hq] at hc
    obtain ⟨v, -, h⟩ := hc
    cases h

theorem verify_signedIn : ∃ c, Issuer.verify ⟨"session-secret", 3600⟩ 0 signedIn = .ok c :=
  ⟨_, (Issuer.verify_issue _ (Nat.zero_le _) 7 [] 0).trans (if_neg (by decide))⟩

theorem trim_signedIn : Text.trim signedIn = signedIn := (Issuer.portable_write _ _).trim_eq

def keeping : Request where
  method := "POST"
  target := "/api/qr-login/set-session"
  headers := [("content-type", "application/json")]
  body := (Json.obj [("sessionToken", .str signedIn)]).compact

def visited : Service :=
  ((World.start OAuth.Visit.setup .memory 1 OAuth.Visit.users 0).run OAuth.Visit.leaving).service

def coming : Task where
  job := .oauthCallback (.start "0123456789abcdef0123456789abcdef" "code" none ⟨[], ⟨"a"⟩⟩)
  isHead := false

theorem goesTo_keeping : keeping.GoesTo .setSession := ⟨false, by decide, rfl⟩

theorem session?_keeping : keeping.session? visited = some signedIn := by
  obtain ⟨c, hv⟩ := verify_signedIn
  have hn : Text.nonBlank signedIn = some signedIn := by
    refine Text.nonBlank_eq_some_iff.2 ⟨trim_signedIn, fun he => ?_⟩
    refine (Issuer.isPlain_of_verify hv).1 ?_
    rw [trim_signedIn, he]
    rfl
  have hs : visited.verify signedIn = .ok c := hv
  rw [Request.session?, if_pos ⟨by decide, rfl⟩, readTextBody_compact rfl rfl]
  change good? signedIn visited = some signedIn
  rw [good?, hn, Option.filter_some_pos (by rw [hs]; rfl)]

theorem answers_coming : ∃ x, coming.Answers (.oauthCallback (.minting 7 [])) visited x := by
  obtain ⟨x, hd⟩ : ∃ x, Task.Answers ⟨.oauthCallback (.minting 7 []), false⟩
      (.oauthCallback (.minting 7 [])) visited x := ⟨_, @Task.Answers.done 0 _ _ _ _ rfl⟩
  refine ⟨x, @Task.Answers.more 0 _ _ _ visited _ visited _ rfl ?_⟩
  refine @Task.Answers.more 0 _ _ _ visited _ visited _ rfl ?_
  exact @Task.Answers.more 0 _ _ _ visited _ visited _ rfl hd

theorem cookie_carries_signedIn :
    (∃ field, setCookie signedIn 3600 true = some field ∧ kept field = "token=" ++ signedIn ∧
      fromHeaders [("Cookie", "tokens=x; token=" ++ signedIn)] = some signedIn) ∧
    (∃ x, accept "" ⟨⟨""⟩, [], [], ⟨""⟩, ⟨""⟩⟩ keeping visited = (.done x, visited) ∧
      x.Keeps visited (some signedIn) ∧ x.cookies ≠ []) ∧
    ∃ j x session, coming.Answers j visited x ∧ x.Keeps visited (some session) ∧
      x.cookies ≠ [] := by
  refine ⟨?_, ?_, ?_⟩
  · obtain ⟨_, hv⟩ := verify_signedIn
    obtain ⟨field, hf, hback⟩ := cookie_carries_session.1 _ _ signedIn _ hv 3600 true
    rw [trim_signedIn] at hf hback
    have hk : kept field = "token=" ++ signedIn := by
      have hk := setCookie_plain isPlain_signedIn 3600 true
      rw [hf] at hk
      exact Option.some.inj hk
    refine ⟨field, hf, hk, hback _ (fun value hv => ?_) (hk ▸ sends_signedIn)⟩
    rw [Headers.first?, Headers.all_cons, if_neg (by decide)] at hv
    cases hv
  · have hx : accept "" ⟨⟨""⟩, [], [], ⟨""⟩, ⟨""⟩⟩ keeping visited =
        (.done (finish false (keepSession signedIn visited)), visited) :=
      accept_setSession goesTo_keeping (readTextBody_compact rfl rfl)
    obtain ⟨hkeeps, hset⟩ := cookie_carries_session.2.2.1 _ _ _ _ _ _ hx
    rw [session?_keeping] at hkeeps hset
    exact ⟨_, hx, hkeeps, hset.2 rfl⟩
  · obtain ⟨x, hx⟩ := answers_coming
    obtain ⟨hkeeps, hset⟩ := cookie_carries_session.2.2.2 _ _ _ _ hx
    have hs : ∃ session, (Job.oauthCallback (.minting 7 [])).session? visited = some session :=
      ⟨_, rfl⟩
    obtain ⟨session, hs⟩ := hs
    rw [hs] at hkeeps hset
    exact ⟨_, x, session, hx, hkeeps, hset.2 rfl⟩

end Example

end Handoff.Http
