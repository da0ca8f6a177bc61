import Handoff.Entropy
import Handoff.Http.Answer

namespace Handoff.Http

inductive Endpoint
  | health
  | stats
  | generate
  | scan
  | confirm
  | cancel
  | mobileCancel
  | setSession
  | status
  | wait
  | socket
  | oauthBegin
  | oauthCallback
  | pendingLink
  | confirmLink
  deriving DecidableEq, Repr

namespace Endpoint

def table : List (String × Bool × Endpoint) := [
  ("/healthz", true, health),
  ("/v1/debug/stats", true, stats),
  ("/api/qr-login/generate", false, generate),
  ("/api/qr-login/scan", false, scan),
  ("/api/qr-login/mobile-confirm", false, confirm),
  ("/api/qr-login/cancel", false, cancel),
  ("/api/qr-login/mobile-cancel", false, mobileCancel),
  ("/api/qr-login/set-session", false, setSession),
  ("/api/qr-login/status", true, status),
  ("/api/qr-login/wait", true, wait),
  ("/ws/qr-login", true, socket),
  ("/api/oauth/begin", false, oauthBegin),
  ("/api/oauth/callback", true, oauthCallback),
  ("/api/auth/pending-link", true, pendingLink),
  ("/api/auth/confirm-link", false, confirmLink)]

def find? (path : String) : Option (Bool × Endpoint) :=
  (table.find? (·.1 = path)).map (·.2)

end Endpoint

structure Chance where
  qrHandle : Handle
  nonce : List UInt8
  session : List UInt8
  state : Handle
  link : Handle
  deriving DecidableEq, Repr

def Chance.draw (e : Entropy) : Chance × Entropy :=
  let (qrHandle, e) := e.handle Qr.handleBytes
  let (nonce, e) := e.draw Gcm.nonceSize
  let (session, e) := e.draw 16
  let (state, e) := e.handle OAuth.stateBytes
  let (link, e) := e.handle OAuth.linkBytes
  (⟨qrHandle, nonce, session, state, link⟩, e)

inductive Job
  | scan (c : Qr.Scan)
  | confirm (c : Qr.Confirm)
  | cancel (c : Qr.Cancel)
  | wait (c : Qr.Wait)
  | oauthBegin (c : OAuth.Begin)
  | oauthCallback (c : OAuth.Callback)
  | peek (c : OAuth.Peek)
  | confirmLink (c : OAuth.ConfirmLink)
  deriving Repr

/-- How long a wait may last, in milliseconds: the default, the least and the most. -/
def waitDefault : Nat := 25000

def waitMin : Nat := 1000

def waitMax : Nat := 30000

def cancelled : Response := success "已取消" "" none

def confirmed : Response := success "登录已确认" "请在电脑上继续操作" none

def keepSession (token : String) (s : Service) : Response :=
  match Text.nonBlank token with
  | none => Failure.missingToken.response
  | some token =>
    match s.verify token with
    | .error _ => Failure.invalidSession.response
    | .ok _ =>
      match s.cookie token with
      | some cookie => withCookie (some cookie) (success "登录成功" "" none)
      | none => (Failure.internal "SESSION_COOKIE_FAILED").response

def Step.respond {C A : Type} (job : C → Job) (response : A → Response) :
    Step C A × Service → Step Job Response × Service
  | (.more c, s) => (.more (job c), s)
  | (.done a, s) => (.done (response a), s)
  | (.blocked, s) => (.blocked, s)

def Job.step (elapsed : Nat) (job : Job) (s : Service) : Step Job Response × Service :=
  match job with
  | scan c => Step.respond .scan (reply "扫码成功" scannedData Failure.ofScan) (c.step s)
  | confirm c =>
    Step.respond .confirm (fun
      | .ok () => Http.confirmed
      | .error e => (Failure.ofConfirm e).response) (c.step s)
  | cancel c => Step.respond .cancel (fun () => Http.cancelled) (c.step s)
  | wait c =>
    Step.respond .wait (reply "状态获取成功" waitData Failure.ofWatch) (c.step elapsed s)
  | oauthBegin c =>
    Step.respond .oauthBegin (reply "授权已发起" begunData Failure.ofOAuth) (c.step s)
  | oauthCallback c =>
    Step.respond .oauthCallback (fun r =>
      let cookie := match r with
        | .ok (.loggedIn _ session) => s.cookie session
        | _ => none
      withCookie cookie (reply "授权完成" outcomeData Failure.ofOAuth r)) (c.step s)
  | peek c => Step.respond .peek (reply "待确认绑定" linkData Failure.ofLink) (c.step s)
  | confirmLink c =>
    Step.respond .confirmLink (fun r =>
      withCookie (r.toOption.bind fun l => s.cookie l.session)
        (reply "账号已绑定" linkedData Failure.ofLink r)) (c.step s)

def withToken (r : Request) (start : String → Job) : Step Job Response :=
  match readTextBody "token" r with
  | .error refusal => .done refusal
  | .ok token =>
    if Text.isAllBlank token then .done Failure.missingToken.response else .more (start token)

def startWait (r : Request) : Option Job := do
  let token ← queryText? "token" r.query
  let known ← queryText? "known" r.query
  let timeout ← queryNat? "timeoutMs" r.query
  return .wait (.watching (.start (token.getD "")) (known.bind Qr.Status.parse)
    (min waitMax (max waitMin (timeout.getD waitDefault))))

def startCallback (chance : Chance) (r : Request) : Option Job := do
  let state ← queryText? "state" r.query
  let code ← queryText? "code" r.query
  let error ← queryText? "error" r.query
  return .oauthCallback (.start (state.getD "") (code.getD "") error ⟨chance.session, chance.link⟩)

def noSocket (r : Request) : Response :=
  if r.method ≠ "GET" then .plain 405 "Request method must be GET"
  else if asksForSocket r.headers then .plain 426 "The connection cannot become a socket"
  else .plain 400 "The request does not ask for a socket"

def socketToken (r : Request) : Except Response String :=
  match queryText? "token" r.query with
  | none => .error badQuery
  | some token =>
    if Text.isAllBlank (token.getD "") then .error Failure.missingToken.response
    else .ok (token.getD "")

def Endpoint.start (serverTime : String) (chance : Chance) (r : Request) (s : Service) :
    Endpoint → Step Job Response × Service
  | health => (.done (.plain 200 "ok"), s)
  | stats => (.done (.json 200 (statsData serverTime s)), s)
  | generate =>
    let (result, s) := Qr.issue (clientAddress r.headers) (userAgent r.headers) chance.qrHandle
      chance.nonce s
    (.done (reply "二维码已生成" issuedData Failure.ofGenerate result), s)
  | scan => (withToken r fun t => .scan (.start t), s)
  | confirm =>
    (withToken r fun t => .confirm (.start t (Session.fromHeaders r.headers) chance.session), s)
  | cancel | mobileCancel =>
    match readTextBody "token" r with
    | .error refusal => (.done refusal, s)
    | .ok token => (.more (.cancel (.start token)), s)
  | setSession =>
    match readTextBody "sessionToken" r with
    | .error refusal => (.done refusal, s)
    | .ok token => (.done (keepSession token s), s)
  | status =>
    match queryText? "token" r.query with
    | none => (.done badQuery, s)
    | some token =>
      let (result, s) := Qr.status (token.getD "") s
      (.done (reply "状态获取成功" snapshotData Failure.ofWatch result), s)
  | wait => ((startWait r).elim (.done badQuery) .more, s)
  | socket => (.done (noSocket r), s)
  | oauthBegin =>
    match readTextBody "action" r with
    | .error refusal => (.done refusal, s)
    | .ok action =>
      match OAuth.Action.parse action with
      | none => (.done (Failure.ofOAuth .invalidAction).response, s)
      | some action =>
        (.more (.oauthBegin (.start action (Session.fromHeaders r.headers) chance.state)), s)
  | oauthCallback => ((startCallback chance r).elim (.done badQuery) .more, s)
  | pendingLink =>
    match queryText? "token" r.query with
    | none => (.done badQuery, s)
    | some token => (.more (.peek (.start (token.getD ""))), s)
  | confirmLink =>
    match readTextBody "token" r with
    | .error refusal => (.done refusal, s)
    | .ok token => (.more (.confirmLink (.start token chance.session)), s)

def shared (r : Response) : Response := r.withHeader "access-control-allow-origin" "*"

def allowed (reads : Bool) : String := if reads then "GET,HEAD" else "POST"

def preflight (path : String) : Response :=
  let r := shared (.empty 200)
    |>.withHeader "access-control-allow-methods" "GET,POST,OPTIONS"
    |>.withHeader "access-control-allow-headers" "content-type,authorization"
  match Endpoint.find? path with
  | some (reads, _) => r.withHeader "allow" (allowed reads)
  | none => r

structure Task where
  job : Job
  isHead : Bool
  deriving Repr

def finish (isHead : Bool) (r : Response) : Response :=
  shared (if isHead then r.withoutBody else r)

def Step.toTask (isHead : Bool) : Step Job Response → Step Task Response
  | .more job => .more ⟨job, isHead⟩
  | .done r => .done (finish isHead r)
  | .blocked => .blocked

def accept (serverTime : String) (chance : Chance) (r : Request) (s : Service) :
    Step Task Response × Service :=
  if r.method = "OPTIONS" then (.done (preflight r.path), s)
  else match Endpoint.find? r.path with
    | none => (.done (shared (.empty 404)), s)
    | some (reads, e) =>
      if r.method = (if reads then "GET" else "POST") ∨ (reads ∧ r.method = "HEAD") then
        let (step, s) := e.start serverTime chance r s
        (Step.toTask (r.method = "HEAD") step, s)
      else (.done (shared ((Response.empty 405).withHeader "allow" (allowed reads))), s)

def Task.step (elapsed : Nat) (t : Task) (s : Service) : Step Task Response × Service :=
  let (step, s) := t.job.step elapsed s
  (Step.toTask t.isHead step, s)

end Handoff.Http
