import Handoff.OAuth.Provider
import Handoff.Service

namespace Handoff.OAuth

inductive Error
  | notConfigured
  | invalidAction
  | unauthorized (why : AuthFailure)
  | stateInvalid
  | denied (text : String)
  | provider (e : IdentityError)
  | alreadyLinked
  | noLinkedAccount
  | userNotFound
  | sessionMint (text : String)
  | internal (text : String)
  deriving DecidableEq, Repr

namespace Error

def message : Error → String
  | notConfigured => "oauth is not configured"
  | invalidAction => "unknown oauth action"
  | unauthorized why => "session rejected: " ++ why.text
  | stateInvalid => "oauth state is invalid"
  | denied text => "user denied authorization: " ++ text
  | provider e => e.message
  | alreadyLinked => "external identity already linked"
  | noLinkedAccount => "no local account is linked to this identity"
  | userNotFound => "user not found"
  | sessionMint text => "session mint failed: " ++ text
  | internal text => "oauth internal failure: " ++ text

def ofStore (e : StoreError) : Error := internal e.message

def ofUsers (e : UserError) : Error := internal e.message

def ofAuth : AuthError → Error
  | .rejected why => unauthorized why
  | .backend text => internal text

def ofTake : StoreError → Error
  | .notFound => stateInvalid
  | .conflict _ => stateInvalid
  | e => ofStore e

def ofLink : UserError → Error
  | .alreadyLinked _ => alreadyLinked
  | .notFound => userNotFound
  | e => ofUsers e

end Error

inductive LinkError
  | invalid
  | userNotFound
  | alreadyLinked
  | sessionMint (text : String)
  | internal (text : String)
  deriving DecidableEq, Repr

namespace LinkError

def message : LinkError → String
  | invalid => "link token is invalid"
  | userNotFound => "user not found"
  | alreadyLinked => "external identity already linked"
  | sessionMint text => "session mint failed: " ++ text
  | internal text => "link internal failure: " ++ text

def ofStore : StoreError → LinkError
  | .notFound => invalid
  | .conflict _ => invalid
  | e => internal e.message

def ofLink : UserError → LinkError
  | .notFound => userNotFound
  | .alreadyLinked _ => alreadyLinked
  | e => internal e.message

end LinkError

def stateBytes : Nat := 16

def linkBytes : Nat := 24

structure Begun where
  state : String
  authorizeUrl : String
  expireAt : Nat
  deriving DecidableEq, Repr

inductive Begin
  | start (action : Action) (session : Option String) (h : Handle)
  | storing (action : Action) (uid : Option Int64) (h : Handle)
  deriving DecidableEq, Repr

def Begin.step (c : Begin) (s : Service) : Step Begin (Except Error Begun) × Service :=
  match c with
  | start action session h =>
    match s.setup.oauth with
    | none => (.done (.error .notConfigured), s)
    | some _ =>
      match action with
      | .login => (.more (.storing .login none h), s)
      | .link =>
        match s.authenticate session with
        | .error e => (.done (.error (.ofAuth e)), s)
        | .ok uid => (.more (.storing .link (some uid) h), s)
  | storing action uid h =>
    match s.setup.oauth with
    | none => (.done (.error .notConfigured), s)
    | some (o, _) =>
      match authorizeUrl o h.text with
      | .error e => (.done (.error (.internal e.message)), s)
      | .ok url =>
        match s.put h (State.mk .issued action uid) s.setup.oauthTtl with
        | (.error e, s) => (.done (.error (.ofStore e)), s)
        | (.ok e, s) => (.done (.ok ⟨h.text, url, e.expireAt⟩), s)

inductive Outcome
  | linked (uid : Int64)
  | loggedIn (uid : Int64) (session : String)
  | pendingLink (token : String) (expireAt : Nat)
  deriving DecidableEq, Repr

/-- What a callback may need chance for: a session, or the handle of a link. -/
structure Chance where
  session : List UInt8
  link : Handle
  deriving DecidableEq, Repr

inductive Callback
  | start (state code : String) (denied : Option String) (chance : Chance)
  | exchanging (state : State) (code : String) (chance : Chance)
  | linking (uid : Int64) (i : Identity)
  | searching (i : Identity) (chance : Chance)
  | minting (uid : Int64) (random : List UInt8)
  | matching (i : Identity) (chance : Chance)
  | storing (uid : Int64) (i : Identity) (h : Handle)
  deriving DecidableEq, Repr

def precheck (state code : String) (denied : Option String) (s : Service) :
    Except Error (Handle × String) :=
  if s.setup.oauth.isNone then .error .notConfigured
  else match denied.bind Text.nonBlank with
    | some text => .error (.denied text)
    | none =>
      match Text.nonBlank code, Handle.parse state stateBytes with
      | some code, some h => .ok (h, code)
      | _, _ => .error .stateInvalid

def Callback.step (c : Callback) (s : Service) : Step Callback (Except Error Outcome) × Service :=
  match c with
  | start state code denied chance =>
    match precheck state code denied s with
    | .error e => (.done (.error e), s)
    | .ok (h, code) =>
      match s.takeOnce (P := State) h with
      | (.error e, s) => (.done (.error (.ofTake e)), s)
      | (.ok e, s) => (.more (.exchanging e.payload code chance), s)
  | exchanging state code chance =>
    match s.setup.oauth with
    | none => (.done (.error .notConfigured), s)
    | some (_, provider) =>
      match provider code with
      | .error e => (.done (.error (.provider e)), s)
      | .ok i =>
        match state.action, state.userId.filter (0 < ·) with
        | .link, some uid => (.more (.linking uid i), s)
        | .link, none => (.done (.error (.unauthorized .invalid)), s)
        | .login, _ => (.more (.searching i chance), s)
  | linking uid i =>
    match s.linkUser uid i with
    | (.error e, s) => (.done (.error (.ofLink e)), s)
    | (.ok (), s) => (.done (.ok (.linked uid)), s)
  | searching i chance =>
    match s.findByProvider i.providerId with
    | .error e => (.done (.error (.ofUsers e)), s)
    | .ok (some u) => (.more (.minting u.id chance.session), s)
    | .ok none => (.more (.matching i chance), s)
  | minting uid random =>
    match s.mint uid random with
    | none => (.blocked, s)
    | some (.error e) => (.done (.error (.sessionMint e.message)), s)
    | some (.ok session) => (.done (.ok (.loggedIn uid session)), s)
  | matching i chance =>
    match i.email with
    | none => (.done (.error .noLinkedAccount), s)
    | some email =>
      match s.findByEmail email with
      | .error e => (.done (.error (.ofUsers e)), s)
      | .ok found =>
        match found.filter (·.providerId.isNone) with
        | some u => (.more (.storing u.id i chance.link), s)
        | none => (.done (.error .noLinkedAccount), s)
  | storing uid i h =>
    match s.put h (PendingLink.mk .issued uid i) s.setup.oauthTtl with
    | (.error e, s) => (.done (.error (.ofStore e)), s)
    | (.ok e, s) => (.done (.ok (.pendingLink h.text e.expireAt)), s)

structure LinkView where
  identity : Identity
  username : String
  avatarUrl : Option String
  expireAt : Nat
  deriving DecidableEq, Repr

inductive Peek
  | start (token : String)
  | finding (e : Entry PendingLink)
  deriving DecidableEq, Repr

def Peek.step (c : Peek) (s : Service) : Step Peek (Except LinkError LinkView) × Service :=
  match c with
  | start token =>
    match Handle.parse token linkBytes with
    | none => (.done (.error .invalid), s)
    | some h =>
      match s.get h with
      | (.error e, s) => (.done (.error (.ofStore e)), s)
      | (.ok e, s) => (.more (.finding e), s)
  | finding e =>
    match s.findById e.payload.userId with
    | .error err => (.done (.error (.internal err.message)), s)
    | .ok none => (.done (.error .userNotFound), s)
    | .ok (some u) => (.done (.ok ⟨e.payload.identity, u.username, u.avatarUrl, e.expireAt⟩), s)

structure Linked where
  uid : Int64
  session : String
  deriving DecidableEq, Repr

inductive ConfirmLink
  | start (token : String) (random : List UInt8)
  | linking (l : PendingLink) (random : List UInt8)
  | minting (uid : Int64) (random : List UInt8)
  deriving DecidableEq, Repr

def ConfirmLink.step (c : ConfirmLink) (s : Service) :
    Step ConfirmLink (Except LinkError Linked) × Service :=
  match c with
  | start token random =>
    match Handle.parse token linkBytes with
    | none => (.done (.error .invalid), s)
    | some h =>
      match s.takeOnce (P := PendingLink) h with
      | (.error e, s) => (.done (.error (.ofStore e)), s)
      | (.ok e, s) => (.more (.linking e.payload random), s)
  | linking l random =>
    match s.linkUser l.userId l.identity with
    | (.error e, s) => (.done (.error (.ofLink e)), s)
    | (.ok (), s) => (.more (.minting l.userId random), s)
  | minting uid random =>
    match s.mint uid random with
    | none => (.blocked, s)
    | some (.error e) => (.done (.error (.sessionMint e.message)), s)
    | some (.ok session) => (.done (.ok ⟨uid, session⟩), s)

end Handoff.OAuth
