import Handoff.Config
import Handoff.Faults
import Handoff.Hub
import Handoff.Qr.Token
import Handoff.Rendezvous.Storage
import Handoff.Session.Carrier
import Handoff.Session.Token
import Handoff.Users
/-!
The service and what it can do in one step. A call from outside takes several of these steps, and
between any two of them other calls may take theirs.
-/

namespace Handoff

abbrev Provider := String → Except IdentityError Identity

/-- What does not change while the service runs. -/
structure Setup where
  qrKey : Option Gcm.Key
  issuer : Session.Issuer
  qrTtl : Nat
  oauthTtl : Nat
  oauth : Option (OAuthSettings × Provider)
  cookieSecure : Bool

structure Service where
  setup : Setup
  now : Nat
  storage : Storage
  hub : Hub
  users : Users
  faults : Faults

inductive AuthFailure
  | missing
  | invalid
  deriving DecidableEq, Repr

def AuthFailure.text : AuthFailure → String
  | missing => "Missing"
  | invalid => "Invalid"

inductive AuthError
  | rejected (why : AuthFailure)
  | backend (text : String)
  deriving DecidableEq, Repr

def AuthError.message : AuthError → String
  | rejected why => "session rejected: " ++ why.text
  | backend text => "user lookup failed: " ++ text

/-- What a step of a call comes to: the rest of the call, its answer, or that it has to wait. -/
inductive Step (C A : Type)
  | more (c : C)
  | done (a : A)
  | blocked
  deriving DecidableEq, Repr

namespace Service

variable {P S : Type}

section Stores

variable [DecidableEq S] [Stage S] [Staged P S] [Shelved P]

def failure (kind : Kind) (op : StoreOp) (s : Service) : Option StoreError :=
  s.faults.store kind op

def put (h : Handle) (p : P) (ttl : Nat) (s : Service) : Except StoreError (Entry P) × Service :=
  match s.failure (Staged.kind P) .put with
  | some e => (.error e, s)
  | none =>
    let (r, storage) := s.storage.put s.now h p ttl
    (r, { s with storage })

def get (h : Handle) (s : Service) : Except StoreError (Entry P) × Service :=
  match s.failure (Staged.kind P) .get with
  | some e => (.error e, s)
  | none =>
    let (r, storage) := s.storage.get s.now h
    (r, { s with storage })

def take (h : Handle) (expected next : S) (s : Service) : Except StoreError (Entry P) × Service :=
  match s.failure (Staged.kind P) .take with
  | some e => (.error e, s)
  | none =>
    let (r, storage) := s.storage.take s.now h expected next
    (r, { s with storage })

def takeOnce {P : Type} [Staged P OneShot] [Shelved P] (h : Handle) (s : Service) :
    Except StoreError (Entry P) × Service :=
  s.take h OneShot.issued OneShot.consumed

variable (P)

def delete (h : Handle) (s : Service) : Except StoreError Bool × Service :=
  match s.failure (Staged.kind P) .delete with
  | some e => (.error e, s)
  | none =>
    let (r, storage) := s.storage.delete P h
    (r, { s with storage })

def size (s : Service) : Except StoreError Nat :=
  match s.failure (Staged.kind P) .size with
  | some e => .error e
  | none => (s.storage.size P).1

def sweepStore (s : Service) : Except StoreError Nat × Service :=
  match s.failure (Staged.kind P) .sweep with
  | some e => (.error e, s)
  | none =>
    let (r, storage) := s.storage.sweep P s.now
    (r, { s with storage })

end Stores

def publish (h : Handle) (m : Qr.Message) (s : Service) : Service :=
  { s with hub := (s.hub.publish h m).2 }

def verify (token : String) (s : Service) : Except Session.Error Session.Claims :=
  match s.faults.verify with
  | some text => .error (.internal text)
  | none => s.setup.issuer.verify s.now token

/-- A new session for the user; nothing while signing does not answer. -/
def mint (uid : Int64) (random : List UInt8) (s : Service) : Option (Except Session.Error String) :=
  match s.faults.issue with
  | some .stalls => none
  | some (.fails text) => some (.error (.internal text))
  | none => some (.ok (s.setup.issuer.issue s.now uid random))

def userFailure (op : UserOp) (s : Service) : Except UserError Unit :=
  match s.faults.users op with
  | some text => .error (.backend text)
  | none => .ok ()

def findById (id : Int64) (s : Service) : Except UserError (Option User) := do
  s.userFailure .byId
  return s.users.findById id

def findByProvider (provider : String) (s : Service) : Except UserError (Option User) := do
  s.userFailure .byProvider
  return s.users.findByProvider provider

def findByEmail (email : String) (s : Service) : Except UserError (Option User) := do
  s.userFailure .byEmail
  return s.users.findByEmail email

def linkUser (id : Int64) (i : Identity) (s : Service) : Except UserError Unit × Service :=
  match (do s.userFailure .link; s.users.link id i) with
  | .error e => (.error e, s)
  | .ok users => (.ok (), { s with users })

def authenticate (session : Option String) (s : Service) : Except AuthError Int64 :=
  match session.bind Text.nonBlank with
  | none => .error (.rejected .missing)
  | some token =>
    match s.verify token with
    | .error _ => .error (.rejected .invalid)
    | .ok claims =>
      if claims.uid ≤ 0 then .error (.rejected .invalid)
      else match s.findById claims.uid with
        | .error e => .error (.backend e.message)
        | .ok none => .error (.rejected .invalid)
        | .ok (some _) => .ok claims.uid

inductive Target
  | store (kind : Kind)
  | topics
  deriving DecidableEq, Repr

def targets : List Target :=
  [.store .qrSession, .store .oauthState, .store .pendingLink, .topics]

def sweepTarget (t : Target) (s : Service) : Except StoreError Nat × Service :=
  match t with
  | .store .qrSession => s.sweepStore Qr.Session
  | .store .oauthState => s.sweepStore OAuth.State
  | .store .pendingLink => s.sweepStore OAuth.PendingLink
  | .topics => (.ok s.hub.sweep.1, { s with hub := s.hub.sweep.2 })

/-- A pass over the targets: counts what was removed and passes over failures. -/
def sweepAll (ts : List Target) (s : Service) : Nat × Service :=
  ts.foldl (fun (total, s) t =>
    let (r, s) := s.sweepTarget t
    (total + (r.toOption.getD 0), s)) (0, s)

def sweep (s : Service) : Nat × Service := s.sweepAll targets

/-- The number of stored entries, or zero if the store does not tell. -/
def count (P : Type) {S : Type} [DecidableEq S] [Stage S] [Staged P S] [Shelved P] (s : Service) :
    Nat :=
  (s.size P).toOption.getD 0

def cookie (token : String) (s : Service) : Option String :=
  Session.setCookie token s.setup.issuer.ttl s.setup.cookieSecure

end Service

end Handoff
