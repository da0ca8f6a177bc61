import Handoff.Qr.Agent
import Handoff.Service
import Handoff.Text.Clip
/-!
The calls of a sign-in by QR code. Each call is a little machine: a constructor for every point at
which other calls may come in between, and a `step` that goes from one such point to the next.

The desktop issues a token and watches it; the phone scans it and confirms; either side may cancel.
A confirmation is final once it has taken the entry out of the store: if no session can be made
then, the desktop is told that the sign-in is cancelled.
-/

namespace Handoff.Qr

inductive Error
  | invalidToken
  | notFound
  | conflict (current : String)
  | unauthorized (why : AuthFailure)
  | notConfigured
  | busy
  | sessionMint (text : String)
  | internal (text : String)
  deriving DecidableEq, Repr

namespace Error

def message : Error → String
  | invalidToken => "qr token is invalid"
  | notFound => "qr session not found or expired"
  | conflict current => "qr session is already `" ++ current ++ "`"
  | unauthorized why => "confirming session rejected: " ++ why.text
  | notConfigured => "qr login is not configured"
  | busy => "too many qr login waiters"
  | sessionMint text => "session mint failed: " ++ text
  | internal text => "qr login internal failure: " ++ text

def ofStore : StoreError → Error
  | .notFound => notFound
  | .conflict current => conflict current
  | e => internal e.message

def ofAuth : AuthError → Error
  | .rejected why => unauthorized why
  | .backend text => internal text

end Error

def maxAgent : Nat := 512

def handleBytes : Nat := 32

def openToken (token : String) (s : Service) : Except Error Token.Content :=
  match s.setup.qrKey with
  | none => .error .notConfigured
  | some key => (Token.unwrap key token).mapError fun _ => .invalidToken

def resolve (token : String) (s : Service) : Except Error Handle :=
  (openToken token s).map (·.handle)

structure Issued where
  token : String
  expireAt : Nat
  deriving DecidableEq, Repr

def issue (ip agent : String) (h : Handle) (nonce : List UInt8) (s : Service) :
    Except Error Issued × Service :=
  match s.setup.qrKey with
  | none => (.error .notConfigured, s)
  | some key =>
    let agent := Text.clip maxAgent (Text.trim agent)
    match s.put h (Session.pending ip agent) s.setup.qrTtl with
    | (.error e, s) => (.error (.ofStore e), s)
    | (.ok e, s) => (.ok ⟨Token.wrap key nonce ⟨h, e.createdAt⟩, e.expireAt⟩, s)

structure Snapshot where
  status : Status
  expireAt : Nat
  scannedAt : Option Nat
  deriving DecidableEq, Repr

def status (token : String) (s : Service) : Except Error Snapshot × Service :=
  match resolve token s with
  | .error e => (.error e, s)
  | .ok h =>
    match s.get (P := Session) h with
    | (.error e, s) => (.error (.ofStore e), s)
    | (.ok e, s) => (.ok ⟨e.payload.status, e.expireAt, e.payload.scannedAt⟩, s)

structure Scanned where
  desktop : Desktop
  expireAt : Nat
  deriving DecidableEq, Repr

inductive Scan
  | start (token : String)
  | publishing (h : Handle) (before : Entry Session)
  deriving DecidableEq, Repr

def Scan.step (c : Scan) (s : Service) : Step Scan (Except Error Scanned) × Service :=
  match c with
  | start token =>
    match resolve token s with
    | .error e => (.done (.error e), s)
    | .ok h =>
      match s.take h Status.pending Status.scanned with
      | (.error e, s) => (.done (.error (.ofStore e)), s)
      | (.ok before, s) => (.more (.publishing h before), s)
  | publishing h before =>
    (.done (.ok ⟨Agent.describe before.payload.desktopIp before.payload.desktopAgent,
      before.expireAt⟩), s.publish h (.ofStatus .scanned))

/-- `random` goes into the session that a confirmation makes. -/
inductive Confirm
  | start (token : String) (session : Option String) (random : List UInt8)
  | taking (uid : Int64) (token : String) (random : List UInt8)
  | minting (uid : Int64) (h : Handle) (random : List UInt8)
  | publishing (h : Handle) (m : Message) (answer : Except Error Unit)
  deriving Repr

def Confirm.step (c : Confirm) (s : Service) : Step Confirm (Except Error Unit) × Service :=
  match c with
  | start token session random =>
    match s.authenticate session with
    | .error e => (.done (.error (.ofAuth e)), s)
    | .ok uid => (.more (.taking uid token random), s)
  | taking uid token random =>
    match resolve token s with
    | .error e => (.done (.error e), s)
    | .ok h =>
      match s.take (P := Session) h Status.scanned Status.confirmed with
      | (.error e, s) => (.done (.error (.ofStore e)), s)
      | (.ok _, s) => (.more (.minting uid h random), s)
  | minting uid h random =>
    match s.mint uid random with
    | none => (.blocked, s)
    | some (.error e) =>
      (.more (.publishing h (.ofStatus .cancelled) (.error (.sessionMint e.message))), s)
    | some (.ok session) => (.more (.publishing h (.confirmed session) (.ok ())), s)
  | publishing h m answer => (.done answer, s.publish h m)

/-- A cancellation never tells whether there was anything to cancel. -/
inductive Cancel
  | start (token : String)
  | publishing (h : Handle)
  deriving DecidableEq, Repr

def Cancel.step (c : Cancel) (s : Service) : Step Cancel Unit × Service :=
  match c with
  | start token =>
    match resolve token s with
    | .error _ => (.done (), s)
    | .ok h =>
      match s.delete Session h with
      | (.ok true, s) => (.more (.publishing h), s)
      | (_, s) => (.done (), s)
  | publishing h => (.done (), s.publish h (.ofStatus .cancelled))

structure Watching where
  subscription : Nat
  current : Message
  deriving DecidableEq, Repr

/-- Subscribes first and reads the entry then, so that nothing is missed in between. -/
inductive Watch
  | start (token : String)
  | attaching (h : Handle)
  | reading (h : Handle) (subscription : Nat)
  | draining (subscription : Nat)
  deriving DecidableEq, Repr

def unsubscribe (id : Nat) (s : Service) : Service := { s with hub := s.hub.drop id }

def Watch.step (c : Watch) (s : Service) : Step Watch (Except Error Watching) × Service :=
  match c with
  | start token =>
    match resolve token s with
    | .error e => (.done (.error e), s)
    | .ok h =>
      match s.hub.reserve with
      | .error _ => (.done (.error .busy), s)
      | .ok hub => (.more (.attaching h), { s with hub })
  | attaching h =>
    let (id, hub) := s.hub.attach h
    (.more (.reading h id), { s with hub })
  | reading h id =>
    match s.get (P := Session) h with
    | (.ok e, s) => (.done (.ok ⟨id, .ofStatus e.payload.status⟩), s)
    | (.error .notFound, s) => (.more (.draining id), s)
    | (.error e, s) => (.done (.error (.ofStore e)), unsubscribe id s)
  | draining id =>
    let (r, hub) := s.hub.receive id
    let s := { s with hub }
    match r with
    | .message m =>
      if m.status.isTerminal then (.done (.ok ⟨id, m⟩), s)
      else (.done (.error .notFound), unsubscribe id s)
    | _ => (.done (.error .notFound), unsubscribe id s)

inductive Change
  | changed (m : Message)
  | unchanged
  | ended
  deriving DecidableEq, Repr

def nextChange (id : Nat) (known : Status) : Nat → Hub → Change × Hub
  | 0, hub => (.unchanged, hub)
  | n + 1, hub =>
    match hub.receive id with
    | (.message m, hub) => if m.status ≠ known then (.changed m, hub) else nextChange id known n hub
    | (.nothing, hub) => (.unchanged, hub)
    | (.closed, hub) => (.ended, hub)

def advanceChange (id : Nat) (known : Status) (s : Service) : Change × Service :=
  let unread := ((s.hub.find? id).map (·.unread.length)).getD 0
  let (c, hub) := Qr.nextChange id known (unread + 1) s.hub
  (c, { s with hub })

inductive Wait
  | watching (w : Watch) (known : Option Status) (timeout : Nat)
  | listening (subscription : Nat) (known : Status) (deadline : Nat)
  deriving DecidableEq, Repr

/-- One step at the time `elapsed` of the timers. An answer of nothing means the time ran out. -/
def Wait.step (elapsed : Nat) (c : Wait) (s : Service) :
    Step Wait (Except Error (Option Message)) × Service :=
  match c with
  | watching w known timeout =>
    match w.step s with
    | (.more w, s) => (.more (.watching w known timeout), s)
    | (.blocked, s) => (.blocked, s)
    | (.done (.error e), s) => (.done (.error e), s)
    | (.done (.ok v), s) =>
      match known with
      | none => (.done (.ok (some v.current)), unsubscribe v.subscription s)
      | some known =>
        if v.current.status ≠ known ∨ v.current.status.isTerminal then
          (.done (.ok (some v.current)), unsubscribe v.subscription s)
        else (.more (.listening v.subscription known (elapsed + timeout)), s)
  | listening id known deadline =>
    match advanceChange id known s with
    | (.changed m, s) => (.done (.ok (some m)), unsubscribe id s)
    | (.ended, s) => (.done (.error .notFound), unsubscribe id s)
    | (.unchanged, s) =>
      if deadline ≤ elapsed then (.done (.ok none), unsubscribe id s) else (.blocked, s)

def Wait.due : Wait → Option Nat
  | listening _ _ deadline => some deadline
  | _ => none

end Handoff.Qr
