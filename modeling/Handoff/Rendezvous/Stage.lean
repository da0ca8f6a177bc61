import Handoff.Handle
import Handoff.Json.Printer
import Handoff.Json.Record
import Handoff.Text.Decimal

namespace Handoff

class Stage (S : Type) where
  text : S → String
  isTerminal : S → Bool

inductive Kind
  | qrSession
  | oauthState
  | pendingLink
  deriving DecidableEq, Repr

def Kind.text : Kind → String
  | qrSession => "qr_session"
  | oauthState => "oauth_state"
  | pendingLink => "pending_link"

class Staged (P : Type) (S : outParam Type) [Stage S] where
  kind : Kind
  stage : P → S
  advance : S → Nat → P → P
  toJson : P → Json
  read : Json.Reader P

inductive OneShot
  | issued
  | consumed
  deriving DecidableEq, Repr

namespace OneShot

def text : OneShot → String
  | issued => "issued"
  | consumed => "consumed"

def ofText? (s : String) : Option OneShot :=
  if s = "issued" then some issued else if s = "consumed" then some consumed else none

def isTerminal : OneShot → Bool
  | issued => false
  | consumed => true

instance : Stage OneShot := ⟨text, isTerminal⟩

end OneShot

structure Entry (P : Type) where
  handle : Handle
  createdAt : Nat
  ttl : Nat
  payload : P
  deriving DecidableEq, Repr

namespace Entry

variable {P : Type}

def expireAt (e : Entry P) : Nat := Text.addTime e.createdAt e.ttl

/-- At its last millisecond an entry is still there. -/
def isExpired (now : Nat) (e : Entry P) : Bool := e.expireAt < now

end Entry

inductive StoreError
  | notFound
  | conflict (current : String)
  | duplicate
  | backend (text : String)
  deriving DecidableEq, Repr

def StoreError.message : StoreError → String
  | notFound => "rendezvous entry not found"
  | conflict current => "rendezvous entry is in stage `" ++ current ++ "`"
  | duplicate => "rendezvous handle already exists"
  | backend text => "rendezvous backend failure: " ++ text

end Handoff
