import Handoff.Identity
import Handoff.Rendezvous.Stage

namespace Handoff.OAuth

inductive Action
  | login
  | link
  deriving DecidableEq, Repr

namespace Action

def text : Action → String
  | login => "login"
  | link => "link"

def ofText? (s : String) : Option Action :=
  if s = "login" then some login else if s = "link" then some link else none

def parse (raw : String) : Option Action :=
  let s := Text.trim raw
  if s.isEmpty then some login else ofText? s

end Action

/-- A user id comes with `link` only. -/
structure State where
  stage : OneShot
  action : Action
  userId : Option Int64
  deriving DecidableEq, Repr

def optInt : Option Int64 → Json
  | some i => .int i.toInt
  | none => .null

namespace State

def toJson (s : State) : Json :=
  .obj [("stage", .str s.stage.text), ("action", .str s.action.text), ("user_id", optInt s.userId)]

def record :=
  ((Json.required "stage" (Json.readEnum OneShot.ofText?)).and <|
    (Json.required "action" (Json.readEnum Action.ofText?)).and <|
    Json.optional "user_id" Json.readInt64).map
    fun (s, a, u) => (⟨s, a, u⟩ : State)

instance : Staged State OneShot :=
  ⟨.oauthState, stage, fun s _ p => { p with stage := s }, toJson, record.read⟩

end State

structure PendingLink where
  stage : OneShot
  userId : Int64
  identity : Identity
  deriving DecidableEq, Repr

namespace PendingLink

def toJson (l : PendingLink) : Json :=
  .obj [("stage", .str l.stage.text), ("user_id", .int l.userId.toInt),
    ("identity", l.identity.toJson)]

def record :=
  ((Json.required "stage" (Json.readEnum OneShot.ofText?)).and <|
    (Json.required "user_id" Json.readInt64).and <|
    Json.required "identity" Identity.record.read).map
    fun (s, u, i) => (⟨s, u, i⟩ : PendingLink)

instance : Staged PendingLink OneShot :=
  ⟨.pendingLink, stage, fun s _ p => { p with stage := s }, toJson, record.read⟩

end PendingLink

end Handoff.OAuth
