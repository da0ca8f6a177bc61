import Handoff.Handle
import Handoff.Qr.Message
import Handoff.Text.Decimal
/-!
The hub: it passes messages about a handle on to those who have subscribed to it. A topic exists
while a handle may have subscribers; a terminal message ends its topic, and a subscription to an
ended topic is read out and then closed. Places for subscribers are counted on their own: one is
reserved before a subscription is attached and given back when the subscription is dropped.
-/

namespace Handoff

inductive NotifyError
  | tooManySubscribers (limit : Nat)
  deriving DecidableEq, Repr

def NotifyError.message : NotifyError → String
  | tooManySubscribers limit =>
    "too many concurrent subscribers (limit " ++ Text.natText limit ++ ")"

structure Subscription where
  id : Nat
  handle : Handle
  unread : List Qr.Message
  isOpen : Bool
  deriving DecidableEq, Repr

structure Hub where
  limit : Nat
  active : Nat
  topics : List Handle
  subscriptions : List Subscription
  nextId : Nat
  deriving DecidableEq, Repr

inductive Received
  | message (m : Qr.Message)
  | nothing
  | closed
  deriving DecidableEq, Repr

namespace Hub

def capacity : Nat := 16

def empty (limit : Nat) : Hub := ⟨limit, 0, [], [], 0⟩

def reserve (hub : Hub) : Except NotifyError Hub :=
  if hub.active < hub.limit then .ok { hub with active := hub.active + 1 }
  else .error (.tooManySubscribers hub.limit)

def release (hub : Hub) : Hub := { hub with active := hub.active - 1 }

def attach (h : Handle) (hub : Hub) : Nat × Hub :=
  (hub.nextId,
    { hub with
      topics := if h ∈ hub.topics then hub.topics else hub.topics ++ [h]
      subscriptions := hub.subscriptions ++ [⟨hub.nextId, h, [], true⟩]
      nextId := hub.nextId + 1 })

def subscribe (h : Handle) (hub : Hub) : Except NotifyError (Nat × Hub) :=
  hub.reserve.map (attach h)

/-- The subscription hears what is published for the handle now. -/
def hears (h : Handle) (s : Subscription) : Bool := s.isOpen ∧ s.handle = h

def keepLast (ms : List Qr.Message) : List Qr.Message := ms.drop (ms.length - capacity)

def deliver (m : Qr.Message) (s : Subscription) : Subscription :=
  { s with unread := keepLast (s.unread ++ [m]), isOpen := !m.status.isTerminal }

/-- Gives the message to all who hear it, if the handle has a topic, and counts them. -/
def publish (h : Handle) (m : Qr.Message) (hub : Hub) : Nat × Hub :=
  let topics := if m.status.isTerminal then hub.topics.filter (· ≠ h) else hub.topics
  if h ∈ hub.topics then
    ((hub.subscriptions.filter (hears h)).length,
      { hub with
        topics
        subscriptions := hub.subscriptions.map fun s => if hears h s then deliver m s else s })
  else (0, { hub with topics })

def find? (id : Nat) (hub : Hub) : Option Subscription := hub.subscriptions.find? (·.id = id)

def receive (id : Nat) (hub : Hub) : Received × Hub :=
  match hub.find? id with
  | none => (.closed, hub)
  | some s =>
    match s.unread with
    | m :: rest =>
      (.message m, { hub with subscriptions := hub.subscriptions.map fun t =>
        if t.id = id then { t with unread := rest } else t })
    | [] => (if s.isOpen then .nothing else .closed, hub)

def drop (id : Nat) (hub : Hub) : Hub :=
  match hub.find? id with
  | none => hub
  | some _ => { hub.release with subscriptions := hub.subscriptions.filter (·.id ≠ id) }

def sweep (hub : Hub) : Nat × Hub :=
  let kept := hub.topics.filter fun h => hub.subscriptions.any (hears h)
  (hub.topics.length - kept.length, { hub with topics := kept })

end Hub

end Handoff
