import Handoff.Proofs.Run.Alone
import Mathlib.Data.List.Nodup
import Mathlib.Logic.Function.Basic

namespace Handoff

open Qr (Error Issued Snapshot Scanned Status Message Change)

namespace Desk

inductive Errand
  | issue (ip agent : String) (h : Handle) (nonce : List UInt8)
  | status (token : String)
  | scan (token : String)
  | confirm (token : String) (session : Option String) (random : List UInt8)
  | cancel (token : String)
  | wait (token : String) (known : Option Status) (timeout : Nat)
  | watch (token : String)
  | subscribe (h : Handle)
  | receive (h : Handle) (i : Nat)
  | next (h : Handle) (i : Nat) (known : Status)
  | drop (h : Handle) (i : Nat)
  | sweep (t : Service.Target)
  | pass (ms : Nat)
  | fail (fs : Faults)
  | removeUser (uid : Int64)

/-- The answers; there is none where a call would wait for ever. -/
inductive Errand.Reply
  | issued (r : Except Error Issued)
  | status (r : Except Error Snapshot)
  | scanned (r : Option (Except Error Scanned))
  | confirmed (r : Option (Except Error Unit))
  | cancelled (r : Option Unit)
  | waited (r : Option (Except Error (Option Message)))
  | watched (r : Option (Except Error Message))
  | subscribed (r : Except NotifyError Unit)
  | received (r : Received)
  | changed (c : Change)
  | dropped (r : Unit)
  | swept (r : Except StoreError Nat)
  | noted

def Errand.Reply.isRefusal : Errand.Reply → Bool
  | waited (some (.error .busy)) => true
  | watched (some (.error .busy)) => true
  | subscribed (.error _) => true
  | _ => false

def Errand.Reply.session? : Errand.Reply → Option String
  | waited (some (.ok (some m))) => m.sessionToken
  | watched (some (.ok m)) => m.sessionToken
  | received (.message m) => m.sessionToken
  | changed (.changed m) => m.sessionToken
  | _ => none

def Errand.subject (s : Service) : Errand → Option Handle
  | issue _ _ h _ => some h
  | status token => (Qr.resolve token s).toOption
  | scan token => (Qr.resolve token s).toOption
  | confirm token _ _ => (Qr.resolve token s).toOption
  | cancel token => (Qr.resolve token s).toOption
  | wait token _ _ => (Qr.resolve token s).toOption
  | watch token => (Qr.resolve token s).toOption
  | subscribe h => some h
  | receive h _ => some h
  | next h _ _ => some h
  | drop h _ => some h
  | _ => none

abbrev Seats := Handle → List Nat

def Seats.take (h : Handle) (id : Nat) (seats : Seats) : Seats :=
  Function.update seats h (seats h ++ [id])

namespace Seats

variable {h k : Handle} {id : Nat} (seats : Seats)

@[simp] theorem take_self : seats.take h id h = seats h ++ [id] := Function.update_self ..

theorem take_of_ne (hk : k ≠ h) : seats.take h id k = seats k := Function.update_of_ne hk ..

theorem mem_take {i : Nat} : i ∈ seats.take h id k ↔ i ∈ seats k ∨ i = id ∧ k = h := by
  by_cases hk : k = h
  · subst hk
    simp
  · simp [take_of_ne seats hk, hk]

theorem nodup_take (hn : ∀ k, (seats k).Nodup) (hid : id ∉ seats h) (k : Handle) :
    (seats.take h id k).Nodup := by
  by_cases hk : k = h
  · subst hk
    rw [take_self, ← List.concat_eq_append]
    exact (hn k).concat hid
  · rw [take_of_ne seats hk]
    exact hn k

end Seats

def look {A : Type} (absent : A) (f : Nat → Service → A × Service) (id : Option Nat) (s : Service) :
    A × Service :=
  id.elim (absent, s) fun id => f id s

def read (id : Nat) (s : Service) : Received × Service :=
  Prod.map (fun r => r) (fun hub => { s with hub }) (s.hub.receive id)

def leave (id : Nat) (s : Service) : Unit × Service := ((), Qr.unsubscribe id s)

end Desk

open Desk

structure Desk where
  server : Server
  seats : Seats

structure Rest where
  service : Service
  seats : Seats

namespace Desk

def start (setup : Setup) (backend : Backend) (limit : Nat) (users : Users) (now : UInt64)
    (entropy : Entropy) : Desk :=
  ⟨.ofService entropy (World.start setup backend limit users now).service, fun _ => []⟩

def ask {A : Type} (f : Server → A × Server) (g : A → Errand.Reply) (d : Desk) :
    Errand.Reply × Desk :=
  (g (f d.server).1, { d with server := (f d.server).2 })

def change (f : Service → Service) (d : Desk) : Errand.Reply × Desk :=
  (.noted, { d with server := { d.server with service := f d.server.service } })

def perform (q : Errand) (d : Desk) : Errand.Reply × Desk :=
  match q with
  | .issue ip agent h nonce => d.ask (·.act (Qr.issue ip agent h nonce)) .issued
  | .status token => d.ask (·.act (Qr.status token)) .status
  | .scan token => d.ask (·.run Qr.Scan.step (.start token)) .scanned
  | .confirm token session random =>
    d.ask (·.run Qr.Confirm.step (.start token session random)) .confirmed
  | .cancel token => d.ask (·.run Qr.Cancel.step (.start token)) .cancelled
  | .wait token known timeout =>
    d.ask (·.await Qr.Wait.step Qr.Wait.due (.watching (.start token) known timeout)) .waited
  | .watch token =>
    match d.server.run Qr.Watch.step (.start token) with
    | (some (.ok v), server) =>
      (.watched (some (.ok v.current)), ⟨server, (Qr.resolve token d.server.service).toOption.elim
        d.seats fun h => d.seats.take h v.subscription⟩)
    | (some (.error e), server) => (.watched (some (.error e)), { d with server })
    | (none, server) => (.watched none, { d with server })
  | .subscribe h =>
    match d.server.service.hub.subscribe h with
    | .error e => (.subscribed (.error e), d)
    | .ok (id, hub) => (.subscribed (.ok ()),
      ⟨{ d.server with service := { d.server.service with hub } }, d.seats.take h id⟩)
  | .receive h i => d.ask (·.act (look .closed read (d.seats h)[i]?)) .received
  | .next h i known =>
    d.ask (·.act (look .ended (Qr.advanceChange · known) (d.seats h)[i]?)) .changed
  | .drop h i => d.ask (·.act (look () leave (d.seats h)[i]?)) .dropped
  | .sweep t => d.ask (·.act (Service.sweepTarget t)) .swept
  | .pass ms => d.change fun s => { s with now := Text.addTime s.now ms }
  | .fail fs => d.change fun s => { s with faults := fs }
  | .removeUser uid => d.change fun s => { s with users := s.users.remove uid }

def trace : List Errand → Desk → List (Errand × Errand.Reply)
  | [], _ => []
  | q :: qs, d => (q, (d.perform q).1) :: trace qs (d.perform q).2

def after (qs : List Errand) (d : Desk) : Desk := qs.foldl (fun d q => (d.perform q).2) d

def rest (d : Desk) : Rest := ⟨d.server.service, d.seats⟩

end Desk

namespace Rest

def ask {A : Type} (f : Service → A × Service) (g : A → Errand.Reply) (r : Rest) :
    Errand.Reply × Rest :=
  (g (f r.service).1, { r with service := (f r.service).2 })

def change (f : Service → Service) (r : Rest) : Errand.Reply × Rest :=
  (.noted, { r with service := f r.service })

def perform (q : Errand) (r : Rest) : Errand.Reply × Rest :=
  match q with
  | .issue ip agent h nonce => r.ask (Qr.issue ip agent h nonce) .issued
  | .status token => r.ask (Qr.status token) .status
  | .scan token => r.ask (Qr.Scan.alone token) fun a => .scanned (some a)
  | .confirm token session random => r.ask (Qr.Confirm.alone token session random) .confirmed
  | .cancel token => r.ask (Qr.Cancel.alone token) fun a => .cancelled (some a)
  | .wait token known _ => r.ask (Qr.Wait.alone token known) fun a => .waited (some a)
  | .watch token =>
    match Qr.Watch.alone token r.service with
    | (.ok v, s) => (.watched (some (.ok v.current)), ⟨s, (Qr.resolve token r.service).toOption.elim
        r.seats fun h => r.seats.take h v.subscription⟩)
    | (.error e, s) => (.watched (some (.error e)), { r with service := s })
  | .subscribe h =>
    match r.service.hub.subscribe h with
    | .error e => (.subscribed (.error e), r)
    | .ok (id, hub) => (.subscribed (.ok ()), ⟨{ r.service with hub }, r.seats.take h id⟩)
  | .receive h i => r.ask (look .closed read (r.seats h)[i]?) .received
  | .next h i known => r.ask (look .ended (Qr.advanceChange · known) (r.seats h)[i]?) .changed
  | .drop h i => r.ask (look () leave (r.seats h)[i]?) .dropped
  | .sweep t => r.ask (Service.sweepTarget t) .swept
  | .pass ms => r.change fun s => { s with now := Text.addTime s.now ms }
  | .fail fs => r.change fun s => { s with faults := fs }
  | .removeUser uid => r.change fun s => { s with users := s.users.remove uid }

end Rest

namespace Desk

variable {d : Desk}

theorem ask_rest {A : Type} {f : Server → A × Server} {g : Service → A × Service}
    {server : Server} (hf : f d.server = ((g d.server.service).1, server)) (hi : server.Idle)
    (hs : server.service = (g d.server.service).2) (reply : A → Errand.Reply) :
    (d.ask f reply).1 = (d.rest.ask g reply).1 ∧ (d.ask f reply).2.rest = (d.rest.ask g reply).2 ∧
      (d.ask f reply).2.server.Idle := by
  unfold ask Rest.ask rest
  rw [hf]
  exact ⟨rfl, congrArg (Rest.mk · _) hs, hi⟩

/-- With nothing else under way an errand comes to what is said in one piece. -/
theorem perform_rest (hi : d.server.Idle)
    (hg : ∀ t ∈ d.server.service.hub.subscriptions, t.id < d.server.service.hub.nextId)
    (q : Errand) : (d.perform q).1 = (d.rest.perform q).1 ∧
      (d.perform q).2.rest = (d.rest.perform q).2 ∧ (d.perform q).2.server.Idle := by
  have hs := hi.setService
  cases q with
  | issue | status | receive | next | drop | sweep => exact ask_rest (hi.act _) (hs _) rfl _
  | scan token =>
    exact ask_rest (g := fun s => Prod.map some id (Qr.Scan.alone token s))
      (hi.run_of_finishes (Qr.Scan.finishes token _) (by decide)) (hs _) rfl _
  | confirm token session random =>
    exact ask_rest (Qr.Confirm.run_alone hi token session random) (hs _) rfl _
  | cancel token =>
    exact ask_rest (g := fun s => Prod.map some id (Qr.Cancel.alone token s))
      (hi.run_of_finishes (Qr.Cancel.finishes token _) (by decide)) (hs _) rfl _
  | wait token known timeout =>
    obtain ⟨elapsed, hw⟩ := Qr.Wait.await_alone hi hg token known timeout
    exact ask_rest (g := fun s => Prod.map some id (Qr.Wait.alone token known s)) hw
      ⟨hi.tasks, hi.sockets⟩ rfl _
  | watch token =>
    have hw := hi.run_of_finishes (Qr.Watch.finishes token hg) (by decide)
    have hr : d.rest.service = d.server.service := rfl
    rw [perform, hw, Rest.perform, hr]
    obtain ⟨r, s⟩ := Qr.Watch.alone token d.server.service
    cases r <;> exact ⟨rfl, rfl, hs _⟩
  | subscribe h =>
    have hr : d.rest.service = d.server.service := rfl
    rw [perform, Rest.perform, hr]
    cases d.server.service.hub.subscribe h with
    | error e => exact ⟨rfl, rfl, hi⟩
    | ok x => exact ⟨rfl, rfl, hs _⟩
  | pass | fail | removeUser => exact ⟨rfl, rfl, hs _⟩

end Desk

end Handoff
