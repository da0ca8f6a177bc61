import Handoff.OAuth.Calls
import Handoff.Qr.Calls

namespace Handoff

namespace Step

variable {C C' A A' : Type}

def lift (f : C → C') (g : A → A') : Step C A × Service → Step C' A' × Service
  | (.more c, s) => (.more (f c), s)
  | (.done a, s) => (.done (g a), s)
  | (.blocked, s) => (.blocked, s)

def rest (c : C) : Step C A → Option C
  | .more c => some c
  | .done _ => none
  | .blocked => some c

end Step

namespace Qr

/-- A desktop that follows its sign-in: the snapshot of its watch, and the changes since then. -/
inductive Follow
  | watching (w : Watch)
  | listening (subscription : Nat) (current : Message) (changes : List Message)
  deriving DecidableEq, Repr

def Follow.known (current : Message) (changes : List Message) : Status :=
  (changes.getLastD current).status

def Follow.step (c : Follow) (s : Service) :
    Step Follow (Except Error (Message × List Message)) × Service :=
  match c with
  | watching w =>
    match w.step s with
    | (.more w, s) => (.more (.watching w), s)
    | (.blocked, s) => (.blocked, s)
    | (.done (.error e), s) => (.done (.error e), s)
    | (.done (.ok v), s) =>
      if v.current.status.isTerminal then
        (.done (.ok (v.current, [])), unsubscribe v.subscription s)
      else (.more (.listening v.subscription v.current []), s)
  | listening id current changes =>
    match advanceChange id (known current changes) s with
    | (.changed m, s) => (.more (.listening id current (changes ++ [m])), s)
    | (.unchanged, s) => (.blocked, s)
    | (.ended, s) => (.done (.ok (current, changes)), unsubscribe id s)

def Watch.leave : Watch → Service → Service
  | start _, s => s
  | attaching _, s => { s with hub := s.hub.release }
  | reading _ id, s => unsubscribe id s
  | draining id, s => unsubscribe id s

end Qr

inductive Call
  | issue (ip agent : String) (h : Handle) (nonce : List UInt8)
  | status (token : String)
  | scan (c : Qr.Scan)
  | confirm (c : Qr.Confirm)
  | cancel (c : Qr.Cancel)
  | wait (c : Qr.Wait)
  | follow (c : Qr.Follow)
  | oauthBegin (c : OAuth.Begin)
  | oauthCallback (c : OAuth.Callback)
  | peek (c : OAuth.Peek)
  | confirmLink (c : OAuth.ConfirmLink)

inductive Answer
  | issue (r : Except Qr.Error Qr.Issued)
  | status (r : Except Qr.Error Qr.Snapshot)
  | scan (r : Except Qr.Error Qr.Scanned)
  | confirm (r : Except Qr.Error Unit)
  | cancel
  | wait (r : Except Qr.Error (Option Qr.Message))
  | follow (r : Except Qr.Error (Qr.Message × List Qr.Message))
  | oauthBegin (r : Except OAuth.Error OAuth.Begun)
  | oauthCallback (r : Except OAuth.Error OAuth.Outcome)
  | peek (r : Except OAuth.LinkError OAuth.LinkView)
  | confirmLink (r : Except OAuth.LinkError OAuth.Linked)

namespace Call

/-- One step at the time `elapsed` of the timers. Issuing and asking for the status take one step
in all. -/
def step (elapsed : Nat) (c : Call) (s : Service) : Step Call Answer × Service :=
  match c with
  | issue ip agent h nonce =>
    let (r, s) := Qr.issue ip agent h nonce s
    (.done (.issue r), s)
  | status token =>
    let (r, s) := Qr.status token s
    (.done (.status r), s)
  | scan c => Step.lift .scan .scan (c.step s)
  | confirm c => Step.lift .confirm .confirm (c.step s)
  | cancel c => Step.lift .cancel (fun _ => .cancel) (c.step s)
  | wait c => Step.lift .wait .wait (c.step elapsed s)
  | follow c => Step.lift .follow .follow (c.step s)
  | oauthBegin c => Step.lift .oauthBegin .oauthBegin (c.step s)
  | oauthCallback c => Step.lift .oauthCallback .oauthCallback (c.step s)
  | peek c => Step.lift .peek .peek (c.step s)
  | confirmLink c => Step.lift .confirmLink .confirmLink (c.step s)

def isStart : Call → Bool
  | issue .. => true
  | status _ => true
  | scan (.start _) => true
  | confirm (.start ..) => true
  | cancel (.start _) => true
  | wait (.watching (.start _) _ _) => true
  | follow (.watching (.start _)) => true
  | oauthBegin (.start ..) => true
  | oauthCallback (.start ..) => true
  | peek (.start _) => true
  | confirmLink (.start ..) => true
  | _ => false

def handles : Call → List Handle
  | issue _ _ h _ => [h]
  | oauthBegin (.start _ _ h) => [h]
  | oauthCallback (.start _ _ _ chance) => [chance.link]
  | _ => []

def watch? : Call → Option Qr.Watch
  | wait (.watching w _ _) => some w
  | follow (.watching w) => some w
  | _ => none

def leave? (s : Service) : Call → Option Service
  | wait (.watching w _ _) => some (w.leave s)
  | wait (.listening id _ _) => some (Qr.unsubscribe id s)
  | follow (.watching w) => some (w.leave s)
  | follow (.listening id _ _) => some (Qr.unsubscribe id s)
  | _ => none

end Call

end Handoff
