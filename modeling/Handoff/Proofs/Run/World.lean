import Handoff.Proofs.Run.Call
import Handoff.Startup
import Mathlib.Logic.Function.Basic
/-!
The service in a world where any number of calls are under way. In each turn somebody chooses what
happens next: a call begins or takes its next step, a waiting client goes away, time passes, the
reaper sweeps a target, something fails from now on. A run is any list of such choices; one that
cannot be carried out changes nothing. Every step of a call is kept in a log.
-/

namespace Handoff

/-- A step of a call: who took it, how the call and the service were before, and what came of it. -/
structure Record where
  id : Nat
  call : Call
  before : Service
  result : Step Call Answer
  after : Service

structure World where
  service : Service
  calls : Nat → Option Call
  fresh : Nat
  drawn : List Handle
  log : List Record

inductive Event
  | begin (c : Call) (elapsed : Nat)
  | step (id elapsed : Nat)
  | leave (id : Nat)
  | pass (ms : Nat)
  | sweep (t : Service.Target)
  | fail (fs : Faults)
  | removeUser (uid : Int64)

def Storage.fresh : Backend → Storage
  | .memory => .inMemory
  | .sqlite => .inTable

namespace World

def start (setup : Setup) (backend : Backend) (limit : Nat) (users : Users) (now : UInt64) : World :=
  { service := {
      setup
      now := now.toNat
      storage := .fresh backend
      hub := .empty limit
      users
      faults := .none }
    calls := fun _ => none
    fresh := 0
    drawn := []
    log := [] }

def record (id elapsed : Nat) (c : Call) (w : World) : Record :=
  ⟨id, c, w.service, (c.step elapsed w.service).1, (c.step elapsed w.service).2⟩

def perform (id elapsed : Nat) (c : Call) (w : World) : World :=
  let r := w.record id elapsed c
  { w with
    service := r.after
    calls := Function.update w.calls id (r.result.rest c)
    log := w.log ++ [r] }

theorem perform_calls_self (id elapsed : Nat) (c : Call) (w : World) :
    (w.perform id elapsed c).calls id = (c.step elapsed w.service).1.rest c :=
  Function.update_self ..

theorem perform_calls_of_ne {id k : Nat} (hk : k ≠ id) (elapsed : Nat) (c : Call) (w : World) :
    (w.perform id elapsed c).calls k = w.calls k :=
  Function.update_of_ne hk ..

/-- A handle is never drawn twice. -/
def admits (c : Call) (w : World) : Bool := c.isStart && c.handles.all (· ∉ w.drawn)

def next (w : World) : Event → World
  | .begin c elapsed =>
    if w.admits c then
      { w.perform w.fresh elapsed c with fresh := w.fresh + 1, drawn := c.handles ++ w.drawn }
    else w
  | .step id elapsed => (w.calls id).elim w fun c => w.perform id elapsed c
  | .leave id =>
    ((w.calls id).bind (·.leave? w.service)).elim w fun service =>
      { w with service, calls := Function.update w.calls id none }
  | .pass ms => { w with service := { w.service with now := Text.addTime w.service.now ms } }
  | .sweep t => { w with service := (w.service.sweepTarget t).2 }
  | .fail faults => { w with service := { w.service with faults } }
  | .removeUser uid =>
    { w with service := { w.service with users := w.service.users.remove uid } }

def run (w : World) (es : List Event) : World := es.foldl next w

@[simp] theorem run_nil (w : World) : w.run [] = w := rfl

@[simp] theorem run_cons (w : World) (e : Event) (es : List Event) :
    w.run (e :: es) = (w.next e).run es := rfl

theorem run_induction {P : World → Prop} {w : World} (hw : P w) (hn : ∀ w e, P w → P (w.next e))
    (es : List Event) : P (w.run es) := by
  induction es generalizing w with
  | nil => exact hw
  | cons e es ih => exact ih (hn w e hw)

end World

end Handoff
