import Handoff.Rendezvous.Stage
/-!
Failures of what the service works with: its stores, the signing of sessions and the user table.
While a failure is set the operation fails without being carried out.
-/

namespace Handoff

inductive StoreOp
  | put
  | get
  | take
  | delete
  | size
  | sweep
  deriving DecidableEq, Repr

inductive IssueFault
  | fails (text : String)
  | stalls
  deriving DecidableEq, Repr

inductive UserOp
  | byId
  | byProvider
  | byEmail
  | link
  deriving DecidableEq, Repr

structure Faults where
  store : Kind → StoreOp → Option StoreError
  issue : Option IssueFault
  verify : Option String
  users : UserOp → Option String

namespace Faults

def none : Faults := ⟨fun _ _ => .none, .none, .none, fun _ => .none⟩

def setStore (kind : Kind) (op : StoreOp) (e : Option StoreError) (fs : Faults) : Faults :=
  { fs with store := fun k o => if k = kind ∧ o = op then e else fs.store k o }

def setUsers (op : UserOp) (text : Option String) (fs : Faults) : Faults :=
  { fs with users := fun o => if o = op then text else fs.users o }

end Faults

end Handoff
