import Handoff.Text.Blank

namespace Handoff.Qr

inductive Status
  | pending
  | scanned
  | confirmed
  | cancelled
  deriving DecidableEq, Repr

namespace Status

def text : Status → String
  | pending => "pending"
  | scanned => "scanned"
  | confirmed => "confirmed"
  | cancelled => "cancelled"

def ofText? (s : String) : Option Status :=
  if s = "pending" then some pending
  else if s = "scanned" then some scanned
  else if s = "confirmed" then some confirmed
  else if s = "cancelled" then some cancelled
  else none

def parse (raw : String) : Option Status := ofText? (Text.trim raw)

def isTerminal : Status → Bool
  | confirmed => true
  | cancelled => true
  | _ => false

@[simp] theorem ofText?_text (s : Status) : ofText? s.text = some s := by cases s <;> rfl

end Status

end Handoff.Qr
