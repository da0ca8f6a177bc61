import Handoff.Rendezvous.Stage

namespace Handoff

structure Memory (P : Type) where
  entries : List (Entry P)
  deriving DecidableEq, Repr

namespace Memory

variable {P S : Type}

def empty : Memory P := ⟨[]⟩

def find? (h : Handle) (m : Memory P) : Option (Entry P) := m.entries.find? (·.handle = h)

def remove (h : Handle) (m : Memory P) : Memory P := ⟨m.entries.filter (·.handle ≠ h)⟩

def store (e : Entry P) (m : Memory P) : Memory P := ⟨(m.remove e.handle).entries ++ [e]⟩

def put (now : Nat) (h : Handle) (p : P) (ttl : Nat) (m : Memory P) :
    Except StoreError (Entry P) × Memory P :=
  if (m.find? h).any (!·.isExpired now) then (.error .duplicate, m)
  else (.ok ⟨h, now, ttl, p⟩, m.store ⟨h, now, ttl, p⟩)

def get (now : Nat) (h : Handle) (m : Memory P) : Except StoreError (Entry P) × Memory P :=
  match m.find? h with
  | none => (.error .notFound, m)
  | some e => if e.isExpired now then (.error .notFound, m.remove h) else (.ok e, m)

/-- Moves a live entry from one stage to another, and gives it as it was before. -/
def take [DecidableEq S] [Stage S] [Staged P S] (now : Nat) (h : Handle) (expected next : S)
    (m : Memory P) : Except StoreError (Entry P) × Memory P :=
  match m.get now h with
  | (.error err, m) => (.error err, m)
  | (.ok e, m) =>
    let current := Staged.stage e.payload
    if current ≠ expected then (.error (.conflict (Stage.text current)), m)
    else if Stage.isTerminal next then (.ok e, m.remove h)
    else (.ok e, m.store { e with payload := Staged.advance next now e.payload })

/-- Removes the entry; tells whether there was one, live or expired. -/
def delete (h : Handle) (m : Memory P) : Except StoreError Bool × Memory P :=
  (.ok (m.find? h).isSome, m.remove h)

def sweep (now : Nat) (m : Memory P) : Except StoreError Nat × Memory P :=
  let kept : Memory P := ⟨m.entries.filter (!·.isExpired now)⟩
  (.ok (m.entries.length - kept.entries.length), kept)

def size (m : Memory P) : Except StoreError Nat × Memory P := (.ok m.entries.length, m)

end Memory

end Handoff
