import Handoff.OAuth.Payload
import Handoff.Qr.Session
import Handoff.Rendezvous.Memory
import Handoff.Rendezvous.Table

namespace Handoff

structure Memories where
  qr : Memory Qr.Session
  states : Memory OAuth.State
  links : Memory OAuth.PendingLink
  deriving DecidableEq, Repr

inductive Storage
  | memory (ms : Memories)
  | table (t : Table)
  deriving DecidableEq, Repr

class Shelved (P : Type) where
  get : Memories → Memory P
  set : Memory P → Memories → Memories

instance : Shelved Qr.Session := ⟨Memories.qr, fun m ms => { ms with qr := m }⟩

instance : Shelved OAuth.State := ⟨Memories.states, fun m ms => { ms with states := m }⟩

instance : Shelved OAuth.PendingLink := ⟨Memories.links, fun m ms => { ms with links := m }⟩

namespace Storage

variable {P S α : Type}

def inMemory : Storage := .memory ⟨.empty, .empty, .empty⟩

def inTable : Storage := .table .empty

def run [Shelved P] (onMemory : Memory P → α × Memory P) (onTable : Table → α × Table) :
    Storage → α × Storage
  | .memory ms =>
    let (a, m) := onMemory (Shelved.get ms)
    (a, .memory (Shelved.set m ms))
  | .table t =>
    let (a, t) := onTable t
    (a, .table t)

variable [DecidableEq S] [Stage S] [Staged P S] [Shelved P]

def put (now : Nat) (h : Handle) (p : P) (ttl : Nat) : Storage →
    Except StoreError (Entry P) × Storage :=
  run (Memory.put now h p ttl) (Table.put .willing now h p ttl)

def get (now : Nat) (h : Handle) : Storage → Except StoreError (Entry P) × Storage :=
  run (Memory.get now h) (Table.get .willing now h)

def take (now : Nat) (h : Handle) (expected next : S) : Storage →
    Except StoreError (Entry P) × Storage :=
  run (Memory.take now h expected next) (Table.take .willing now h expected next)

def takeOnce {P : Type} [Staged P OneShot] [Shelved P] (now : Nat) (h : Handle) : Storage →
    Except StoreError (Entry P) × Storage :=
  take now h OneShot.issued OneShot.consumed

variable (P)

def delete (h : Handle) : Storage → Except StoreError Bool × Storage :=
  run (P := P) (Memory.delete h) (Table.delete .willing (Staged.kind P) h)

def sweep (now : Nat) : Storage → Except StoreError Nat × Storage :=
  run (P := P) (Memory.sweep now) (Table.sweep .willing (Staged.kind P) now)

def size : Storage → Except StoreError Nat × Storage :=
  run (P := P) Memory.size (Table.size .willing (Staged.kind P))

end Storage

end Handoff
