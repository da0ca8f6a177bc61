import Handoff.Rendezvous.Stage
/-!
The store as a table that all kinds share. A row holds its stage twice, in a column of its own and
in the payload; its times are signed words of 64 bits, in which later times are cut off and earlier
ones count as zero.
-/

namespace Handoff

structure Row where
  kind : Kind
  handle : String
  status : String
  payload : String
  createdAt : Int
  expireAt : Int
  deriving DecidableEq, Repr

structure Table where
  rows : List Row
  isClosed : Bool
  deriving DecidableEq, Repr

inductive Statement
  | find
  | purge
  | insert
  | move
  | recheck
  | remove
  | sweep
  | count
  deriving DecidableEq, Repr

/-- The database under a table: each statement is carried out as a whole, or refused with a text. -/
abbrev Engine := Statement → Option String

def Engine.willing : Engine := fun _ => none

namespace Table

variable {P S : Type}

def empty : Table := ⟨[], false⟩

def maxColumn : Int := Text.maxSigned

def toColumn (t : Nat) : Int := min t maxColumn

def ofColumn (t : Int) : Nat := t.toNat

def refusal : StoreError := .backend "attempted to acquire a connection on a closed pool"

def refuses (db : Engine) (st : Statement) (t : Table) : Option StoreError :=
  if t.isClosed then some refusal else (db st).map .backend

def Row.isAt (kind : Kind) (h : Handle) (r : Row) : Bool := r.kind = kind ∧ r.handle = h.text

def find? (kind : Kind) (h : Handle) (t : Table) : Option Row := t.rows.find? (Row.isAt kind h)

def removeIf (condition : Row → Bool) (t : Table) : Table :=
  { t with rows := t.rows.filter (!condition ·) }

def countIf (condition : Row → Bool) (t : Table) : Nat := (t.rows.filter condition).length

def close (t : Table) : Table := { t with isClosed := true }

def decode [Stage S] [Staged P S] (h : Handle) (r : Row) : Except StoreError (Entry P) :=
  match Json.ofText (Staged.read (P := P)) r.payload with
  | .error fault =>
    .error (.backend ("decode " ++ (Staged.kind P).text ++ " payload: " ++ fault.text))
  | .ok p => .ok ⟨h, ofColumn r.createdAt, ofColumn r.expireAt - ofColumn r.createdAt, p⟩

def purge (kind : Kind) (now : Nat) (h : Handle) (t : Table) : Table :=
  t.removeIf fun r => Row.isAt kind h r ∧ r.expireAt < toColumn now

def live (db : Engine) (kind : Kind) (now : Nat) (h : Handle) (t : Table) :
    Except StoreError Row × Table :=
  match t.refuses db .find with
  | some err => (.error err, t)
  | none =>
    match t.find? kind h with
    | none => (.error .notFound, t)
    | some r =>
      if ofColumn r.expireAt < now then
        match t.refuses db .purge with
        | some err => (.error err, t)
        | none => (.error .notFound, t.purge kind now h)
      else (.ok r, t)

/-- What has expired is gone for good before the new row is inserted. -/
def put [Stage S] [Staged P S] (db : Engine) (now : Nat) (h : Handle) (p : P) (ttl : Nat)
    (t : Table) : Except StoreError (Entry P) × Table :=
  let kind := Staged.kind P
  let e : Entry P := ⟨h, now, ttl, p⟩
  match t.refuses db .purge with
  | some err => (.error err, t)
  | none =>
    let t := t.purge kind now h
    match t.refuses db .insert with
    | some err => (.error err, t)
    | none =>
      if (t.find? kind h).isSome then (.error .duplicate, t)
      else
        (.ok e, { t with rows := t.rows ++ [⟨kind, h.text, Stage.text (Staged.stage p),
          (Staged.toJson p).compact, toColumn now, toColumn e.expireAt⟩] })

def get [Stage S] [Staged P S] (db : Engine) (now : Nat) (h : Handle) (t : Table) :
    Except StoreError (Entry P) × Table :=
  match t.live db (Staged.kind P) now h with
  | (.error err, t) => (.error err, t)
  | (.ok r, t) => (decode h r, t)

def lost (db : Engine) (kind : Kind) (h : Handle) (t : Table) : StoreError :=
  match t.refuses db .recheck with
  | some err => err
  | none => ((t.find? kind h).map fun r => .conflict r.status).getD .notFound

def take [DecidableEq S] [Stage S] [Staged P S] (db : Engine) (now : Nat) (h : Handle)
    (expected next : S) (t : Table) : Except StoreError (Entry P) × Table :=
  let kind := Staged.kind P
  match t.live db kind now h with
  | (.error err, t) => (.error err, t)
  | (.ok r, t) =>
    if r.status ≠ Stage.text expected then (.error (.conflict r.status), t)
    else match decode (P := P) h r with
      | .error err => (.error err, t)
      | .ok e =>
        let hit (r : Row) : Bool :=
          Row.isAt kind h r ∧ r.status = Stage.text expected ∧ toColumn now ≤ r.expireAt
        let moved :=
          if Stage.isTerminal next then t.removeIf hit
          else
            let p := (Staged.toJson (Staged.advance next now e.payload)).compact
            { t with rows := t.rows.map fun r =>
                if hit r then { r with status := Stage.text next, payload := p } else r }
        match t.refuses db .move with
        | some err => (.error err, t)
        | none => if t.countIf hit = 0 then (.error (t.lost db kind h), t) else (.ok e, moved)

def delete (db : Engine) (kind : Kind) (h : Handle) (t : Table) : Except StoreError Bool × Table :=
  match t.refuses db .remove with
  | some err => (.error err, t)
  | none => (.ok (t.find? kind h).isSome, t.removeIf (Row.isAt kind h))

def sweep (db : Engine) (kind : Kind) (now : Nat) (t : Table) : Except StoreError Nat × Table :=
  match t.refuses db .sweep with
  | some err => (.error err, t)
  | none =>
    let old (r : Row) : Bool := r.kind = kind ∧ r.expireAt < toColumn now
    (.ok (t.countIf old), t.removeIf old)

def size (db : Engine) (kind : Kind) (t : Table) : Except StoreError Nat × Table :=
  match t.refuses db .count with
  | some err => (.error err, t)
  | none => (.ok (t.countIf (·.kind = kind)), t)

end Table

end Handoff
