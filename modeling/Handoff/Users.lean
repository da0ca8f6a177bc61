import Handoff.Identity
import Handoff.Text.Decimal

namespace Handoff

structure User where
  id : Int64
  username : String
  email : Option String
  avatarUrl : Option String
  providerId : Option String
  deriving DecidableEq, Repr

inductive UserError
  | notFound
  /-- The identity belongs to `owner`, or `owner` already has another one. -/
  | alreadyLinked (owner : Int64)
  | backend (text : String)
  deriving DecidableEq, Repr

def UserError.message : UserError → String
  | notFound => "user not found"
  | alreadyLinked owner => "external identity already linked to user " ++ Text.intText owner.toInt
  | backend text => "user store failure: " ++ text

/-- The users, in the order in which a search meets them. -/
structure Users where
  records : List User
  deriving DecidableEq, Repr

namespace Users

def empty : Users := ⟨[]⟩

def count (t : Users) : Nat := t.records.length

def insert (u : User) (t : Users) : Users :=
  if t.records.any (·.id = u.id) then ⟨t.records.map fun v => if v.id = u.id then u else v⟩
  else ⟨t.records ++ [u]⟩

def remove (id : Int64) (t : Users) : Users := ⟨t.records.filter (·.id ≠ id)⟩

def ofList (us : List User) : Users := us.foldl (fun t u => t.insert u) empty

def findById (id : Int64) (t : Users) : Option User := t.records.find? (·.id = id)

def findByProvider (provider : String) (t : Users) : Option User :=
  t.records.find? (·.providerId = some provider)

def findByEmail (email : String) (t : Users) : Option User :=
  t.records.find? fun u => u.email.any (Text.sameIgnoringCase · email)

/-- The user with the identity bound to it; an avatar is only taken where there was none. -/
def bind (i : Identity) (u : User) : User :=
  { u with providerId := some i.providerId, avatarUrl := u.avatarUrl.or i.avatarUrl }

def link (id : Int64) (i : Identity) (t : Users) : Except UserError Users :=
  match (t.findByProvider i.providerId).filter (·.id ≠ id) with
  | some owner => .error (.alreadyLinked owner.id)
  | none =>
    match t.findById id with
    | none => .error .notFound
    | some u =>
      if u.providerId.all (· = i.providerId) then .ok (t.insert (bind i u))
      else .error (.alreadyLinked id)

def parseSeed (item : List Char) : Option User :=
  match Text.splitCharsAtMost ':' 2 (Text.trimChars item) with
  | id :: name :: rest => do
    let id ← Text.readInt (Text.trimChars id)
    let name ← Text.nonBlank (String.ofList name)
    return ⟨id, name, rest.head?.bind fun e => Text.nonBlank (String.ofList e), none, none⟩
  | _ => none

/-- The users of a list with commas between its items; an item that is no user is passed over. -/
def parseSeeds (raw : String) : List User := (Text.splitChars ',' raw.toList).filterMap parseSeed

end Users

end Handoff
