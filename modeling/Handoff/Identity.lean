import Handoff.Json.Record
import Handoff.Text.Blank
import Handoff.Text.Split

namespace Handoff

structure Identity where
  providerId : String
  displayName : String
  avatarUrl : Option String
  email : Option String
  deriving DecidableEq, Repr

inductive ExchangeFailure
  | client (text : String)
  | rejected (text : String)
  deriving DecidableEq, Repr

def ExchangeFailure.text : ExchangeFailure → String
  | client text => text
  | rejected text => text

inductive IdentityError
  | tokenExchange (why : ExchangeFailure)
  | profile (why : ExchangeFailure)
  | incomplete (name : String)
  deriving DecidableEq, Repr

def IdentityError.message : IdentityError → String
  | tokenExchange why => "authorization code exchange failed: " ++ why.text
  | profile why => "user profile request failed: " ++ why.text
  | incomplete name => "user profile is missing `" ++ name ++ "`"

namespace Identity

def toJson (i : Identity) : Json :=
  .obj [("providerId", .str i.providerId), ("displayName", .str i.displayName),
    ("avatarUrl", .optStr i.avatarUrl), ("email", .optStr i.email)]

def record :=
  ((Json.required "providerId" Json.readText).and <|
    (Json.required "displayName" Json.readText).and <|
    (Json.optional "avatarUrl" Json.readText).and <| Json.optional "email" Json.readText).map
    fun (p, d, a, e) => (⟨p, d, a, e⟩ : Identity)

def firstText (profile : Json) (names : List String) : Option String :=
  names.findSome? fun name => ((profile.get? name).bind Json.str?).bind Text.nonBlank

def ofProfile (profile : Json) : Except IdentityError Identity :=
  match firstText profile ["id", "sub"] with
  | none => .error (.incomplete "id")
  | some id =>
    let email := ((firstText profile ["mail", "email", "userPrincipalName"]).filter
      fun e => e.toList.contains '@').map Text.lower
    .ok ⟨id, ((firstText profile ["displayName", "name"]).or email).getD id,
      firstText profile ["picture", "avatarUrl"], email⟩

end Identity

end Handoff
