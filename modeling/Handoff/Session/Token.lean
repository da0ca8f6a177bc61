import Handoff.Codec.Base64Url
import Handoff.Crypto.Sha256
import Handoff.Json.Printer
import Handoff.Json.Record
import Handoff.Text.Blank
/-!
Session tokens: three parts between dots, the version, the claims and a tag made with the server's
secret over the claims as they are written. A token is good until the second in which its claims
expire.
-/

namespace Handoff.Session

inductive Error
  | malformed
  | badSignature
  | expired
  | internal (text : String)
  deriving DecidableEq, Repr

def Error.message : Error → String
  | malformed => "session token is malformed"
  | badSignature => "session token signature mismatch"
  | expired => "session token expired"
  | internal text => "session issuer failure: " ++ text

/-- Who is signed in, and from when until when (in seconds). -/
structure Claims where
  uid : Int64
  iat : Nat
  exp : Nat
  jti : String
  deriving DecidableEq, Repr

def Claims.toJson (c : Claims) : Json :=
  .obj [("uid", .int c.uid.toInt), ("iat", .nat c.iat), ("exp", .nat c.exp), ("jti", .str c.jti)]

def Claims.record :=
  ((Json.required "uid" Json.readInt64).and <| (Json.required "iat" Json.readNat).and <|
    (Json.required "exp" Json.readNat).and <| Json.required "jti" Json.readText).map
    fun (u, i, e, j) => (⟨u, i, e, j⟩ : Claims)

structure Issuer where
  secret : String
  ttl : Nat
  deriving DecidableEq, Repr

def version : String := "yst_v1"

/-- Sixteen random octets as an identifier of version 4, without hyphens. -/
def identifier (random : List UInt8) : String :=
  Text.Hex.encode <| random.mapIdx fun i b =>
    if i = 6 then (b &&& 0x0f) ||| 0x40 else if i = 8 then (b &&& 0x3f) ||| 0x80 else b

namespace Issuer

def sign (i : Issuer) (payload : List Char) : List UInt8 :=
  Hmac.sha256 (Text.Utf8.encode i.secret) (Text.Utf8.encodeChars payload)

def claims (i : Issuer) (now : Nat) (uid : Int64) (jti : String) : Claims :=
  ⟨uid, now / 1000, Text.addTime (now / 1000) i.ttl, jti⟩

def write (i : Issuer) (c : Claims) : String :=
  let payload := Base64Url.encodeChars (Text.Utf8.encode c.toJson.compact)
  String.ofList <| version.toList ++ '.' :: payload ++
    '.' :: Base64Url.encodeChars (i.sign payload)

def issue (i : Issuer) (now : Nat) (uid : Int64) (random : List UInt8) : String :=
  i.write (i.claims now uid (identifier random))

def parts? (token : List Char) : Option (List Char × List Char) :=
  match Text.splitChars '.' (Text.trimChars token) with
  | [v, p, g] => if v = version.toList ∧ p ≠ [] ∧ g ≠ [] then some (p, g) else none
  | _ => none

def readClaims (payload : List Char) : Option Claims := do
  let bs ← Base64Url.decodeChars payload
  (Json.ofBytes Claims.record.read bs).toOption

def verify (i : Issuer) (now : Nat) (token : String) : Except Error Claims :=
  match parts? token.toList with
  | none => .error .malformed
  | some (p, g) =>
    match Base64Url.decodeChars g with
    | none => .error .malformed
    | some tag =>
      if tag ≠ i.sign p then .error .badSignature
      else match readClaims p with
        | none => .error .malformed
        | some c => if c.exp ≤ now / 1000 then .error .expired else .ok c

end Issuer

end Handoff.Session
