import Handoff.Codec.Base64Url
import Handoff.Crypto.Gcm
import Handoff.Handle
import Handoff.Json.Printer
import Handoff.Json.Record

namespace Handoff.Qr

inductive TokenError
  | emptySecret
  | format
  | invalid
  deriving DecidableEq, Repr

def TokenError.message : TokenError → String
  | emptySecret => "token codec secret is empty"
  | format => "token format is invalid"
  | invalid => "token is invalid"

namespace Token

def version : String := "qrt_v1."

def purpose : String := "rdv/qr-token/v1"

def minLength : Nat := 50

def maxLength : Nat := 500

structure Content where
  handle : Handle
  issuedAt : Nat
  deriving DecidableEq, Repr

/-- The key of a secret; blanks around the secret do not count. -/
def key (secret : String) : Except TokenError Gcm.Key :=
  match Text.nonBlank secret with
  | none => .error .emptySecret
  | some s => .ok (.ofBytes (Hmac.sha256 (Text.Utf8.encode purpose) (Text.Utf8.encode s)))

def Content.toJson (c : Content) : Json :=
  .obj [("t", .str c.handle.text), ("ts", .nat c.issuedAt)]

def record :=
  ((Json.required "t" Json.readText).and (Json.required "ts" Json.readNat)).map
    fun (t, ts) => (⟨⟨t⟩, ts⟩ : Content)

/-- The token of a handle, under a nonce of twelve octets that is used once. -/
def wrap (key : Gcm.Key) (nonce : List UInt8) (c : Content) : String :=
  version ++ Base64Url.encode
    (nonce ++ Gcm.sealText key nonce (Text.Utf8.encode c.toJson.compact))

def isTokenChar (c : Char) : Bool := Text.isAsciiAlnum c || c = '-' || c = '_' || c = '.'

/-- Length, characters and version, looked at before anything is deciphered. -/
def precheck (token : List Char) : Except TokenError Unit :=
  if minLength ≤ token.length ∧ token.length ≤ maxLength ∧ token.all isTokenChar ∧
      (Text.after? version.toList token).isSome then .ok ()
  else .error .format

/-- Handles inside a token have at least sixteen octets, in either case. -/
def isHandle (t : String) : Bool :=
  2 * Handle.minBytes ≤ t.toList.length && t.toList.all Text.isHexDigit

def split (raw : List UInt8) : Option (List UInt8 × List UInt8) :=
  if raw.length ≤ Gcm.nonceSize then none
  else some (raw.take Gcm.nonceSize, raw.drop Gcm.nonceSize)

def reveal (key : Gcm.Key) (raw : List UInt8) : Option Content := do
  let (nonce, sealed) ← split raw
  let plain ← Gcm.open? key nonce sealed
  let c ← (Json.ofBytes record.read plain).toOption
  if isHandle c.handle.text then return c else none

def unwrap (key : Gcm.Key) (token : String) : Except TokenError Content := do
  let cs := Text.trimChars token.toList
  precheck cs
  match (Text.after? version.toList cs).bind Base64Url.decodeChars |>.bind (reveal key) with
  | some c => return c
  | none => .error .invalid

end Token

end Handoff.Qr
