import Handoff.Text.Blank
import Handoff.Text.Decimal

namespace Handoff

abbrev Headers := List (String × String)

namespace Headers

def isReadable (value : String) : Bool :=
  value.toList.all fun c => c = '\t' || (0x20 ≤ c.toNat && c.toNat < 0x7f)

def isSendable (value : String) : Bool :=
  value.toList.all fun c => c = '\t' || (0x20 ≤ c.toNat && c.toNat ≠ 0x7f)

def isNameChar (c : Char) : Bool :=
  Text.isAsciiAlnum c || "!#$%&'*+-.^_|~".toList.contains c || c.toNat = 0x60

/-- All values under the name, in any case. -/
def all (name : String) (hs : Headers) : List String :=
  (hs.filter fun h => Text.sameIgnoringCase h.1 name).map (·.2)

def first? (name : String) (hs : Headers) : Option String := (all name hs).head?

def text? (name : String) (hs : Headers) : Option String := (first? name hs).filter isReadable

end Headers

namespace Session

def cookieName : String := "token"

def bearer? (hs : Headers) : Option String := do
  let value ← hs.text? "authorization"
  let rest ← Text.after? "Bearer ".toList (Text.trimChars value.toList)
  Text.nonBlank (String.ofList rest)

def cookie? (text : List Char) : Option (List Char × List Char) :=
  Text.cutChars '=' (Text.trimChars text)

/-- The first nonempty cookie of our name. -/
def cookieToken? (hs : Headers) : Option String :=
  let pairs := ((hs.all "cookie").filter Headers.isReadable).flatMap fun value =>
    (Text.splitChars ';' value.toList).filterMap cookie?
  (pairs.find? fun p => p.1 = cookieName.toList ∧ p.2 ≠ []).map fun p => String.ofList p.2

def fromHeaders (hs : Headers) : Option String := (bearer? hs).or (cookieToken? hs)

/-- The field that makes a browser keep the session, unless the token cannot stand in a header. -/
def setCookie (token : String) (maxAge : Nat) (secure : Bool) : Option String :=
  let value := cookieName ++ "=" ++ token ++ "; Path=/; Max-Age=" ++ Text.natText maxAge ++
    "; HttpOnly" ++ (if secure then "; Secure" else "") ++ "; SameSite=Lax"
  if Headers.isSendable value then some value else none

end Session

end Handoff
