import Handoff.Json.Printer
import Handoff.Json.Record
import Handoff.Session.Carrier
import Handoff.Text.Utf8
import Handoff.Url.Percent

namespace Handoff.Http

structure Request where
  method : String
  target : String
  headers : Headers
  body : String
  deriving DecidableEq, Repr

inductive Body
  | empty
  | text (s : String)
  | json (j : Json)

structure Response where
  status : Nat
  headers : Headers
  body : Body

namespace Request

def address (r : Request) : String := ((Text.cut '#' r.target).map (·.1)).getD r.target

def path (r : Request) : String := ((Text.cut '?' r.address).map (·.1)).getD r.address

def query (r : Request) : List (String × String) :=
  Form.parse (((Text.cut '?' r.address).map (·.2)).getD "")

end Request

namespace Response

def withHeader (name value : String) (r : Response) : Response :=
  { r with headers := r.headers ++ [(name, value)] }

def empty (status : Nat) : Response := ⟨status, [], .empty⟩

def plain (status : Nat) (s : String) : Response :=
  ⟨status, [("content-type", "text/plain; charset=utf-8")], .text s⟩

def json (status : Nat) (j : Json) : Response :=
  ⟨status, [("content-type", "application/json")], .json j⟩

def withoutBody (r : Response) : Response := { r with body := .empty }

end Response

/-- The value of a query field that may come once; several are an error. -/
def queryText? (name : String) (pairs : List (String × String)) : Option (Option String) :=
  match pairs.filter (·.1 = name) with
  | [] => some none
  | [p] => some (some p.2)
  | _ => none

def queryNat? (name : String) (pairs : List (String × String)) : Option (Option Nat) :=
  match queryText? name pairs with
  | none => none
  | some none => some none
  | some (some v) => (Text.readWord v.toList).map some

/-- Parameters of a media type, after a semicolon: names and values, blanks in front of a name. -/
def areParameters (fuel : Nat) (cs : List Char) : Bool :=
  match fuel with
  | 0 => false
  | fuel + 1 =>
    match cs.dropWhile (· = ' ') with
    | [] => true
    | cs =>
      match Text.cutChars '=' cs with
      | some (name, '"' :: value) =>
        name ≠ [] && name.all Headers.isNameChar &&
          match Text.cutChars '"' value with
          | some (quoted, rest) => quoted ≠ [] &&
            match rest.dropWhile (· = ' ') with
            | [] => true
            | ';' :: rest => areParameters fuel rest
            | _ => false
          | none => false
      | some (name, value) =>
        name ≠ [] && name.all Headers.isNameChar &&
          match Text.cutChars ';' value with
          | some (v, rest) => v ≠ [] && v.all Headers.isNameChar && areParameters fuel rest
          | none => value.all Headers.isNameChar
      | none => false

def isJsonType (value : String) : Bool :=
  match Text.cutChars '/' (value.toList.map Text.lowerAscii) with
  | none => false
  | some (type, rest) =>
    let subtype := rest.takeWhile (· ≠ ';')
    let suffix := (subtype.reverse.takeWhile (· ≠ '+')).reverse
    let parameters := rest.drop (subtype.length + 1)
    type = "application".toList && subtype ≠ [] && subtype.all Headers.isNameChar &&
      (if (subtype.drop 1).contains '+' then
        suffix = "json".toList || subtype = "json+".toList ++ suffix
      else subtype = "json".toList) && areParameters (parameters.length + 1) parameters

def readBody {α : Type} (read : Json.Reader α) (r : Request) : Except Response α :=
  if !(r.headers.text? "content-type").any isJsonType then
    .error (.plain 415 "Expected request with content type application/json")
  else match Json.ofText read r.body with
    | .ok a => .ok a
    | .error .malformed => .error (.plain 400 "Failed to parse the request body as JSON")
    | .error .unfit => .error (.plain 422 "The request body does not have the expected shape")

def readTextBody (name : String) (r : Request) : Except Response String :=
  readBody (Json.defaulted name Json.readText "").read r

def asksForSocket (hs : Headers) : Bool :=
  (hs.first? "connection").any (fun v => Text.contains "upgrade" (Text.lower v)) &&
    (hs.first? "upgrade").any (Text.sameIgnoringCase · "websocket") &&
    (hs.first? "sec-websocket-key").isSome && (hs.first? "sec-websocket-version").any (· = "13")

def badQuery : Response := .plain 400 "Failed to read the query string"

/-- The address of the client: the first forwarded one, then the real one. -/
def clientAddress (hs : Headers) : String :=
  let forwarded := (hs.text? "x-forwarded-for").bind fun v =>
    ((Text.splitOn ',' v).head?).bind Text.nonBlank
  let real := (hs.text? "x-real-ip").bind Text.nonBlank
  (forwarded.or real).getD "unknown"

def userAgent (hs : Headers) : String := (hs.text? "user-agent").getD ""

end Handoff.Http
