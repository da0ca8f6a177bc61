import Handoff.Config
import Handoff.Identity
import Handoff.Url.Basic

namespace Handoff.OAuth

def authorizeUrl (o : OAuthSettings) (state : String) : Except UrlError String :=
  (Url.parse o.authorizeUrl).map fun u => Url.text <| u.addPairs
    [("client_id", o.clientId), ("response_type", "code"), ("redirect_uri", o.redirectUri),
      ("response_mode", "query"), ("scope", o.scope), ("state", state)]

structure Request where
  method : String
  url : String
  contentType : Option String
  authorization : Option String
  body : String
  deriving DecidableEq, Repr

structure Reply where
  status : Nat
  body : String
  deriving DecidableEq, Repr

/-- Carries a request to the provider; fails with a text of its own. -/
abbrev Transport := Request → Except String Reply

def reasons : List (Nat × String) := [
  (100, "Continue"), (101, "Switching Protocols"), (102, "Processing"), (200, "OK"),
  (201, "Created"), (202, "Accepted"), (203, "Non Authoritative Information"), (204, "No Content"),
  (205, "Reset Content"), (206, "Partial Content"), (207, "Multi-Status"),
  (208, "Already Reported"), (226, "IM Used"), (300, "Multiple Choices"),
  (301, "Moved Permanently"), (302, "Found"), (303, "See Other"), (304, "Not Modified"),
  (305, "Use Proxy"), (307, "Temporary Redirect"), (308, "Permanent Redirect"),
  (400, "Bad Request"), (401, "Unauthorized"), (402, "Payment Required"), (403, "Forbidden"),
  (404, "Not Found"), (405, "Method Not Allowed"), (406, "Not Acceptable"),
  (407, "Proxy Authentication Required"), (408, "Request Timeout"), (409, "Conflict"),
  (410, "Gone"), (411, "Length Required"), (412, "Precondition Failed"),
  (413, "Payload Too Large"), (414, "URI Too Long"), (415, "Unsupported Media Type"),
  (416, "Range Not Satisfiable"), (417, "Expectation Failed"), (418, "I'm a teapot"),
  (421, "Misdirected Request"), (422, "Unprocessable Entity"), (423, "Locked"),
  (424, "Failed Dependency"), (425, "Too Early"), (426, "Upgrade Required"),
  (428, "Precondition Required"), (429, "Too Many Requests"),
  (431, "Request Header Fields Too Large"), (451, "Unavailable For Legal Reasons"),
  (500, "Internal Server Error"), (501, "Not Implemented"), (502, "Bad Gateway"),
  (503, "Service Unavailable"), (504, "Gateway Timeout"), (505, "HTTP Version Not Supported"),
  (506, "Variant Also Negotiates"), (507, "Insufficient Storage"), (508, "Loop Detected"),
  (510, "Not Extended"), (511, "Network Authentication Required")]

def Reply.isSuccess (r : Reply) : Bool := 200 ≤ r.status && r.status < 300

def Reply.statusText (r : Reply) : String :=
  "status " ++ Text.natText r.status ++ " " ++
    (((reasons.find? (·.1 = r.status)).map (·.2)).getD "<unknown status code>")

structure TokenReply where
  accessToken : Option String
  error : Option String
  deriving DecidableEq, Repr

def TokenReply.record :=
  ((Json.defaulted "access_token" (Json.readOption Json.readText) none).and <|
    Json.defaulted "error" (Json.readOption Json.readText) none).map
    fun (t, e) => (⟨t, e⟩ : TokenReply)

def undecodable : String := "error decoding response body"

def tokenRequest (o : OAuthSettings) (code : String) : Request where
  method := "POST"
  url := o.tokenUrl
  contentType := some "application/x-www-form-urlencoded"
  authorization := none
  body := Form.print [("client_id", o.clientId), ("client_secret", o.clientSecret), ("code", code),
    ("redirect_uri", o.redirectUri), ("grant_type", "authorization_code")]

def profileRequest (o : OAuthSettings) (token : String) : Request where
  method := "GET"
  url := o.userinfoUrl
  contentType := none
  authorization := some ("Bearer " ++ token)
  body := ""

def fetchToken (o : OAuthSettings) (send : Transport) (code : String) :
    Except IdentityError String :=
  match send (tokenRequest o code) with
  | .error text => .error (.tokenExchange (.client text))
  | .ok reply =>
    match Json.ofText TokenReply.record.read reply.body with
    | .error _ => .error (.tokenExchange (.client undecodable))
    | .ok ⟨_, some error⟩ => .error (.tokenExchange (.rejected error))
    | .ok ⟨token, none⟩ =>
      match token.filter fun t => reply.isSuccess && !t.isEmpty with
      | some t => .ok t
      | none => .error (.tokenExchange (.rejected reply.statusText))

def exchange (o : OAuthSettings) (send : Transport) (code : String) :
    Except IdentityError Identity := do
  let token ← fetchToken o send code
  match send (profileRequest o token) with
  | .error text => .error (.profile (.client text))
  | .ok reply =>
    if !reply.isSuccess then .error (.profile (.rejected reply.statusText))
    else match Json.ofText Json.any reply.body with
      | .error _ => .error (.profile (.client undecodable))
      | .ok profile => Identity.ofProfile profile

end Handoff.OAuth
