import Handoff.OAuth.Provider
import Handoff.Service

namespace Handoff

inductive StartupError
  | noSecret
  | database (url : String)
  | qrKey
  | invalid (errors : List String)
  | bind (addr : String)
  deriving DecidableEq, Repr

def StartupError.message : StartupError → String
  | noSecret => "SESSION_SECRET is required"
  | database url => "connect sqlite: " ++ url
  | qrKey => "derive qr token key"
  | invalid errors => "invalid configuration: " ++ Text.join "; " errors
  | bind addr => "bind " ++ addr

namespace Table

def location (url : String) : List Char × List (String × String) :=
  let cs := url.toList
  let cs := (Text.after? "sqlite://".toList cs).getD ((Text.after? "sqlite:".toList cs).getD cs)
  match Text.cutChars '?' cs with
  | some (name, options) => (name, Form.parse (String.ofList options))
  | none => (cs, [])

/-- Tables are kept in memory: no file can be opened. -/
def isReachable (url : String) : Bool :=
  let (name, options) := location url
  name = ":memory:".toList || options.contains ("mode", "memory")

end Table

namespace Service

def storageOf (c : Config) : Except StartupError Storage :=
  match c.backend with
  | .memory => .ok .inMemory
  | .sqlite => if Table.isReachable c.sqliteUrl then .ok .inTable else .error (.database c.sqliteUrl)

def qrKeyOf (c : Config) : Except StartupError (Option Gcm.Key) :=
  match c.qrEncryptionKey with
  | none => .ok none
  | some secret =>
    match Qr.Token.key secret with
    | .ok key => .ok (some key)
    | .error _ => .error .qrKey

def ofConfig (provider : OAuthSettings → Provider) (now : Nat) (c : Config) :
    Except StartupError Service :=
  match c.sessionSecret with
  | none => .error .noSecret
  | some secret => do
    let storage ← storageOf c
    let qrKey ← qrKeyOf c
    return {
      setup := {
        qrKey
        issuer := ⟨secret, c.sessionTtl⟩
        qrTtl := c.qrTtl
        oauthTtl := c.oauthTtl
        oauth := c.oauth.map fun o => (o, provider o)
        cookieSecure := c.cookieSecure }
      now
      storage
      hub := .empty c.maxSubscribers
      users := .ofList (Users.parseSeeds c.seedUsers)
      faults := .none }

/-- The service of a configuration that has been found valid, on a machine of which `listens` says
where it can listen. -/
def serve (listens : SocketAddress → Bool) (provider : OAuthSettings → Provider) (now : Nat)
    (c : Config) : Except StartupError Service :=
  if !c.validate.isOk then .error (.invalid c.validate.errors)
  else do
    let service ← ofConfig provider now c
    if (SocketAddress.parse c.addr).any listens then return service
    else .error (.bind c.addr)

end Service

end Handoff
