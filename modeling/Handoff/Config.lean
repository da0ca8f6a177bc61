import Handoff.Json.Printer
import Handoff.SocketAddress
import Handoff.Text.Blank
import Handoff.Text.Decimal

namespace Handoff

inductive Backend
  | memory
  | sqlite
  deriving DecidableEq, Repr

def Backend.text : Backend → String
  | memory => "memory"
  | sqlite => "sqlite"

structure OAuthSettings where
  authorizeUrl : String
  tokenUrl : String
  userinfoUrl : String
  clientId : String
  clientSecret : String
  redirectUri : String
  scope : String
  deriving DecidableEq, Repr

structure Config where
  addr : String
  /-- Without it there is no sign-in by QR code. -/
  qrEncryptionKey : Option String
  sessionSecret : Option String
  /-- In seconds. -/
  sessionTtl : Nat
  /-- In milliseconds. -/
  qrTtl : Nat
  /-- In milliseconds, for states and pending links. -/
  oauthTtl : Nat
  /-- In seconds. -/
  reaperInterval : Nat
  maxSubscribers : Nat
  backend : Backend
  sqliteUrl : String
  oauth : Option OAuthSettings
  cookieSecure : Bool
  seedUsers : String
  deriving DecidableEq, Repr

structure Validation where
  errors : List String
  warnings : List String
  deriving DecidableEq, Repr

def Validation.isOk (v : Validation) : Bool := v.errors.isEmpty

namespace Config

def names : List String := [
  "RDV_ADDR", "QR_ENCRYPTION_KEY", "SESSION_SECRET", "JWT_SECRET", "SESSION_TTL_SEC", "QR_TTL_MS",
  "OAUTH_STATE_TTL_MS", "REAPER_INTERVAL_SEC", "WS_MAX_SUBSCRIBERS", "RDV_STORE_BACKEND",
  "RDV_SQLITE_URL", "OAUTH_AUTHORIZE_URL", "OAUTH_TOKEN_URL", "OAUTH_USERINFO_URL",
  "OAUTH_CLIENT_ID", "OAUTH_CLIENT_SECRET", "OAUTH_REDIRECT_URI", "OAUTH_SCOPE",
  "RDV_COOKIE_SECURE", "RDV_SEED_USERS"]

abbrev Source := String → Option String

def text (source : Source) (name : String) : Option String := (source name).bind Text.nonBlank

def number (source : Source) (name : String) (fallback : Nat) : Nat :=
  (((text source name).bind fun s => Text.readWord s.toList).filter (0 < ·)).getD fallback

def oauthOf (source : Source) : Option OAuthSettings := do
  let authorizeUrl ← text source "OAUTH_AUTHORIZE_URL"
  let tokenUrl ← text source "OAUTH_TOKEN_URL"
  let userinfoUrl ← text source "OAUTH_USERINFO_URL"
  let clientId ← text source "OAUTH_CLIENT_ID"
  let redirectUri ← text source "OAUTH_REDIRECT_URI"
  return { authorizeUrl, tokenUrl, userinfoUrl, clientId, redirectUri,
           clientSecret := (text source "OAUTH_CLIENT_SECRET").getD "",
           scope := (text source "OAUTH_SCOPE").getD "openid profile email" }

def refusals : List String := ["0", "false", "no", "n", "off"]

def ofSource (source : Source) : Config where
  addr := (text source "RDV_ADDR").getD "0.0.0.0:18080"
  qrEncryptionKey := text source "QR_ENCRYPTION_KEY"
  sessionSecret := (text source "SESSION_SECRET").or (text source "JWT_SECRET")
  sessionTtl := number source "SESSION_TTL_SEC" (60 * 24 * 3600)
  qrTtl := number source "QR_TTL_MS" 180000
  oauthTtl := number source "OAUTH_STATE_TTL_MS" 600000
  reaperInterval := number source "REAPER_INTERVAL_SEC" 300
  maxSubscribers := number source "WS_MAX_SUBSCRIBERS" 1000
  backend := if text source "RDV_STORE_BACKEND" = some "sqlite" then .sqlite else .memory
  sqliteUrl := (text source "RDV_SQLITE_URL").getD "sqlite::memory:"
  oauth := oauthOf source
  cookieSecure := !((text source "RDV_COOKIE_SECURE").any fun s => refusals.contains (Text.lower s))
  seedUsers := (text source "RDV_SEED_USERS").getD ""

def note (condition : Bool) (message : String) : List String := if condition then [message] else []

def validate (c : Config) : Validation where
  errors :=
    note c.sessionSecret.isNone "SESSION_SECRET (or JWT_SECRET) is required" ++
    note (SocketAddress.parse c.addr).isNone ("RDV_ADDR is not a socket address: " ++ c.addr)
  warnings :=
    note c.qrEncryptionKey.isNone "QR_ENCRYPTION_KEY is empty; qr login is disabled" ++
    note c.oauth.isNone "OAUTH_* endpoints are incomplete; oauth login is disabled" ++
    note (c.oauth.any (·.clientSecret.isEmpty)) "OAUTH_CLIENT_SECRET is empty"

/-- Whether a secret is there, without showing it. -/
def presence (secret : Option String) : Json := .str (if secret.isSome then "set" else "missing")

def seedCount (c : Config) : Nat :=
  ((Text.splitOn ',' c.seedUsers).filter fun s => !Text.isAllBlank s).length

def redacted (c : Config) : List (String × Json) := [
  ("addr", .str c.addr),
  ("cookieSecure", .bool c.cookieSecure),
  ("oauthClientId", .str ((c.oauth.map (·.clientId)).getD "")),
  ("oauthConfigured", .bool c.oauth.isSome),
  ("oauthTtlMs", .nat c.oauthTtl),
  ("qrEncryptionKey", presence c.qrEncryptionKey),
  ("qrTtlMs", .nat c.qrTtl),
  ("reaperIntervalSec", .nat c.reaperInterval),
  ("seedUsers", .nat c.seedCount),
  ("sessionSecret", presence c.sessionSecret),
  ("sessionTtlSec", .nat c.sessionTtl),
  ("sqliteUrl", .str c.sqliteUrl),
  ("storeBackend", .str c.backend.text),
  ("wsMaxSubscribers", .nat c.maxSubscribers)]

end Config

end Handoff
