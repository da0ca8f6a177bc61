import Handoff.Cli
import Handoff.Codec.Base64Url
import Handoff.Config
import Handoff.Crypto.Aes256
import Handoff.Crypto.Gcm
import Handoff.Crypto.Sha256
import Handoff.Entropy
import Handoff.Faults
import Handoff.Handle
import Handoff.Http.Answer
import Handoff.Http.Job
import Handoff.Http.Message
import Handoff.Http.Socket
import Handoff.Hub
import Handoff.Identity
import Handoff.Json.Draft
import Handoff.Json.Printer
import Handoff.Json.Record
import Handoff.Json.Token
import Handoff.Json.Value
import Handoff.Log.Filter
import Handoff.Log.Retention
import Handoff.Log.Setup
import Handoff.Main
import Handoff.OAuth.Calls
import Handoff.OAuth.Payload
import Handoff.OAuth.Provider
import Handoff.Qr.Agent
import Handoff.Qr.Calls
import Handoff.Qr.Message
import Handoff.Qr.Session
import Handoff.Qr.Status
import Handoff.Qr.Token
import Handoff.Rendezvous.Memory
import Handoff.Rendezvous.Stage
import Handoff.Rendezvous.Storage
import Handoff.Rendezvous.Table
import Handoff.Server
import Handoff.Service
import Handoff.Session.Carrier
import Handoff.Session.Token
import Handoff.SocketAddress
import Handoff.Startup
import Handoff.Text.Blank
import Handoff.Text.Clip
import Handoff.Text.Decimal
import Handoff.Text.Hex
import Handoff.Text.Split
import Handoff.Text.Utf8
import Handoff.Url.Basic
import Handoff.Url.Host
import Handoff.Url.Percent
import Handoff.Url.Punycode
import Handoff.Users
import Handoff.Proofs.Run.Call
import Handoff.Proofs.Run.World
import Handoff.Proofs.Rendezvous.Memory
import Handoff.Proofs.Rendezvous.Table
import Handoff.Proofs.Rendezvous.Storage
import Handoff.Proofs.Json.RoundTrip
import Handoff.Proofs.Rendezvous.Payload
import Handoff.Proofs.Qr.Life
import Handoff.Proofs.Qr.Lifecycle
import Handoff.Proofs.Run.Effect
import Handoff.Proofs.Qr.Steps
import Handoff.Proofs.Qr.Turns
import Handoff.Proofs.Hub.View
import Handoff.Proofs.Hub.Moves
import Handoff.Proofs.Hub.Streams
import Handoff.Proofs.Qr.Outcome
import Handoff.Proofs.Run.Log
import Handoff.Proofs.Qr.Listening
import Handoff.Proofs.Run.Orderly
import Handoff.Proofs.Qr.Endings
import Handoff.Proofs.Qr.Reading
import Handoff.Proofs.Qr.Reception
import Handoff.Proofs.Qr.Watching
import Handoff.Proofs.Rendezvous.Script
import Handoff.Proofs.Rendezvous.Ideal
import Handoff.Proofs.Rendezvous.Backends
import Handoff.Proofs.Rendezvous.Ticket
import Handoff.Proofs.OAuth.Steps
import Handoff.Proofs.Run.History
import Handoff.Proofs.Qr.Answers
import Handoff.Proofs.OAuth.Tickets
import Handoff.Proofs.OAuth.Lives
import Handoff.Proofs.OAuth.Issued
import Handoff.Proofs.OAuth.SingleUse
import Handoff.Proofs.Run.Minting
import Handoff.Proofs.Run.Sessions
import Handoff.Proofs.Run.Binding
import Handoff.Proofs.Qr.Genuine
import Handoff.Proofs.Rendezvous.Local
import Handoff.Proofs.Rendezvous.Sharing
import Handoff.Proofs.Run.Alone
import Handoff.Proofs.Rendezvous.Separate
import Handoff.Proofs.Hub.Ideal
import Handoff.Proofs.Hub.Delivery
import Handoff.Proofs.Hub.Seats
import Handoff.Proofs.Qr.Separate
import Handoff.Proofs.Qr.Desk
import Handoff.Proofs.Qr.Errand
import Handoff.Proofs.Qr.Independence
import Handoff.Proofs.Run.Working
import Handoff.Proofs.Http.Request
import Handoff.Proofs.Http.Texts
import Handoff.Proofs.Http.Blind
import Handoff.Proofs.Http.Servers
import Handoff.Proofs.Http.Discretion
import Handoff.Proofs.Qr.Cancelling
import Handoff.Proofs.Run.Expiry
import Handoff.Proofs.OAuth.Matching
import Handoff.Proofs.Session.Cookie
import Handoff.Proofs.Session.Grammar
import Handoff.Proofs.Rendezvous.Atomic
import Handoff.Proofs.Session.Carrier
import Handoff.Proofs.Hub.Places
import Handoff.Proofs.Run.Stock
import Handoff.Proofs.Run.Trail
import Handoff.Proofs.Qr.Traceless
import Handoff.Proofs.OAuth.Frugal
import Handoff.Proofs.Json.Members
import Handoff.Proofs.Qr.Wire
import Handoff.Proofs.Http.Cookies
import Handoff.Proofs.Qr.Stored
import Handoff.Proofs.Hub.Lobby
import Handoff.Proofs.OAuth.Profile
import Handoff.Proofs.Users.Seeds
import Handoff.Proofs.Startup
import Handoff.Proofs.Log.Retention
import Handoff.Proofs.Text.Clip
import Handoff.Proofs.Reaper.Visits
import Handoff.Proofs.Reaper.Stores
import Handoff.Proofs.Reaper.Targets
import Handoff.Proofs.Reaper.Round
import Handoff.Proofs.Qr.Signing
