import Handoff.Qr.Message
import Handoff.Rendezvous.Stage

namespace Handoff.Qr

instance : Stage Status := ⟨Status.text, Status.isTerminal⟩

structure Session where
  status : Status
  desktopIp : String
  desktopAgent : String
  scannedAt : Option Nat
  deriving DecidableEq, Repr

namespace Session

def pending (ip agent : String) : Session := ⟨.pending, ip, agent, none⟩

def advance (s : Status) (now : Nat) (q : Session) : Session :=
  { q with status := s, scannedAt := if s = .scanned then some now else q.scannedAt }

def toJson (q : Session) : Json :=
  .obj <| [("status", .str q.status.text), ("desktop_ip", .str q.desktopIp),
    ("desktop_user_agent", .str q.desktopAgent)] ++
    q.scannedAt.toList.map fun t => ("scanned_at_ms", .nat t)

def record :=
  ((Json.required "status" (Json.readEnum Status.ofText?)).and <|
    (Json.required "desktop_ip" Json.readText).and <|
    (Json.required "desktop_user_agent" Json.readText).and <|
    Json.defaulted "scanned_at_ms" (Json.readOption Json.readNat) none).map
    fun (s, i, a, t) => (⟨s, i, a, t⟩ : Session)

instance : Staged Session Status := ⟨.qrSession, status, advance, toJson, record.read⟩

end Session

end Handoff.Qr
