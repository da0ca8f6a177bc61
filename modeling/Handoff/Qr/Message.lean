import Handoff.Json.Printer
import Handoff.Json.Record
import Handoff.Qr.Status

namespace Handoff.Qr

/-- A change of status. The session token comes with `confirmed` only. -/
structure Message where
  type : String
  status : Status
  sessionToken : Option String
  deriving DecidableEq, Repr

namespace Message

def ofStatus (s : Status) : Message := ⟨"status", s, none⟩

def confirmed (token : String) : Message := ⟨"status", .confirmed, some token⟩

def toJson (m : Message) : Json :=
  .obj <| [("type", .str m.type), ("status", .str m.status.text)] ++
    m.sessionToken.toList.map fun t => ("sessionToken", .str t)

def record :=
  ((Json.required "type" Json.readText).and <|
    (Json.required "status" (Json.readEnum Status.ofText?)).and <|
    Json.optional "sessionToken" Json.readText).map
    fun (t, s, k) => (⟨t, s, k⟩ : Message)

def encode (m : Message) : String := m.toJson.compact

def decode (text : String) : Except Json.Fault Message := Json.ofText record.read text

end Message

structure Desktop where
  ip : String
  browser : String
  os : String
  deriving DecidableEq, Repr

namespace Desktop

def toJson (d : Desktop) : Json :=
  .obj [("ip", .str d.ip), ("browser", .str d.browser), ("os", .str d.os)]

def record :=
  ((Json.required "ip" Json.readText).and <|
    (Json.required "browser" Json.readText).and <|
    Json.required "os" Json.readText).map
    fun (i, b, o) => (⟨i, b, o⟩ : Desktop)

def encode (d : Desktop) : String := d.toJson.compact

def decode (text : String) : Except Json.Fault Desktop := Json.ofText record.read text

end Desktop

end Handoff.Qr
