import Handoff.Proofs.Json.Members
import Handoff.Proofs.Rendezvous.Payload
import Handoff.Qr.Message

namespace Handoff.Qr

open Json

namespace Message

theorem read_draft (m : Message) : record.read m.toJson.draft = .ok m := by
  obtain ⟨type, s, k⟩ := m
  cases k <;>
    simp [toJson, record, draft, membersDraft, Record.read, Record.map, Record.and, Record.member,
      required, Json.optional, field, readOption, Except.map, List.foldlM, bind, Except.bind, pure,
      Except.pure]

theorem decode_encode (m : Message) : decode m.encode = .ok m :=
  (ofText_compact _ _).trans m.read_draft

theorem any_encode (m : Message) : ofText any m.encode = .ok m.toJson := by
  refine (ofText_compact any m.toJson).trans ?_
  obtain ⟨type, s, k⟩ := m
  cases k <;>
    simp [toJson, any, maxDepth, draft, membersDraft, readJson, readMembers, setMember, bind,
      Except.bind, pure, Except.pure]

theorem get?_sessionToken (m : Message) :
    m.toJson.get? "sessionToken" = m.sessionToken.map .str := by
  obtain ⟨type, s, k⟩ := m
  cases k <;> simp [toJson, get?]

theorem lawful_record : record.Lawful :=
  (Record.lawful_field.and (Record.lawful_field.and Record.lawful_field)).map _

end Message

namespace Desktop

theorem read_draft (d : Desktop) : record.read d.toJson.draft = .ok d := by
  simp [toJson, record, draft, membersDraft, Record.read, Record.map, Record.and, Record.member,
    required, field, Except.map, List.foldlM, bind, Except.bind, pure, Except.pure]

theorem decode_encode (d : Desktop) : decode d.encode = .ok d :=
  (ofText_compact _ _).trans d.read_draft

theorem lawful_record : record.Lawful :=
  (Record.lawful_field.and (Record.lawful_field.and Record.lawful_field)).map _

end Desktop

/-- What is written is read back as the same value, with a member for the token exactly where there
is one. Whatever text a value was read from, in whatever spelling and with whatever else in it, it
is the same value after it was written and read again; and another text with its members in another
order, or with others among them, is read as the same value. -/
theorem wire_faithful :
    (∀ m : Message, Message.decode m.encode = .ok m ∧
      ∃ j, ofText any m.encode = .ok j ∧ j.get? "sessionToken" = m.sessionToken.map .str) ∧
    (∀ d : Desktop, Desktop.decode d.encode = .ok d) ∧
    (∀ text m, Message.decode text = .ok m → Message.decode m.encode = .ok m ∧
      ∀ text', Message.record.Rearranges text text' → Message.decode text' = .ok m) ∧
    (∀ text d, Desktop.decode text = .ok d → Desktop.decode d.encode = .ok d ∧
      ∀ text', Desktop.record.Rearranges text text' → Desktop.decode text' = .ok d) where
  left m := ⟨m.decode_encode, m.toJson, m.any_encode, m.get?_sessionToken⟩
  right :=
    ⟨Desktop.decode_encode,
      fun _ m h => ⟨m.decode_encode, fun _ hr => (Message.lawful_record.ofText_iff hr).2 h⟩,
      fun _ d h => ⟨d.decode_encode, fun _ hr => (Desktop.lawful_record.ofText_iff hr).2 h⟩⟩

section Example

/-- A text with an escape and blanks, its members backwards and an unknown one in front. -/
def wireText : String :=
  "\x7b \"x\" : [1],\n\"sessionToken\":\"😀\\/\",\"status\":\"confirmed\",\"type\":\"status\"\x7d"

theorem wireText_rearranges :
    Message.record.Rearranges (Message.confirmed "😀/").encode wireText := by
  refine ⟨[(some "type", .str (some "status")), (some "status", .str (some "confirmed")),
      (some "sessionToken", .str (some "😀/"))],
    _, [(some "x", .arr [.num (.whole 1)] true)], ?_, ?_, List.reverse_perm _, ?_⟩
  · exact read_chars (Message.confirmed "😀/").toJson
  · cbv
  · intro m hm
    cases List.mem_singleton.1 hm
    exact ⟨⟨"x", rfl, by decide⟩, rfl⟩

theorem wireText_read :
    Message.decode (Message.confirmed "😀/").encode = .ok (.confirmed "😀/") ∧
      Message.record.Rearranges (Message.confirmed "😀/").encode wireText ∧
      Message.decode wireText = .ok (.confirmed "😀/") :=
  have h := Message.decode_encode (.confirmed "😀/")
  ⟨h, wireText_rearranges, (wire_faithful.2.2.1 _ _ h).2 _ wireText_rearranges⟩

end Example

end Handoff.Qr
