import Handoff.Proofs.Json.RoundTrip
import Handoff.Proofs.Rendezvous.Storage

namespace Handoff

/-- What is read back is written in one way for each value. -/
theorem injective_of_read {S : Type} {write : S → String} {read : String → Option S}
    (h : ∀ s, read (write s) = some s) : Function.Injective write := by
  intro s t he
  have hs := h s
  rw [he, h t] at hs
  exact (Option.some.inj hs).symm

namespace Qr

namespace Session

def Fits (q : Session) : Prop := ∀ t ∈ q.scannedAt, t ≤ Text.maxWord

theorem fits_pending (ip agent : String) : (pending ip agent).Fits := by
  intro t ht
  cases ht

theorem read_draft {q : Session} (hq : q.Fits) :
    record.read q.toJson.draft = .ok q := by
  obtain ⟨s, ip, agent, t⟩ := q
  cases t with
  | none =>
    simp [toJson, record, Json.draft, Json.membersDraft, Json.Record.read,
      Json.Record.map, Json.Record.and, Json.Record.member, Json.required, Json.defaulted,
      Json.field, Json.readText, Json.readEnum, Except.map, List.foldlM, bind, Except.bind, pure,
      Except.pure]
  | some t =>
    have ht : t ≤ Text.maxWord := hq t rfl
    simp [toJson, record, Json.draft, Json.membersDraft, Json.Record.read,
      Json.Record.map, Json.Record.and, Json.Record.member, Json.required, Json.defaulted,
      Json.field, Json.readText, Json.readEnum, Json.readOption, Json.readNat, Json.nat, ht,
      Except.map, List.foldlM, bind, Except.bind, pure, Except.pure]

theorem fits_advance {q : Session} {t : Nat} (s : Status) (ht : t ≤ Text.maxWord) (hq : q.Fits) :
    (q.advance s t).Fits := by
  intro u hu
  unfold advance at hu
  dsimp only at hu
  split at hu
  · cases hu
    exact ht
  · exact hq u hu

instance : Staged.Lawful Session where
  Fits := Fits
  read_compact hq := (Json.ofText_compact _ _).trans (read_draft hq)
  stage_advance _ _ _ := rfl
  fits_advance := fits_advance
  text_injective := injective_of_read Status.ofText?_text

end Session

end Qr

@[simp] theorem OneShot.ofText?_text (s : OneShot) : ofText? s.text = some s := by cases s <;> rfl

@[simp] theorem OAuth.Action.ofText?_text (a : Action) : ofText? a.text = some a := by
  cases a <;> rfl

namespace Json

@[simp] theorem readText_str (s : String) : readText (.str (some s)) = .ok s := rfl

@[simp] theorem readEnum_str {α : Type} (parse : String → Option α) (s : String) :
    readEnum parse (.str (some s)) = (parse s).elim (.error .unfit) .ok := rfl

@[simp] theorem readInt64_draft (i : Int64) : readInt64 (int i.toInt).draft = .ok i := by
  have hl : -(Text.maxSigned + 1 : Int) ≤ i.toInt := i.le_toInt
  have hu : i.toInt ≤ Text.maxSigned := Int.lt_add_one_iff.1 i.toInt_lt
  rw [int, draft, readInt64, if_pos ⟨hl, hu⟩, Int64.ofInt_toInt]

@[simp] theorem readOption_text (o : Option String) :
    readOption readText (optStr o).draft = .ok o := by
  cases o <;> rfl

@[simp] theorem readOption_int64 (o : Option Int64) :
    readOption readInt64 (OAuth.optInt o).draft = .ok o := by
  cases o with
  | none => rfl
  | some i => exact congrArg (Except.map some) (readInt64_draft i)

end Json

theorem Identity.read_draft (i : Identity) : record.read i.toJson.draft = .ok i := by
  simp [toJson, record, Json.draft, Json.membersDraft, Json.Record.read, Json.Record.map,
    Json.Record.and, Json.Record.member, Json.required, Json.optional, Json.field, Except.map,
    List.foldlM, bind, Except.bind, pure, Except.pure]

namespace OAuth

theorem State.read_draft (s : State) : record.read s.toJson.draft = .ok s := by
  simp [toJson, record, Json.draft, Json.membersDraft, Json.Record.read, Json.Record.map,
    Json.Record.and, Json.Record.member, Json.required, Json.optional, Json.field, Except.map,
    List.foldlM, bind, Except.bind, pure, Except.pure]

theorem PendingLink.read_draft (l : PendingLink) : record.read l.toJson.draft = .ok l := by
  have hi := Identity.read_draft l.identity
  unfold record
  generalize Identity.record.read = read at hi
  simp [toJson, Json.draft, Json.membersDraft, Json.Record.read, Json.Record.map,
    Json.Record.and, Json.Record.member, Json.required, Json.field, hi, Except.map,
    List.foldlM, bind, Except.bind, pure, Except.pure]

instance : Staged.Lawful State where
  Fits _ := True
  read_compact _ := (Json.ofText_compact _ _).trans (State.read_draft _)
  stage_advance _ _ _ := rfl
  fits_advance _ _ _ := trivial
  text_injective := injective_of_read OneShot.ofText?_text

instance : Staged.Lawful PendingLink where
  Fits _ := True
  read_compact _ := (Json.ofText_compact _ _).trans (PendingLink.read_draft _)
  stage_advance _ _ _ := rfl
  fits_advance _ _ _ := trivial
  text_injective := injective_of_read OneShot.ofText?_text

end OAuth

end Handoff
