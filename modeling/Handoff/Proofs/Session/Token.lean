import Handoff.Proofs.Codec.Base64Url
import Handoff.Proofs.Crypto.Gcm
import Handoff.Proofs.Rendezvous.Payload
import Handoff.Proofs.Text.Blank
import Handoff.Session.Token

namespace Handoff.Session

def spell (p g : List Char) : String := String.ofList (version.toList ++ '.' :: p ++ '.' :: g)

/-- Between blanks the token is spelt with this payload and this tag. -/
structure Shaped (token : String) (p g : List Char) : Prop where
  trim_eq : Text.trim token = spell p g
  payload_ne_nil : p ≠ []
  tag_ne_nil : g ≠ []
  dot_not_mem_payload : '.' ∉ p
  dot_not_mem_tag : '.' ∉ g

section Spelling

variable {token : String} {p g q k : List Char} (bs cs : List UInt8)

theorem toList_spell : (spell p g).toList = Text.joinChars ['.'] [version.toList, p, g] := by
  simp [spell, Text.joinChars]

theorem Shaped.split (h : Shaped token p g) :
    Text.splitChars '.' (Text.trimChars token.toList) = [version.toList, p, g] := by
  rw [← Text.toList_trim, h.trim_eq, toList_spell, Text.splitChars_joinChars]
  simp only [List.forall_mem_cons]
  exact ⟨by decide, h.dot_not_mem_payload, h.dot_not_mem_tag, by simp⟩

theorem Issuer.parts?_eq_some_iff : parts? token.toList = some (p, g) ↔ Shaped token p g := by
  constructor
  · intro h
    unfold parts? at h
    split at h
    · next v p' g' hs =>
      rw [Option.ite_none_right_eq_some] at h
      obtain ⟨⟨rfl, hp, hg⟩, e⟩ := h
      cases e
      have hj := Text.joinChars_splitChars '.' (Text.trimChars token.toList)
      have hn {q : List Char} (hq : q ∈ [version.toList, p, g]) : '.' ∉ q :=
        Text.not_mem_of_mem_splitChars (hs ▸ hq)
      refine ⟨String.toList_inj.1 ?_, hp, hg, hn (by simp), hn (by simp)⟩
      rw [Text.toList_trim, toList_spell, ← hs, hj]
    · cases h
  · intro h
    rw [parts?, h.split]
    exact if_pos ⟨rfl, h.payload_ne_nil, h.tag_ne_nil⟩

theorem Shaped.unique (h : Shaped token p g) (h' : Shaped token q k) : p = q ∧ g = k := by
  have he := h.split.symm.trans h'.split
  simpa using he

theorem dot_not_mem_encodeChars : '.' ∉ Base64Url.encodeChars bs := fun h =>
  Base64Url.forall_mem_encodeChars (p := (· ≠ '.')) (by decide) bs _ h rfl

theorem isBlank_spell : ∀ d ∈ (spell (Base64Url.encodeChars bs) (Base64Url.encodeChars cs)).toList,
    Text.isBlank d = false := by
  have hsigns (ds : List UInt8) : ∀ d ∈ Base64Url.encodeChars ds, Text.isBlank d = false :=
    Base64Url.forall_mem_encodeChars (by decide) ds
  have hversion : version.toList.any Text.isBlank = false := by decide
  rw [toList_spell]
  simp only [Text.joinChars, List.forall_mem_append, List.forall_mem_singleton]
  exact ⟨⟨by simpa using hversion, by decide⟩, ⟨hsigns bs, by decide⟩, hsigns cs⟩

theorem trim_spell : Text.trim (spell (Base64Url.encodeChars bs) (Base64Url.encodeChars cs)) =
    spell (Base64Url.encodeChars bs) (Base64Url.encodeChars cs) := by
  rw [Text.trim, Text.trimChars_eq_self (isBlank_spell bs cs), String.ofList_toList]

variable {bs cs}

theorem shaped_spell (hb : Base64Url.encodeChars bs ≠ []) (hc : Base64Url.encodeChars cs ≠ []) :
    Shaped (spell (Base64Url.encodeChars bs) (Base64Url.encodeChars cs))
      (Base64Url.encodeChars bs) (Base64Url.encodeChars cs) :=
  ⟨trim_spell bs cs, hb, hc, dot_not_mem_encodeChars bs, dot_not_mem_encodeChars cs⟩

end Spelling

theorem Claims.read_draft {c : Claims} (hi : c.iat ≤ Text.maxWord) (he : c.exp ≤ Text.maxWord) :
    record.read c.toJson.draft = .ok c := by
  have huid := Json.readInt64_draft c.uid
  generalize hd : (Json.int c.uid.toInt).draft = d at huid
  simp [toJson, record, Json.draft, Json.membersDraft, Json.Record.read, Json.Record.map,
    Json.Record.and, Json.Record.member, Json.required, Json.field, Json.readNat, Json.nat, hd,
    huid, hi, he, Except.map, List.foldlM, bind, Except.bind, pure, Except.pure]

namespace Claims

variable (c : Claims)

def written : List Char := Base64Url.encodeChars (Text.Utf8.encode c.toJson.compact)

theorem written_ne_nil : c.written ≠ [] := by
  have hl := Text.Utf8.length_le_encodeChars c.toJson.chars
  have hp : 0 < c.toJson.chars.length := by
    rw [toJson, Json.chars, List.length_cons]
    exact Nat.succ_pos _
  rw [← List.length_pos_iff, written, Base64Url.length_encodeChars, Text.Utf8.encode, Json.compact,
    String.toList_ofList]
  omega

variable {c}

theorem read_written (hi : c.iat ≤ Text.maxWord) (he : c.exp ≤ Text.maxWord) :
    Issuer.readClaims c.written = some c := by
  rw [Issuer.readClaims, written, Base64Url.decodeChars_encodeChars]
  simp only [Option.bind_eq_bind, Option.bind_some, Json.ofBytes_compact, read_draft hi he]
  rfl

end Claims

namespace Issuer

def tag (i : Issuer) (p : List Char) : List Char :=
  Base64Url.encodeChars (Hmac.sha256 (Text.Utf8.encode i.secret) (Text.Utf8.encodeChars p))

theorem decodeChars_tag (i : Issuer) (p : List Char) :
    Base64Url.decodeChars (i.tag p) = some (i.sign p) := Base64Url.decodeChars_encodeChars _

theorem tag_ne_nil (i : Issuer) (p : List Char) : i.tag p ≠ [] := by
  rw [← List.length_pos_iff, tag, Base64Url.length_encodeChars, Hmac.length_sha256]
  decide

variable (i : Issuer) (c : Claims)

theorem shaped_write : Shaped (i.write c) c.written (i.tag c.written) :=
  shaped_spell c.written_ne_nil (i.tag_ne_nil c.written)

theorem nonBlank_write : Text.nonBlank (i.write c) = some (i.write c) := by
  have hy : 'y' ∈ (i.write c).toList := by
    rw [write, String.toList_ofList]
    exact List.mem_cons_self
  rw [Text.nonBlank_eq_trim ⟨'y', hy, by decide⟩, (i.shaped_write c).trim_eq]
  rfl

variable {c}

theorem verify_write (hi : c.iat ≤ Text.maxWord) (he : c.exp ≤ Text.maxWord) (now : Nat) :
    i.verify now (i.write c) = if c.exp ≤ now / 1000 then .error .expired else .ok c := by
  simp only [verify, parts?_eq_some_iff.2 (i.shaped_write c), decodeChars_tag,
    Claims.read_written hi he, ne_eq, not_true_eq_false, if_false]

/-- A session that was issued at a time is good until its claims expire. -/
theorem verify_issue {t : Nat} (ht : t ≤ Text.maxWord) (uid : Int64) (random : List UInt8)
    (now : Nat) : i.verify now (i.issue t uid random) =
      if Text.addTime (t / 1000) i.ttl ≤ now / 1000 then .error .expired
      else .ok (i.claims t uid (identifier random)) :=
  i.verify_write (Nat.le_trans (Nat.div_le_self _ _) ht) (Nat.min_le_right _ _) now

end Issuer

end Handoff.Session
