import Handoff.Proofs.Session.Token

namespace Handoff.Session

/-- The payload is what writing makes of a JSON text that says `c`. -/
def Holds (p : List Char) (c : Claims) : Prop :=
  ∃ bs, p = Base64Url.encodeChars bs ∧ Json.ofBytes Claims.record.read bs = .ok c

section Payload

variable {p : List Char} {c d : Claims}

theorem Issuer.readClaims_eq_some_iff : readClaims p = some c ↔ Holds p c := by
  rw [readClaims, Option.bind_eq_bind, Option.bind_eq_some_iff]
  constructor
  · rintro ⟨bs, hb, hc⟩
    refine ⟨bs, (Base64Url.encodeChars_of_decodeChars hb).symm, ?_⟩
    cases hr : Json.ofBytes Claims.record.read bs with
    | error f => rw [hr] at hc; cases hc
    | ok a => rw [hr] at hc; cases hc; rfl
  · rintro ⟨bs, rfl, hc⟩
    exact ⟨bs, Base64Url.decodeChars_encodeChars bs, by rw [hc]; rfl⟩

theorem Holds.unique (h : Holds p c) (h' : Holds p d) : c = d :=
  Option.some.inj <| (Issuer.readClaims_eq_some_iff.2 h).symm.trans
    (Issuer.readClaims_eq_some_iff.2 h')

theorem Holds.ne_nil (h : Holds p c) : p ≠ [] := by
  obtain ⟨bs, rfl, hc⟩ := h
  rintro he
  have hb : bs = [] := by
    have := Base64Url.decodeChars_encodeChars bs
    rw [he] at this
    exact (Option.some.inj this).symm
  subst hb
  -- Nothing is no JSON text.
  have hr : Json.ofBytes Claims.record.read [] = .error .malformed := by
    simp only [Json.ofBytes, Text.Utf8.scan, Text.Utf8.scanFrom, Json.readSource, Json.Draft.read,
      Json.scan, Json.build, Json.breakOff]
    rfl
  cases hr.symm.trans hc

end Payload

namespace Issuer

/-- The answers that the spelling of a token calls for at `now` milliseconds. -/
inductive Judges (i : Issuer) (now : Nat) (token : String) : Except Error Claims → Prop
  | shapeless (hs : ∀ p bs, ¬ Shaped token p (Base64Url.encodeChars bs)) :
    Judges i now token (.error .malformed)
  | forged {p g} (hs : Shaped token p g) (hg : ∃ bs, g = Base64Url.encodeChars bs)
    (hne : g ≠ i.tag p) : Judges i now token (.error .badSignature)
  | senseless {p} (hs : Shaped token p (i.tag p)) (hc : ∀ c, ¬ Holds p c) :
    Judges i now token (.error .malformed)
  | late {p c} (hs : Shaped token p (i.tag p)) (hc : Holds p c) (he : c.exp ≤ now / 1000) :
    Judges i now token (.error .expired)
  | good {p c} (hs : Shaped token p (i.tag p)) (hc : Holds p c) (he : now / 1000 < c.exp) :
    Judges i now token (.ok c)

variable {i : Issuer} {now : Nat} {token : String} {p g : List Char} {r : Except Error Claims}

theorem verify_of_tag (hs : Shaped token p (i.tag p)) : i.verify now token =
    match readClaims p with
    | none => .error .malformed
    | some c => if c.exp ≤ now / 1000 then .error .expired else .ok c := by
  rw [verify, parts?_eq_some_iff.2 hs]
  dsimp only
  rw [decodeChars_tag]
  exact if_neg (not_not.2 rfl)

theorem Judges.verify_eq (h : i.Judges now token r) : i.verify now token = r := by
  cases h with
  | shapeless hs =>
    unfold verify
    split
    · rfl
    · next p g hp =>
      -- A tag that decodes would be what writing makes of some octets.
      have hd : Base64Url.decodeChars g = none := by
        rw [Option.eq_none_iff_forall_ne_some]
        rintro bs hb
        obtain rfl := Base64Url.encodeChars_of_decodeChars hb
        exact hs p bs (parts?_eq_some_iff.1 hp)
      rw [hd]
  | @forged p g hs hg hne =>
    obtain ⟨bs, rfl⟩ := hg
    have hb : bs ≠ i.sign p := fun e => hne (congrArg Base64Url.encodeChars e)
    rw [verify, parts?_eq_some_iff.2 hs]
    simp only [Base64Url.decodeChars_encodeChars, if_pos hb]
  | senseless hs hc =>
    have hn : readClaims _ = none :=
      Option.eq_none_iff_forall_ne_some.2 fun c hr => hc c (readClaims_eq_some_iff.1 hr)
    rw [verify_of_tag hs, hn]
  | late hs hc he => rw [verify_of_tag hs, readClaims_eq_some_iff.2 hc]; exact if_pos he
  | good hs hc he =>
    rw [verify_of_tag hs, readClaims_eq_some_iff.2 hc]
    exact if_neg (Nat.not_le.2 he)

theorem Judges.exists (i : Issuer) (now : Nat) (token : String) : ∃ r, i.Judges now token r := by
  by_cases h : ∃ p bs, Shaped token p (Base64Url.encodeChars bs)
  · obtain ⟨p, bs, hs⟩ := h
    by_cases hg : Base64Url.encodeChars bs = i.tag p
    · rw [hg] at hs
      by_cases hc : ∃ c, Holds p c
      · obtain ⟨c, hc⟩ := hc
        obtain he | he := Nat.lt_or_ge (now / 1000) c.exp
        · exact ⟨_, .good hs hc he⟩
        · exact ⟨_, .late hs hc he⟩
      · exact ⟨_, .senseless hs (not_exists.1 hc)⟩
    · exact ⟨_, .forged hs ⟨bs, rfl⟩ hg⟩
  · exact ⟨_, .shapeless fun p bs hs => h ⟨p, bs, hs⟩⟩

theorem verify_eq_iff : i.verify now token = r ↔ i.Judges now token r := by
  refine ⟨?_, Judges.verify_eq⟩
  rintro rfl
  obtain ⟨r, hr⟩ := Judges.exists i now token
  rwa [hr.verify_eq]

theorem verify_eq_ok_iff {c : Claims} : i.verify now token = .ok c ↔
    ∃ p, Shaped token p (i.tag p) ∧ Holds p c ∧ now / 1000 < c.exp := by
  rw [verify_eq_iff]
  constructor
  · rintro ⟨⟩
    exact ⟨_, ‹_›, ‹_›, ‹_›⟩
  · rintro ⟨p, hs, hc, he⟩
    exact .good hs hc he

def Accepts (i : Issuer) (now : Nat) (p g : List Char) : Prop :=
  ∃ token c, Shaped token p g ∧ i.verify now token = .ok c

theorem accepts_iff : i.Accepts now p g ↔
    g = i.tag p ∧ ∃ c, Holds p c ∧ now / 1000 < c.exp := by
  constructor
  · rintro ⟨token, c, hs, hv⟩
    obtain ⟨q, ht, hc, he⟩ := verify_eq_ok_iff.1 hv
    obtain ⟨rfl, rfl⟩ := hs.unique ht
    exact ⟨rfl, c, hc, he⟩
  · rintro ⟨rfl, c, hc, he⟩
    obtain ⟨bs, rfl, -⟩ := id hc
    have hs := shaped_spell hc.ne_nil (i.tag_ne_nil (Base64Url.encodeChars bs))
    exact ⟨_, c, hs, verify_eq_ok_iff.2 ⟨_, hs, hc, he⟩⟩

/-- Verifying gives the answer that the spelling calls for, and no other: the claims go to exactly
the tokens that are spelt with a payload that holds them and with its tag. A payload that holds
claims which have not expired is accepted with one tag, any other payload with none. -/
theorem verify_grammar (i : Issuer) (now : Nat) :
    (∀ token r, i.verify now token = r ↔ i.Judges now token r) ∧
    (∀ token c, i.verify now token = .ok c ↔
      ∃ p, Shaped token p (i.tag p) ∧ Holds p c ∧ now / 1000 < c.exp) ∧
    ∀ p g, i.Accepts now p g ↔ g = i.tag p ∧ ∃ c, Holds p c ∧ now / 1000 < c.exp :=
  ⟨fun _ _ => verify_eq_iff, fun _ _ => verify_eq_ok_iff, fun _ _ => accepts_iff⟩

end Issuer

end Handoff.Session
