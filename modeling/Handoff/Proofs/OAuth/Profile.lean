import Handoff.Identity
import Handoff.Proofs.Text.Case

namespace Handoff

def Json.Tells (name : String) (j : Json) : Prop :=
  ∃ s, j.get? name = some (.str s) ∧ ∃ c ∈ s.toList, Text.isBlank c = false

namespace Identity

open Text (Tidy IsCapital)

variable {profile : Json} {name t : String} {names : List String} {i : Identity}

/-- Identities that can be compared text by text. -/
structure IsNormal (i : Identity) : Prop where
  provider : Tidy i.providerId
  display : Tidy i.displayName
  avatar : ∀ a ∈ i.avatarUrl, Tidy a
  email : ∀ e ∈ i.email, Tidy e ∧ '@' ∈ e.toList ∧ ∀ c ∈ e.toList, ¬IsCapital c

def toProfile (i : Identity) : Json :=
  .obj (("id", .str i.providerId) :: ("displayName", .str i.displayName) ::
    ((i.email.map fun e => ("mail", .str e)).toList ++
      (i.avatarUrl.map fun a => ("avatarUrl", .str a)).toList))

section Reading

theorem exists_text_iff :
    (∃ t, ((profile.get? name).bind Json.str?).bind Text.nonBlank = some t) ↔
      profile.Tells name := by
  have hs (j : Json) (s : String) : j.str? = some s ↔ j = .str s := by cases j <;> simp [Json.str?]
  simp only [Option.bind_eq_some_iff, hs, Json.Tells, ← Text.exists_nonBlank_iff]
  constructor
  · rintro ⟨t, s, ⟨j, hj, rfl⟩, ht⟩
    exact ⟨s, hj, t, ht⟩
  · rintro ⟨s, hj, t, ht⟩
    exact ⟨t, s, ⟨_, hj, rfl⟩, ht⟩

theorem tidy_of_firstText (h : firstText profile names = some t) : Tidy t := by
  obtain ⟨name, -, hn⟩ := List.exists_of_findSome?_eq_some h
  obtain ⟨s, -, hs⟩ := Option.bind_eq_some_iff.1 hn
  exact Text.tidy_of_nonBlank hs

theorem exists_firstText_iff (profile : Json) (names : List String) :
    (∃ t, firstText profile names = some t) ↔ ∃ name ∈ names, profile.Tells name := by
  simp only [← exists_text_iff, ← Option.isSome_iff_exists, firstText, List.findSome?_isSome_iff]

theorem firstText_cons {o : Option String} (hg : profile.get? name = o.map .str)
    (ho : ∀ s ∈ o, Tidy s) : firstText profile (name :: names) = o.or (firstText profile names) := by
  rw [firstText, List.findSome?_cons, hg]
  cases o with
  | none => rfl
  | some s =>
    simp only [Option.map_some, Option.bind_some, Json.str?, (ho s rfl).nonBlank, Option.some_or]

theorem ofProfile_cases (profile : Json) :
    (profile.Tells "id" ∨ profile.Tells "sub") ∧ (∃ i, ofProfile profile = .ok i) ∨
      ¬(profile.Tells "id" ∨ profile.Tells "sub") ∧
        ofProfile profile = .error (.incomplete "id") := by
  have hid := exists_firstText_iff profile ["id", "sub"]
  simp only [List.mem_cons, List.not_mem_nil, or_false, exists_eq_or_imp, exists_eq_left] at hid
  rw [← hid, ofProfile]
  cases firstText profile ["id", "sub"] with
  | none => exact .inr ⟨nofun, rfl⟩
  | some id => exact .inl ⟨⟨id, rfl⟩, _, rfl⟩

theorem isNormal_of_ofProfile (h : ofProfile profile = .ok i) : i.IsNormal := by
  unfold ofProfile at h
  split at h
  · cases h
  · next id hid =>
    have hemail : ∀ e ∈ ((firstText profile ["mail", "email", "userPrincipalName"]).filter
        fun e => e.toList.contains '@').map Text.lower,
        Tidy e ∧ '@' ∈ e.toList ∧ ∀ c ∈ e.toList, ¬IsCapital c := by
      intro e he
      obtain ⟨t, ht, rfl⟩ := Option.map_eq_some_iff.1 he
      obtain ⟨ht, hat⟩ := Option.filter_eq_some_iff.1 ht
      refine ⟨(tidy_of_firstText ht).lower, ?_, fun c hc => Text.not_isCapital_of_mem_lower hc⟩
      rw [Text.toList_lower]
      exact List.mem_map_of_mem (List.contains_iff_mem.1 hat)
    cases h
    refine ⟨tidy_of_firstText hid, ?_, fun a ha => tidy_of_firstText ha, hemail⟩
    -- The name is one of the profile, or the address, or the id.
    dsimp only
    cases hn : firstText profile ["displayName", "name"] with
    | some n => exact tidy_of_firstText hn
    | none =>
      rw [Option.none_or]
      generalize Option.map Text.lower _ = email at hemail ⊢
      cases email with
      | some e => exact (hemail e rfl).1
      | none => exact tidy_of_firstText hid

end Reading

section Profile

theorem get?_toProfile (i : Identity) :
    i.toProfile.get? "id" = some (.str i.providerId) ∧
      i.toProfile.get? "displayName" = some (.str i.displayName) ∧
      i.toProfile.get? "mail" = i.email.map .str ∧
      i.toProfile.get? "email" = none ∧ i.toProfile.get? "userPrincipalName" = none ∧
      i.toProfile.get? "picture" = none ∧ i.toProfile.get? "avatarUrl" = i.avatarUrl.map .str := by
  obtain ⟨p, d, a, e⟩ := i
  cases a <;> cases e <;> simp [toProfile, Json.get?]

theorem ofProfile_toProfile (h : i.IsNormal) : ofProfile i.toProfile = .ok i := by
  obtain ⟨hid, hname, hmail, hemail, hupn, hpic, havatar⟩ := i.get?_toProfile
  have hid : firstText i.toProfile ["id", "sub"] = some i.providerId := by
    rw [firstText_cons (o := some i.providerId) hid fun _ hs => Option.some.inj hs ▸ h.provider]
    rfl
  have hname : firstText i.toProfile ["displayName", "name"] = some i.displayName := by
    rw [firstText_cons (o := some i.displayName) hname fun _ hs => Option.some.inj hs ▸ h.display]
    rfl
  have hmail : firstText i.toProfile ["mail", "email", "userPrincipalName"] = i.email := by
    rw [firstText_cons hmail fun e he => (h.email e he).1, firstText_cons (o := none) hemail nofun,
      firstText_cons (o := none) hupn nofun]
    exact Option.or_none
  have havatar : firstText i.toProfile ["picture", "avatarUrl"] = i.avatarUrl := by
    rw [firstText_cons (o := none) hpic nofun, firstText_cons havatar h.avatar]
    exact Option.or_none
  have hlower : (i.email.filter fun e => e.toList.contains '@').map Text.lower = i.email := by
    cases he : i.email with
    | none => rfl
    | some e =>
      obtain ⟨-, hat, hlow⟩ := h.email e he
      rw [Option.filter_some, if_pos (List.contains_iff_mem.2 hat), Option.map_some,
        Text.lower_eq_self hlow]
  rw [ofProfile, hid, hname, hmail, havatar]
  simp only [hlower]
  rfl

end Profile

/-- A profile without an id is refused for that. From any other comes an identity in normal form,
and whatever is in normal form comes back from its own profile. -/
theorem ofProfile_normal (profile : Json) :
    (ofProfile profile = .error (.incomplete "id") ↔
      ¬profile.Tells "id" ∧ ¬profile.Tells "sub") ∧
    (profile.Tells "id" ∨ profile.Tells "sub" →
      ∃ i, ofProfile profile = .ok i ∧ i.IsNormal ∧ ofProfile i.toProfile = .ok i) ∧
    ∀ i : Identity, i.IsNormal → ofProfile i.toProfile = .ok i := by
  obtain ⟨ht, i, hi⟩ | ⟨ht, he⟩ := ofProfile_cases profile
  · have hn := isNormal_of_ofProfile hi
    refine ⟨⟨fun h => ?_, fun h => absurd ht (not_or.2 h)⟩,
      fun _ => ⟨i, hi, hn, ofProfile_toProfile hn⟩, fun i => ofProfile_toProfile⟩
    cases hi.symm.trans h
  · exact ⟨⟨fun _ => not_or.1 ht, fun _ => he⟩, fun h => absurd h ht,
      fun i => ofProfile_toProfile⟩

end Identity

end Handoff
