import Handoff.Proofs.Text.Blank
import Handoff.Session.Carrier

namespace Handoff

namespace Session

/-- No bearer token can be read: the first authorization field is not text, or it does not name one,
or there are only blanks behind the name. -/
def Bearerless (hs : Headers) : Prop :=
  ∀ value, hs.first? "authorization" = some value → Headers.isReadable value = true →
    ∀ rest, Text.trimChars value.toList = "Bearer ".toList ++ rest →
      ∀ c ∈ rest, Text.isBlank c = true

def Claimed (piece : List Char) : Prop :=
  ∃ value, value ≠ [] ∧ Text.trimChars piece = cookieName.toList ++ '=' :: value

/-- Among the cookies is this pair, and none before it gives our cookie a value. -/
def Sends (hs : Headers) (pair : String) : Prop :=
  ∃ before value after left piece right,
    hs.all "cookie" = before ++ value :: after ∧ Headers.isReadable value = true ∧
    Text.splitChars ';' value.toList = left ++ piece :: right ∧
    Text.trimChars piece = pair.toList ∧
    (∀ v ∈ before, Headers.isReadable v = true → ∀ q ∈ Text.splitChars ';' v.toList, ¬Claimed q) ∧
    ∀ q ∈ left, ¬Claimed q

theorem bearer?_eq_none_iff {hs : Headers} : bearer? hs = none ↔ Bearerless hs := by
  rw [bearer?, Option.bind_eq_bind, Option.bind_eq_none_iff]
  refine forall_congr' fun value => ?_
  rw [Headers.text?, Option.filter_eq_some_iff, and_imp, Option.bind_eq_bind,
    Option.bind_eq_none_iff]
  refine imp_congr_right fun _ => imp_congr_right fun _ => forall_congr' fun rest => ?_
  rw [Text.after?_eq_some_iff, Text.nonBlank_eq_none_iff, String.toList_ofList (l := rest)]

theorem claimed_iff {piece : List Char} :
    Claimed piece ↔ ∃ value, value ≠ [] ∧ cookie? piece = some (cookieName.toList, value) := by
  have hn : '=' ∉ cookieName.toList := by decide
  refine exists_congr fun value => and_congr_right fun _ => ?_
  constructor
  · intro h
    rw [cookie?, h, Text.cutChars_append hn]
  · exact Text.eq_append_of_cutChars

theorem Sends.cookieToken?_eq {hs : Headers} {token : String} (hn : token.toList ≠ [])
    (h : Sends hs (cookieName ++ "=" ++ token)) : cookieToken? hs = some token := by
  obtain ⟨before, value, after, left, piece, right, hall, hr, hsplit, hpair, hbefore, hleft⟩ := h
  have hpiece : cookie? piece = some (cookieName.toList, token.toList) := by
    rw [cookie?, hpair, String.toList_append, String.toList_append, List.append_assoc]
    exact Text.cutChars_append (by decide) _
  -- What does not give our cookie a value is not found.
  have hskip {q : List Char} (hq : ¬Claimed q) : ∀ p ∈ cookie? q,
      ¬decide (p.1 = cookieName.toList ∧ p.2 ≠ []) = true := by
    rintro ⟨name, v⟩ hp ht
    obtain ⟨rfl, hv⟩ := of_decide_eq_true ht
    exact hq (claimed_iff.2 ⟨v, hv, hp⟩)
  rw [cookieToken?, hall, List.filter_append, List.filter_cons_of_pos hr, List.flatMap_append,
    List.flatMap_cons, hsplit, List.filterMap_append, List.filterMap_cons,
    hpiece, List.find?_append, List.find?_eq_none.2, Option.none_or, List.append_assoc,
    List.find?_append, List.find?_eq_none.2, Option.none_or, List.cons_append,
    List.find?_cons_of_pos, Option.map_some, String.ofList_toList]
  · simp [hn]
  · intro p hp
    obtain ⟨q, hq, hp⟩ := List.mem_filterMap.1 hp
    exact hskip (hleft q hq) p hp
  · intro p hp
    obtain ⟨v, hv, hp⟩ := List.mem_flatMap.1 hp
    obtain ⟨q, hq, hp⟩ := List.mem_filterMap.1 hp
    have hv := List.mem_filter.1 hv
    exact hskip (hbefore v hv.1 hv.2 q hq) p hp

theorem Sends.fromHeaders_eq {hs : Headers} {token : String} (hn : token.toList ≠ [])
    (hb : Bearerless hs) (h : Sends hs (cookieName ++ "=" ++ token)) :
    fromHeaders hs = some token := by
  rw [fromHeaders, bearer?_eq_none_iff.2 hb, Option.none_or, h.cookieToken?_eq hn]

end Session

end Handoff
