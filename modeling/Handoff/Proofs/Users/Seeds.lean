import Handoff.Proofs.Text.Blank
import Handoff.Proofs.Text.Digits
import Handoff.Proofs.Text.Split
import Handoff.Users
import Mathlib.Data.List.Forall2

namespace Handoff

namespace Text

def Pads (cs padded : List Char) : Prop :=
  ∃ as bs, as.all isBlank = true ∧ bs.all isBlank = true ∧ padded = as ++ (cs ++ bs)

namespace Pads

variable {c : Char} {cs ps : List Char}

theorem not_mem (h : Pads cs ps) (hc : isBlank c = false) (hn : c ∉ cs) : c ∉ ps := by
  obtain ⟨as, bs, ha, hb, rfl⟩ := h
  have hblank {xs : List Char} (hx : xs.all isBlank = true) : c ∉ xs := fun hm =>
    Bool.false_ne_true (hc.symm.trans (List.all_eq_true.1 hx c hm))
  simp [hblank ha, hblank hb, hn]

theorem forall_not_mem {css pss : List (List Char)} (h : List.Forall₂ Pads css pss)
    (hc : isBlank c = false) (hn : ∀ cs ∈ css, c ∉ cs) : ∀ ps ∈ pss, c ∉ ps := by
  induction h with
  | nil => nofun
  | cons hp _ ih =>
    rw [List.forall_mem_cons] at hn ⊢
    exact ⟨hp.not_mem hc hn.1, ih hn.2⟩

theorem trimChars_eq (h : Pads cs ps) (hc : trimChars cs = cs) : trimChars ps = cs := by
  obtain ⟨as, bs, ha, hb, rfl⟩ := h
  exact trimChars_pad ha hb hc

theorem trimStart_append (h : Pads cs ps) (hc : trimChars cs = cs) (hn : cs ≠ [])
    (ds : List Char) : ∃ qs, Pads cs qs ∧ trimStart (ps ++ ds) = qs ++ ds := by
  obtain ⟨as, bs, ha, hb, rfl⟩ := h
  refine ⟨cs ++ bs, ⟨[], bs, rfl, hb, rfl⟩, ?_⟩
  obtain ⟨c, cs, rfl⟩ := List.exists_cons_of_ne_nil hn
  have hh := head?_trimChars (c :: cs)
  rw [hc] at hh
  rw [List.append_assoc, Text.trimStart_append ha]
  exact trimStart_eq_self hh

theorem trimEnd (h : Pads cs ps) (hc : trimChars cs = cs) (hn : cs ≠ []) :
    Pads cs (trimEnd ps) := by
  obtain ⟨as, bs, ha, hb, rfl⟩ := h
  refine ⟨as, [], ha, rfl, ?_⟩
  have hl := getLast?_trimChars cs
  rw [hc] at hl
  rw [← List.append_assoc, trimEnd_append hb, List.append_nil]
  refine trimEnd_eq_self ?_
  rwa [List.getLast?_append_of_ne_nil _ hn]

end Pads

end Text

namespace Users

open Text (Pads Tidy)

variable {u : User} {us : List User} {item : List Char} {raw : String}

structure IsSeed (u : User) : Prop where
  username : Tidy u.username
  separators : ',' ∉ u.username.toList ∧ ':' ∉ u.username.toList
  email : ∀ e ∈ u.email, Tidy e ∧ ',' ∉ e.toList
  avatarUrl : u.avatarUrl = none
  providerId : u.providerId = none

def seedFields (u : User) : List (List Char) :=
  Text.intChars u.id.toInt :: u.username.toList :: (u.email.map String.toList).toList

/-- The item says `id:username` or `id:username:email`, with any blanks around the fields. -/
def Spells (u : User) (item : List Char) : Prop :=
  ∃ fields, List.Forall₂ Pads (seedFields u) fields ∧ item = Text.joinChars [':'] fields

def Lists (us : List User) (raw : String) : Prop :=
  ∃ items, List.Forall₂ Spells us items ∧ raw.toList = Text.joinChars [','] items

section Fields

theorem isPlain_of_mem_intChars {i : Int} : ∀ c ∈ Text.intChars i,
    Text.isBlank c = false ∧ c ≠ ',' ∧ c ≠ ':' := by
  have hdigit {n : Nat} : ∀ c ∈ Text.natChars n, Text.isBlank c = false ∧ c ≠ ',' ∧ c ≠ ':' := by
    intro c hc
    exact Text.forall_isHexDigit (p := fun c => Text.isBlank c = false ∧ c ≠ ',' ∧ c ≠ ':')
      (by decide) (Text.isHexDigit_of_isAsciiDigit (Text.isAsciiDigit_of_mem_natChars c hc))
  cases i with
  | ofNat n => exact hdigit
  | negSucc n => exact List.forall_mem_cons.2 ⟨by decide, hdigit⟩

theorem trimChars_intChars (i : Int) : Text.trimChars (Text.intChars i) = Text.intChars i :=
  Text.trimChars_eq_self fun c hc => (isPlain_of_mem_intChars c hc).1

theorem intChars_ne_nil (i : Int) : Text.intChars i ≠ [] := by
  cases i with
  | ofNat n => exact Text.natChars_ne_nil n
  | negSucc n => nofun

theorem trimChars_toList {s : String} (h : Tidy s) : Text.trimChars s.toList = s.toList := by
  rw [← Text.toList_trim, h.trimmed]

theorem toList_ne_nil {s : String} (h : Tidy s) : s.toList ≠ [] := fun hn =>
  h.nonempty (String.toList_inj.1 hn)

theorem nonBlank_of_pads {s : String} {cs : List Char} (h : Pads s.toList cs) (hs : Tidy s) :
    Text.nonBlank (String.ofList cs) = some s := by
  have ht : Text.trim (String.ofList cs) = s := by
    rw [Text.trim, String.toList_ofList, h.trimChars_eq (trimChars_toList hs), String.ofList_toList]
  exact Text.nonBlank_eq_some_iff.2 ⟨ht, hs.nonempty⟩

end Fields

section Items

variable {f g : List Char} {rest : List (List Char)}

theorem parseSeed_of_split (hu : IsSeed u)
    (hs : Text.splitCharsAtMost ':' 2 (Text.trimChars item) = f :: g :: rest)
    (hf : Pads (Text.intChars u.id.toInt) f) (hg : Pads u.username.toList g)
    (he : (rest.head?.bind fun e => Text.nonBlank (String.ofList e)) = u.email) :
    parseSeed item = some u := by
  obtain ⟨id, name, email, avatar, provider⟩ := u
  obtain ⟨htidy, -, -, rfl, rfl⟩ := hu
  rw [parseSeed, hs]
  dsimp only at hf hg he htidy ⊢
  rw [hf.trimChars_eq (trimChars_intChars _), Text.readInt_intChars, nonBlank_of_pads hg htidy, he]
  rfl

theorem trimChars_item {i : Int} (hf : Pads (Text.intChars i) f) (cs : List Char) :
    ∃ g, Pads (Text.intChars i) g ∧ ':' ∉ g ∧
      Text.trimChars (f ++ ':' :: cs) = g ++ ':' :: Text.trimEnd cs := by
  obtain ⟨g, hg, ht⟩ := hf.trimStart_append (trimChars_intChars i) (intChars_ne_nil i) (':' :: cs)
  refine ⟨g, hg, hg.not_mem (by decide) fun hm => (isPlain_of_mem_intChars _ hm).2.2 rfl, ?_⟩
  rw [Text.trimChars, ht, Text.trimEnd_append_cons (by decide)]

theorem parseSeed_of_spells (hu : IsSeed u) (h : Spells u item) : parseSeed item = some u := by
  obtain ⟨fields, hf, rfl⟩ := h
  have hname := trimChars_toList hu.username
  have hne := toList_ne_nil hu.username
  obtain ⟨f, fs, hid, hfs, rfl⟩ := List.forall₂_cons_left_iff.1 hf
  obtain ⟨g, es, hg, hes, rfl⟩ := List.forall₂_cons_left_iff.1 hfs
  have hcolon : ':' ∉ g := hg.not_mem (by decide) hu.separators.2
  cases he : u.email with
  | none =>
    rw [he] at hes
    obtain rfl := List.forall₂_nil_left_iff.1 hes
    obtain ⟨k, hk, hkc, ht⟩ := trimChars_item hid g
    -- The name is at the end, so the blanks behind it are gone.
    have hg' := hg.trimEnd hname hne
    have hcolon' : ':' ∉ Text.trimEnd g := hg'.not_mem (by decide) hu.separators.2
    have hs : Text.splitCharsAtMost ':' 2 (Text.trimChars (Text.joinChars [':'] [f, g])) =
        [k, Text.trimEnd g] := by
      rw [Text.joinChars_cons_cons, Text.joinChars_singleton, ht,
        Text.splitCharsAtMost_append hkc, Text.splitCharsAtMost_of_not_mem hcolon']
    exact parseSeed_of_split hu hs hk hg' he.symm
  | some e =>
    rw [he] at hes
    obtain ⟨x, xs, hx, hxs, rfl⟩ := List.forall₂_cons_left_iff.1 hes
    obtain rfl := List.forall₂_nil_left_iff.1 hxs
    obtain ⟨k, hk, hkc, ht⟩ := trimChars_item hid (g ++ ':' :: x)
    have htidy := (hu.email e he).1
    have hx' := hx.trimEnd (trimChars_toList htidy) (toList_ne_nil htidy)
    -- The address keeps whatever colons it has.
    have hs : Text.splitCharsAtMost ':' 2 (Text.trimChars (Text.joinChars [':'] [f, g, x])) =
        [k, g, Text.trimEnd x] := by
      rw [Text.joinChars_cons_cons, Text.joinChars_cons_cons, Text.joinChars_singleton, ht,
        Text.trimEnd_append_cons (by decide), Text.splitCharsAtMost_append hkc,
        Text.splitCharsAtMost_append hcolon, Text.splitCharsAtMost]
    refine parseSeed_of_split hu hs hk hg ?_
    rw [List.head?_cons, Option.bind_some, nonBlank_of_pads hx' htidy, he]

end Items

section Lists

theorem comma_not_mem (hu : IsSeed u) (h : Spells u item) : ',' ∉ item := by
  obtain ⟨fields, hf, rfl⟩ := h
  have hfields : ∀ cs ∈ seedFields u, ',' ∉ cs := by
    rw [seedFields, List.forall_mem_cons, List.forall_mem_cons]
    refine ⟨fun hm => (isPlain_of_mem_intChars _ hm).2.1 rfl, hu.separators.1, fun cs hcs => ?_⟩
    obtain ⟨e, he, rfl⟩ := Option.map_eq_some_iff.1 (Option.mem_toList.1 hcs)
    exact (hu.email e he).2
  intro hc
  obtain hc | ⟨f, hm, hc⟩ := Text.mem_joinChars hc
  · exact absurd hc (by decide)
  · exact Text.Pads.forall_not_mem hf (by decide) hfields f hm hc

theorem filterMap_parseSeed {items : List (List Char)} (hus : ∀ u ∈ us, IsSeed u)
    (h : List.Forall₂ Spells us items) :
    items.filterMap parseSeed = us ∧ ∀ item ∈ items, ',' ∉ item := by
  induction h with
  | nil => exact ⟨rfl, nofun⟩
  | cons hi _ ih =>
    rw [List.forall_mem_cons] at hus
    obtain ⟨hm, hc⟩ := ih hus.2
    exact ⟨by rw [List.filterMap_cons_some (parseSeed_of_spells hus.1 hi), hm],
      List.forall_mem_cons.2 ⟨comma_not_mem hus.1 hi, hc⟩⟩

theorem parseSeeds_of_lists (hus : ∀ u ∈ us, IsSeed u) (h : Lists us raw) :
    parseSeeds raw = us := by
  obtain ⟨items, hi, hr⟩ := h
  obtain ⟨hm, hc⟩ := filterMap_parseSeed hus hi
  cases items with
  | nil =>
    rw [← hm, parseSeeds, hr]
    rfl
  | cons item items => rw [parseSeeds, hr, Text.splitChars_joinChars hc, hm]

end Lists

theorem parseSeeds_append (a b : String) :
    parseSeeds (a ++ "," ++ b) = parseSeeds a ++ parseSeeds b := by
  have hc : (a ++ "," ++ b).toList = a.toList ++ ',' :: b.toList := by simp
  rw [parseSeeds, hc, Text.splitChars_append_cons, List.filterMap_append]
  rfl

/-- What stands before a comma and what stands after it are read each on its own, whatever it is;
and users who can be written are read back from any list that tells of them. -/
theorem parseSeeds_itemwise :
    (∀ a b : String, parseSeeds (a ++ "," ++ b) = parseSeeds a ++ parseSeeds b) ∧
      ∀ (us : List User) (raw : String), (∀ u ∈ us, IsSeed u) → Lists us raw →
        parseSeeds raw = us :=
  ⟨parseSeeds_append, fun _ _ => parseSeeds_of_lists⟩

section Example

def family : List User :=
  [⟨Int64.minValue, "root", none, none, none⟩, ⟨7, "Ada L", some "a:b@x.io", none, none⟩]

def familyText : String := " -9223372036854775808 :root\t,7: Ada L :\u2003a:b@x.io "

theorem isSeed_family : ∀ u ∈ family, IsSeed u := by
  simp only [family, List.forall_mem_cons, List.not_mem_nil, false_implies, implies_true, and_true]
  refine ⟨⟨⟨by decide, by decide⟩, by decide, nofun, rfl, rfl⟩,
    ⟨⟨by decide, by decide⟩, by decide, ?_, rfl, rfl⟩⟩
  rintro _ ⟨⟩
  exact ⟨⟨by decide, by decide⟩, by decide⟩

theorem lists_family : Lists family familyText := by
  refine ⟨[" -9223372036854775808 :root\t".toList, "7: Ada L :\u2003a:b@x.io ".toList],
    .cons ⟨[" -9223372036854775808 ".toList, "root\t".toList], ?_, by decide⟩ (.cons
      ⟨["7".toList, " Ada L ".toList, "\u2003a:b@x.io ".toList], ?_, by decide⟩ .nil), by decide⟩
  · exact .cons ⟨[' '], [' '], rfl, rfl, by decide +kernel⟩
      (.cons ⟨[], ['\t'], rfl, rfl, by decide⟩ .nil)
  · exact .cons ⟨[], [], rfl, rfl, by decide +kernel⟩ (.cons ⟨[' '], [' '], rfl, rfl, by decide⟩
      (.cons ⟨['\u2003'], [' '], rfl, rfl, by decide⟩ .nil))

theorem parseSeeds_family :
    (∀ u ∈ family, IsSeed u) ∧ Lists family familyText ∧ parseSeeds familyText = family :=
  ⟨isSeed_family, lists_family, parseSeeds_itemwise.2 family familyText isSeed_family lists_family⟩

end Example

end Users

end Handoff
