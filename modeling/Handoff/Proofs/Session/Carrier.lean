import Handoff.Proofs.Session.Cookie
import Handoff.Proofs.Session.Grammar
import Mathlib.Data.Bool.AllAny

namespace Handoff

theorem Headers.all_cons (name other value : String) (hs : Headers) :
    all name ((other, value) :: hs) =
      if Text.sameIgnoringCase other name then value :: all name hs else all name hs := by
  rw [all, List.filter_cons]
  split <;> rfl

namespace Session

def IsSign (c : Char) : Prop := (Base64Url.value c).isSome = true

instance : DecidablePred IsSign := fun _ => inferInstanceAs (Decidable (_ = true))

def IsPlain (c : Char) : Prop := IsSign c ∨ c = '.'

instance : DecidablePred IsPlain := fun _ => inferInstanceAs (Decidable (_ ∨ _))

theorem isSign_sign : ∀ n < 64, IsSign (Base64Url.sign n) := by
  intro n hn
  rw [IsSign, Base64Url.value_sign hn]
  rfl

theorem IsPlain.toNat_lt {c : Char} (hc : IsPlain c) : c.toNat < 128 := by
  cases hc with
  | inl hc =>
    obtain ⟨n, hn⟩ := Option.isSome_iff_exists.1 hc
    exact Base64Url.lt_of_value hn
  | inr hc =>
    subst hc
    decide

/-- No header and no cookie gives such a character a meaning of its own. -/
theorem IsPlain.visible {c : Char} (hc : IsPlain c) :
    Text.isBlank c = false ∧ c ≠ ';' ∧ c ≠ '=' ∧ 0x20 ≤ c.toNat ∧ c.toNat < 0x7f := by
  have key : ∀ m < 128, IsPlain (Char.ofNat m) → Text.isBlank (Char.ofNat m) = false ∧
      Char.ofNat m ≠ ';' ∧ Char.ofNat m ≠ '=' ∧ 0x20 ≤ (Char.ofNat m).toNat ∧
      (Char.ofNat m).toNat < 0x7f := by
    decide +kernel
  have h := key c.toNat hc.toNat_lt
  rw [Char.ofNat_toNat] at h
  exact h hc

theorem isSign_of_isAsciiDigit {c : Char} (hc : Text.isAsciiDigit c = true) : IsSign c := by
  have hx : Text.isHexDigit c = true := by rw [Text.isHexDigit, hc, Bool.true_or, Bool.true_or]
  have key : ∀ n < 128, Text.isHexDigit (Char.ofNat n) = true → IsSign (Char.ofNat n) := by
    decide +kernel
  exact Text.forall_isHexDigit key hx

def kept (value : String) : String :=
  String.ofList ((Text.splitChars ';' value.toList).headD [])

/-- A token in three parts that comes out of headers and cookies as it went in. -/
structure Portable (token : String) : Prop where
  split : ∃ payload tag, Text.splitChars '.' token.toList =
    [version.toList, Base64Url.encodeChars payload, Base64Url.encodeChars tag]
  signs : ∀ p ∈ Text.splitChars '.' token.toList, p ≠ [] ∧ ∀ c ∈ p, IsSign c
  trim_eq : Text.trim token = token
  bearer (hs : Headers) : fromHeaders (("authorization", "Bearer " ++ token) :: hs) = some token
  cookie (hs : Headers) : bearer? hs = none →
    fromHeaders (("cookie", "token=" ++ token) :: hs) = some token
  setCookie (maxAge : Nat) (secure : Bool) :
    (Session.setCookie token maxAge secure).map kept = some ("token=" ++ token)

section Plain

variable {token : String} (hp : ∀ c ∈ token.toList, IsPlain c)
include hp

theorem isReadable_append {front : String} (hf : Headers.isReadable front = true) :
    Headers.isReadable (front ++ token) = true := by
  rw [Headers.isReadable, String.toList_append, List.all_append, Bool.and_eq_true]
  refine ⟨hf, List.all_eq_true.2 fun c hc => ?_⟩
  obtain ⟨-, -, -, hl, hu⟩ := (hp c hc).visible
  simp [hl, hu]

theorem isSendable_plain : Headers.isSendable token = true := by
  refine List.all_eq_true.2 fun c hc => ?_
  obtain ⟨-, -, -, hl, hu⟩ := (hp c hc).visible
  simp [hl, Nat.ne_of_lt hu]

theorem semicolon_not_mem : ';' ∉ "token=".toList ++ token.toList := by
  rw [List.mem_append, not_or]
  exact ⟨by decide, fun hm => (hp _ hm).visible.2.1 rfl⟩

theorem isBlank_pair : ∀ c ∈ "token=".toList ++ token.toList, Text.isBlank c = false := by
  intro c hc
  cases List.mem_append.1 hc with
  | inl hc =>
    have hn : ∀ d ∈ "token=".toList, Text.isBlank d = false :=
      List.all_iff_forall_prop.1 (by decide)
    exact hn c hc
  | inr hc => exact (hp c hc).visible.1

theorem setCookie_plain (maxAge : Nat) (secure : Bool) :
    (Session.setCookie token maxAge secure).map kept = some ("token=" ++ token) := by
  have happ (a b : String) :
      Headers.isSendable (a ++ b) = (Headers.isSendable a && Headers.isSendable b) := by
    rw [Headers.isSendable, String.toList_append, List.all_append]
    rfl
  have hage : Headers.isSendable (Text.natText maxAge) = true := isSendable_plain fun c hc => by
    rw [Text.natText, String.toList_ofList] at hc
    exact .inl (isSign_of_isAsciiDigit (Text.isAsciiDigit_of_mem_natChars c hc))
  have hattributes : Headers.isSendable (if secure then "; Secure" else "") = true := by
    cases secure <;> decide
  unfold Session.setCookie
  dsimp only
  rw [if_pos]
  · rw [Option.map_some, kept]
    have hcut (rest : List Char) : Text.splitChars ';'
        ("token=".toList ++ token.toList ++ ';' :: rest) =
          ("token=".toList ++ token.toList) :: Text.splitChars ';' rest :=
      Text.splitChars_append (semicolon_not_mem hp) rest
    simp only [String.toList_append, List.append_assoc]
    have hhead := congrArg (fun l => some (String.ofList (l.headD [])))
      (hcut (" Path=/; Max-Age=".toList ++ ((Text.natText maxAge).toList ++ ("; HttpOnly".toList ++
        ((if secure then "; Secure" else "").toList ++ "; SameSite=Lax".toList)))))
    simp only [List.append_assoc] at hhead
    refine hhead.trans ?_
    rw [List.headD_cons, ← String.toList_append, String.ofList_toList]
  · simp only [happ, isSendable_plain hp, hage, hattributes]
    decide

theorem sends_plain (hs : Headers) : Sends (("cookie", "token=" ++ token) :: hs)
    ("token=" ++ token) := by
  refine ⟨[], "token=" ++ token, hs.all "cookie", [], ("token=" ++ token).toList, [], ?_,
    isReadable_append hp (by decide), ?_, ?_, nofun, nofun⟩
  · rw [Headers.all_cons, if_pos (by decide), List.nil_append]
  · rw [String.toList_append]
    exact Text.splitChars_of_not_mem (semicolon_not_mem hp)
  · rw [String.toList_append]
    exact Text.trimChars_eq_self (isBlank_pair hp)

theorem cookie_plain (hn : token.toList ≠ []) {hs : Headers} (hb : bearer? hs = none) :
    fromHeaders (("cookie", "token=" ++ token) :: hs) = some token := by
  have hb' : bearer? (("cookie", "token=" ++ token) :: hs) = bearer? hs := by
    rw [bearer?, bearer?, Headers.text?, Headers.first?, Headers.all_cons, if_neg (by decide)]
    rfl
  exact (sends_plain hp hs).fromHeaders_eq hn (bearer?_eq_none_iff.1 (hb'.trans hb))

theorem bearer_plain (hn : token.toList ≠ []) (hs : Headers) :
    fromHeaders (("authorization", "Bearer " ++ token) :: hs) = some token := by
  have hr : Headers.isReadable ("Bearer " ++ token) = true := isReadable_append hp (by decide)
  have htext : Headers.text? "authorization" (("authorization", "Bearer " ++ token) :: hs) =
      some ("Bearer " ++ token) := by
    rw [Headers.text?, Headers.first?, Headers.all_cons, if_pos (by decide), List.head?_cons,
      Option.filter_some_pos hr]
  have hblank : ∀ c ∈ token.toList, Text.isBlank c = false := fun c hc => (hp c hc).visible.1
  have htrim : Text.trimChars ("Bearer " ++ token).toList = "Bearer ".toList ++ token.toList := by
    rw [String.toList_append]
    have hs : Text.trimStart ("Bearer ".toList ++ token.toList) =
        "Bearer ".toList ++ token.toList := by
      refine Text.trimStart_eq_self fun c hc => ?_
      cases hc
      decide
    rw [Text.trimChars, hs]
    refine Text.trimEnd_eq_self fun c hc => hblank c ?_
    rw [List.getLast?_append, Option.or_of_isSome (List.getLast?_isSome.2 hn)] at hc
    exact List.mem_of_getLast? hc
  have hsome : Text.nonBlank (String.ofList token.toList) = some token := by
    obtain ⟨c, hc⟩ := List.exists_mem_of_ne_nil _ hn
    rw [String.ofList_toList, Text.nonBlank_eq_trim ⟨c, hc, hblank c hc⟩, Text.trim,
      Text.trimChars_eq_self hblank, String.ofList_toList]
  have hb : bearer? (("authorization", "Bearer " ++ token) :: hs) = some token := by
    simp only [bearer?, htext, htrim, Text.after?_eq_some_iff.2 rfl, Option.bind_eq_bind,
      Option.bind_some, hsome]
  rw [fromHeaders, hb, Option.some_or]

end Plain

theorem isPlain_spell (bs cs : List UInt8) :
    ∀ d ∈ (spell (Base64Url.encodeChars bs) (Base64Url.encodeChars cs)).toList, IsPlain d := by
  have hsigns (ds : List UInt8) : ∀ d ∈ Base64Url.encodeChars ds, IsPlain d := fun d hd =>
    .inl (Base64Url.forall_mem_encodeChars isSign_sign ds d hd)
  have hversion : ∀ d ∈ version.toList, IsPlain d := List.all_iff_forall_prop.1 (by decide)
  rw [toList_spell]
  simp only [Text.joinChars, List.forall_mem_append, List.forall_mem_singleton]
  exact ⟨⟨hversion, .inr rfl⟩, ⟨hsigns bs, .inr rfl⟩, hsigns cs⟩

namespace Issuer

variable (i : Issuer) (c : Claims)

theorem split_write : Text.splitChars '.' (i.write c).toList =
    [version.toList, c.written, i.tag c.written] := by
  have hs := (i.shaped_write c).split
  rwa [← Text.toList_trim, (i.shaped_write c).trim_eq] at hs

theorem signs_write :
    ∀ p ∈ Text.splitChars '.' (i.write c).toList, p ≠ [] ∧ ∀ d ∈ p, IsSign d := by
  have hversion : version.toList ≠ [] ∧ ∀ d ∈ version.toList, IsSign d :=
    ⟨by decide, List.all_iff_forall_prop.1 (by decide)⟩
  have hsigns := Base64Url.forall_mem_encodeChars isSign_sign
  rw [split_write]
  simp only [List.forall_mem_cons]
  exact ⟨hversion, ⟨c.written_ne_nil, hsigns _⟩, ⟨i.tag_ne_nil c.written, hsigns _⟩, by simp⟩

theorem isPlain_write : ∀ d ∈ (i.write c).toList, IsPlain d := isPlain_spell _ _

theorem portable_write : Portable (i.write c) := by
  have hp := i.isPlain_write c
  have hn : (i.write c).toList ≠ [] := by
    rw [write, String.toList_ofList]
    exact List.cons_ne_nil _ _
  exact ⟨⟨_, _, i.split_write c⟩, i.signs_write c, (i.shaped_write c).trim_eq,
    bearer_plain hp hn, fun hs => cookie_plain hp hn, setCookie_plain hp⟩

/-- How long sessions last does not count when one is verified. -/
theorem verify_of_secret (secret : String) (ttl ttl' now : Nat) (token : String) :
    verify ⟨secret, ttl'⟩ now token = verify ⟨secret, ttl⟩ now token := by
  unfold verify sign
  rfl

theorem verify_issued (secret : String) (ttl ttl' t v : UInt64) (uid : Int64)
    (random : List UInt8) :
    verify ⟨secret, ttl'.toNat⟩ v.toNat (issue ⟨secret, ttl.toNat⟩ t.toNat uid random) =
      (if v.toNat / 1000 < min (t.toNat / 1000 + ttl.toNat) (UInt64.size - 1) then
        .ok ⟨uid, t.toNat / 1000, min (t.toNat / 1000 + ttl.toNat) (UInt64.size - 1),
          identifier random⟩
      else .error .expired) ∧
    Portable (issue ⟨secret, ttl.toNat⟩ t.toNat uid random) := by
  refine ⟨?_, portable_write _ _⟩
  have ht : t.toNat ≤ Text.maxWord := Nat.le_of_lt_succ t.toNat_lt
  have he : Text.addTime (t.toNat / 1000) ttl.toNat =
      min (t.toNat / 1000 + ttl.toNat) (UInt64.size - 1) := rfl
  rw [verify_of_secret secret ttl.toNat, verify_issue ⟨secret, ttl.toNat⟩ ht, claims]
  dsimp only
  rw [he]
  simp only [← Nat.not_lt, ite_not]

section Verified

variable {i : Issuer} {now : Nat} {token : String} {c : Claims}

theorem isPlain_of_verify (hv : i.verify now token = .ok c) :
    (Text.trim token).toList ≠ [] ∧ ∀ d ∈ (Text.trim token).toList, IsPlain d := by
  obtain ⟨p, hs, ⟨bs, rfl, -⟩, -⟩ := verify_eq_ok_iff.1 hv
  rw [hs.trim_eq]
  refine ⟨?_, isPlain_spell bs _⟩
  rw [spell, String.toList_ofList]
  exact List.cons_ne_nil _ _

theorem exists_setCookie (hv : i.verify now token = .ok c) (maxAge : Nat) (secure : Bool) :
    ∃ field, setCookie (Text.trim token) maxAge secure = some field ∧
      ∀ hs, Bearerless hs → Sends hs (kept field) → fromHeaders hs = some (Text.trim token) := by
  obtain ⟨hn, hp⟩ := isPlain_of_verify hv
  obtain ⟨field, hf, hk⟩ := Option.map_eq_some_iff.1 (setCookie_plain hp maxAge secure)
  refine ⟨field, hf, fun hs hb h => ?_⟩
  rw [hk] at h
  exact h.fromHeaders_eq hn hb

end Verified

end Issuer

end Session

end Handoff
