import Handoff.Proofs.Codec.Base64Url
import Handoff.Proofs.Crypto.Gcm
import Handoff.Proofs.Json.RoundTrip
import Handoff.Proofs.Text.Blank
import Handoff.Proofs.Text.Utf8
import Handoff.Qr.Calls

namespace Handoff.Qr.Token

variable {c : Content}

theorem Content.read_draft (hc : c.issuedAt ≤ Text.maxWord) :
    record.read c.toJson.draft = .ok c := by
  simp [toJson, record, Json.draft, Json.membersDraft, Json.Record.read, Json.Record.map,
    Json.Record.and, Json.Record.member, Json.required, Json.field, Json.readText, Json.readNat,
    Json.nat, hc, Except.map, List.foldlM, bind, Except.bind, pure, Except.pure]

theorem Content.toJson_chars (c : Content) :
    c.toJson.chars = ['\x7b', '"', 't', '"', ':', '"'] ++
      (c.handle.text.toList.flatMap Json.escapeChar ++
        (['"', ',', '"', 't', 's', '"', ':'] ++ (Text.natChars c.issuedAt ++ ['\x7d']))) := by
  have ht : Json.quoteChars "t".toList = ['"', 't', '"'] := by decide
  have hts : Json.quoteChars "ts".toList = ['"', 't', 's', '"'] := by decide
  have hn : (Json.nat c.issuedAt).chars = Text.natChars c.issuedAt := rfl
  rw [toJson, Json.chars, Json.membersChars, Json.membersChars, ht, hts, hn, Json.chars,
    Json.quoteChars]
  simp

def spell (raw : List UInt8) : String := version ++ Base64Url.encode raw

section Spell

variable (k : Gcm.Key) (raw : List UInt8)

theorem toList_spell : (spell raw).toList = version.toList ++ Base64Url.encodeChars raw := by
  rw [spell, String.toList_append, Base64Url.encode, String.toList_ofList]

theorem length_spell : (spell raw).toList.length = 7 + (4 * raw.length + 2) / 3 := by
  rw [toList_spell, List.length_append, Base64Url.length_encodeChars]
  rfl

theorem forall_mem_spell {p : Char → Prop} [DecidablePred p]
    (hv : version.toList.all (p ·) = true) (hs : ∀ n < 64, p (Base64Url.sign n)) :
    ∀ d ∈ (spell raw).toList, p d := by
  rw [toList_spell, List.forall_mem_append]
  exact ⟨fun d hd => of_decide_eq_true (List.all_eq_true.1 hv d hd),
    Base64Url.forall_mem_encodeChars hs raw⟩

theorem size_spell : Text.Utf8.size (spell raw) = 7 + (4 * raw.length + 2) / 3 := by
  rw [Text.Utf8.size, Text.Utf8.encode, Text.Utf8.length_encodeChars_ascii, length_spell]
  exact forall_mem_spell raw (by decide) (by decide)

theorem trimChars_spell : Text.trimChars (spell raw).toList = (spell raw).toList :=
  Text.trimChars_eq_self (forall_mem_spell raw (by decide) (by decide))

theorem precheck_spell (hmin : 32 ≤ raw.length) : precheck (spell raw).toList =
    if Text.Utf8.size (spell raw) ≤ maxLength then .ok () else .error .format := by
  have hchars : (spell raw).toList.all isTokenChar = true :=
    List.all_eq_true.2 (forall_mem_spell raw (by decide) (by decide))
  have ha := Text.after?_eq_some_iff.2 (toList_spell raw)
  have hlen : minLength ≤ (spell raw).toList.length := by
    rw [length_spell, minLength]
    omega
  rw [precheck, size_spell, ← length_spell, ha]
  simp only [hchars, hlen, Option.isSome_some, true_and, and_true]

theorem unwrap_spell (hmin : 32 ≤ raw.length) : unwrap k (spell raw) =
    if Text.Utf8.size (spell raw) ≤ maxLength then
      (reveal k raw).elim (.error .invalid) .ok
    else .error .format := by
  have ha := Text.after?_eq_some_iff.2 (toList_spell raw)
  rw [unwrap, trimChars_spell, precheck_spell raw hmin, ha]
  split
  · simp only [bind, Except.bind, Option.bind_some, Base64Url.decodeChars_encodeChars]
    cases reveal k raw <;> rfl
  · rfl

end Spell

/-- A text that is opened is, but for blanks around it, the token of the octets that are opened. -/
theorem eq_spell_of_unwrap {k : Gcm.Key} {s : String} (h : unwrap k s = .ok c) :
    ∃ raw, Text.trim s = spell raw ∧ reveal k raw = some c := by
  unfold unwrap at h
  dsimp only at h
  cases hp : precheck (Text.trimChars s.toList) with
  | error e =>
    rw [hp] at h
    cases h
  | ok =>
    rw [hp] at h
    simp only [bind, Except.bind] at h
    split at h
    · next hr =>
      cases h
      obtain ⟨raw, hd, hr⟩ := Option.bind_eq_some_iff.1 hr
      obtain ⟨body, ha, hd⟩ := Option.bind_eq_some_iff.1 hd
      refine ⟨raw, ?_, hr⟩
      rw [Text.trim, Text.after?_eq_some_iff.1 ha, ← Base64Url.encodeChars_of_decodeChars hd,
        ← toList_spell, String.ofList_toList]
    · cases h

section Wrap

def octets (k : Gcm.Key) (nonce : List UInt8) (c : Content) : List UInt8 :=
  nonce ++ Gcm.sealText k nonce (Text.Utf8.encode c.toJson.compact)

theorem wrap_eq_spell (k : Gcm.Key) (nonce : List UInt8) (c : Content) :
    wrap k nonce c = spell (octets k nonce c) := rfl

theorem le_size_compact (c : Content) : 15 ≤ Text.Utf8.size c.toJson.compact := by
  have h := Text.Utf8.length_le_encodeChars c.toJson.chars
  have hd := List.length_pos_iff.2 (Text.natChars_ne_nil c.issuedAt)
  rw [Text.Utf8.size, Text.Utf8.encode, Json.compact, String.toList_ofList]
  rw [c.toJson_chars] at h ⊢
  simp only [List.length_append, List.length_cons, List.length_nil] at h
  omega

variable {k : Gcm.Key} {nonce : List UInt8} (hk : k.schedule.Sound)
  (hn : nonce.length = Gcm.nonceSize)
include hk hn

theorem length_octets (c : Content) :
    (octets k nonce c).length = Text.Utf8.size c.toJson.compact + 28 := by
  rw [octets, List.length_append, Gcm.length_sealText hk hn, hn, Text.Utf8.size, Gcm.nonceSize,
    Gcm.tagSize]
  omega

theorem split_octets (c : Content) : split (octets k nonce c) =
    some (nonce, Gcm.sealText k nonce (Text.Utf8.encode c.toJson.compact)) := by
  have hl : ¬(octets k nonce c).length ≤ Gcm.nonceSize := by
    rw [length_octets hk hn, Gcm.nonceSize]
    omega
  rw [split, if_neg hl, octets, ← hn, List.take_left, List.drop_left]

theorem reveal_octets (hc : c.issuedAt ≤ Text.maxWord) :
    reveal k (octets k nonce c) = if isHandle c.handle.text = true then some c else none := by
  simp only [reveal, split_octets hk hn, Gcm.open?_sealText hk hn, Json.ofBytes_compact,
    Content.read_draft hc, Except.toOption, Option.bind_eq_bind, Option.bind_some, Option.pure_def]

theorem size_wrap (c : Content) : Text.Utf8.size (wrap k nonce c) =
    7 + (4 * (Text.Utf8.size c.toJson.compact + 28) + 2) / 3 := by
  rw [wrap_eq_spell, size_spell, length_octets hk hn]

theorem unwrap_wrap (hc : c.issuedAt ≤ Text.maxWord) : unwrap k (wrap k nonce c) =
    if Text.Utf8.size (wrap k nonce c) ≤ maxLength then
      if isHandle c.handle.text = true then .ok c else .error .invalid
    else .error .format := by
  have hmin : 32 ≤ (octets k nonce c).length := by
    have h := le_size_compact c
    rw [length_octets hk hn]
    omega
  rw [wrap_eq_spell, unwrap_spell k _ hmin, reveal_octets hk hn hc]
  cases isHandle c.handle.text <;> rfl

end Wrap

section Hex

theorem escape_hexDigits {cs : List Char} (hcs : ∀ d ∈ cs, Text.isHexDigit d = true) :
    cs.flatMap Json.escapeChar = cs := by
  induction cs with
  | nil => rfl
  | cons d cs ih =>
    rw [List.forall_mem_cons] at hcs
    rw [List.flatMap_cons, ih hcs.2,
      Text.forall_isHexDigit (p := fun d => Json.escapeChar d = [d]) (by decide) hcs.1]
    rfl

variable {h : Handle} (hh : ∀ d ∈ h.text.toList, Text.isHexDigit d = true) (t : Nat)
include hh

theorem size_hex : Text.Utf8.size (Content.toJson ⟨h, t⟩).compact =
    14 + h.text.toList.length + (Text.natChars t).length := by
  have hascii {d : Char} (hd : Text.isHexDigit d = true) : d.toNat < 0x80 :=
    Text.forall_isHexDigit (p := fun d => d.toNat < 0x80) (by decide) hd
  rw [Text.Utf8.size, Text.Utf8.encode, Json.compact, String.toList_ofList,
    Content.toJson_chars, escape_hexDigits hh, Text.Utf8.length_encodeChars_ascii]
  · simp only [List.length_append, List.length_cons, List.length_nil]
    omega
  · simp only [List.forall_mem_append]
    refine ⟨by simp, fun d hd => hascii (hh d hd), by simp, fun d hd => hascii ?_, by simp⟩
    rw [Text.isHexDigit, Text.isAsciiDigit_of_mem_natChars d hd]
    rfl

theorem maxLength_lt_size_wrap {k : Gcm.Key} {nonce : List UInt8} (hk : k.schedule.Sound)
    (hn : nonce.length = Gcm.nonceSize) : maxLength < Text.Utf8.size (wrap k nonce ⟨h, t⟩) ↔
      327 < h.text.toList.length + (Text.natChars t).length := by
  rw [size_wrap hk hn, size_hex hh, maxLength]
  omega

end Hex

section Fresh

theorem toList_ofEntropy (random : List UInt8) :
    (Handle.ofEntropy random).text.toList = random.flatMap Text.Hex.encodeByte := by
  rw [Handle.ofEntropy, Text.Hex.encode, String.toList_ofList]

theorem isHexDigit_ofEntropy (random : List UInt8) :
    ∀ d ∈ (Handle.ofEntropy random).text.toList, Text.isHexDigit d = true := by
  rw [toList_ofEntropy]
  intro d hd
  obtain ⟨b, -, hd⟩ := List.mem_flatMap.1 hd
  simp only [Text.Hex.encodeByte, List.mem_cons, List.not_mem_nil, or_false] at hd
  obtain rfl | rfl := hd <;> exact Text.Hex.isHexDigit_digit _

theorem length_ofEntropy (random : List UInt8) :
    (Handle.ofEntropy random).text.toList.length = 2 * random.length := by
  rw [toList_ofEntropy]
  induction random with
  | nil => rfl
  | cons b bs ih =>
    rw [List.flatMap_cons, List.length_append, ih, List.length_cons]
    simp only [Text.Hex.encodeByte, List.length_cons, List.length_nil]
    omega

theorem isHandle_ofEntropy {random : List UInt8} (hr : Handle.minBytes ≤ random.length) :
    isHandle (Handle.ofEntropy random).text = true := by
  rw [isHandle, length_ofEntropy, Bool.and_eq_true, decide_eq_true_eq, List.all_eq_true]
  exact ⟨by omega, isHexDigit_ofEntropy random⟩

/-- The token of a fresh handle is opened again, at whatever time it was issued. -/
theorem unwrap_fresh {k : Gcm.Key} {nonce : List UInt8} (hk : k.schedule.Sound)
    (hn : nonce.length = Gcm.nonceSize) {random : List UInt8} (hr : random.length = handleBytes)
    {t : Nat} (ht : t ≤ Text.maxWord) :
    unwrap k (wrap k nonce ⟨.ofEntropy random, t⟩) = .ok ⟨.ofEntropy random, t⟩ := by
  have hword : Text.maxWord < Nat.pow 10 (19 + 1) := by decide
  have hd := Text.length_natChars_le (Nat.lt_of_le_of_lt ht hword)
  have hl : Text.Utf8.size (wrap k nonce ⟨.ofEntropy random, t⟩) ≤ maxLength := by
    rw [← Nat.not_lt, maxLength_lt_size_wrap (isHexDigit_ofEntropy random) t hk hn,
      length_ofEntropy, hr, handleBytes]
    omega
  rw [unwrap_wrap hk hn ht, if_pos hl, if_pos (isHandle_ofEntropy (by rw [hr]; decide))]

end Fresh

section Reopens

theorem sound_of_key {secret : String} {k : Gcm.Key} (hk : key secret = .ok k) :
    k.schedule.Sound := by
  unfold key at hk
  split at hk <;> cases hk
  exact Gcm.Key.sound_ofBytes (Hmac.length_sha256 _ _)

theorem key_of_nonBlank {secret : String} (hs : ∃ d ∈ secret.toList, Text.isBlank d = false) :
    ∃ k, key secret = .ok k := by
  rw [key, Text.nonBlank_eq_trim hs]
  exact ⟨_, rfl⟩

theorem isHandle_iff {t : String} : isHandle t = true ↔
    32 ≤ t.toList.length ∧ ∀ d ∈ t.toList, Text.isHexDigit d = true := by
  rw [isHandle, Bool.and_eq_true, decide_eq_true_eq, List.all_eq_true]
  rfl

structure Reopens (k : Gcm.Key) (nonce : List UInt8) (h : Handle) (ts : UInt64) : Prop where
  too_long : maxLength < Text.Utf8.size (wrap k nonce ⟨h, ts.toNat⟩) →
    unwrap k (wrap k nonce ⟨h, ts.toNat⟩) = .error .format
  handle : Text.Utf8.size (wrap k nonce ⟨h, ts.toNat⟩) ≤ maxLength →
    32 ≤ h.text.toList.length → (∀ d ∈ h.text.toList, Text.isHexDigit d = true) →
    unwrap k (wrap k nonce ⟨h, ts.toNat⟩) = .ok ⟨h, ts.toNat⟩
  no_handle : Text.Utf8.size (wrap k nonce ⟨h, ts.toNat⟩) ≤ maxLength →
    ¬(32 ≤ h.text.toList.length ∧ ∀ d ∈ h.text.toList, Text.isHexDigit d = true) →
    unwrap k (wrap k nonce ⟨h, ts.toNat⟩) = .error .invalid
  too_long_iff : (∀ d ∈ h.text.toList, Text.isHexDigit d = true) →
    (maxLength < Text.Utf8.size (wrap k nonce ⟨h, ts.toNat⟩) ↔
      327 < h.text.toList.length + (Nat.toDigits 10 ts.toNat).length)

/-- Whatever text is wrapped, at whatever time and under whatever nonce: a token that is too long is
refused for its form, any other is opened if the text is a handle, and is invalid if it is none. -/
theorem wrap_reopens {secret : String} (hs : ∃ d ∈ secret.toList, Text.isBlank d = false) :
    ∃ k, key secret = .ok k ∧ ∀ (nonce : List UInt8) (h : Handle) (ts : UInt64),
      nonce.length = Gcm.nonceSize → Reopens k nonce h ts := by
  obtain ⟨k, hk⟩ := key_of_nonBlank hs
  refine ⟨k, hk, fun nonce h ts hn => ?_⟩
  have hsound := sound_of_key hk
  have hts : ts.toNat ≤ Text.maxWord := Nat.le_of_lt_succ ts.toNat_lt
  have hw := unwrap_wrap (c := ⟨h, ts.toNat⟩) hsound hn hts
  constructor
  case too_long =>
    intro hl
    rw [hw, if_neg (Nat.not_le.2 hl)]
  case handle =>
    intro hl hmin hh
    rw [hw, if_pos hl, if_pos (isHandle_iff.2 ⟨hmin, hh⟩)]
  case no_handle =>
    intro hl hh
    rw [hw, if_pos hl, if_neg fun hc => hh (isHandle_iff.1 hc)]
  case too_long_iff =>
    intro hh
    rw [maxLength_lt_size_wrap hh _ hsound hn, Text.natChars_eq_toDigits]

theorem isHexDigit_replicate (n : Nat) :
    ∀ d ∈ (String.ofList (List.replicate n 'a')).toList, Text.isHexDigit d = true := by
  rw [String.toList_ofList]
  intro d hd
  rw [List.eq_of_mem_replicate hd]
  rfl

/-- One digit more in the time, and the token of a handle is too long. -/
theorem wrap_reopens_longest : ∃ k, key " unit-test-secret " = .ok k ∧
    let h : Handle := ⟨String.ofList (List.replicate 326 'a')⟩
    let nonce := List.replicate Gcm.nonceSize 0
    unwrap k (wrap k nonce ⟨h, 9⟩) = .ok ⟨h, 9⟩ ∧
      unwrap k (wrap k nonce ⟨h, 10⟩) = .error .format := by
  have hs : ∃ d ∈ " unit-test-secret ".toList, Text.isBlank d = false :=
    ⟨'u', by decide, by decide⟩
  obtain ⟨k, hk, hr⟩ := wrap_reopens hs
  refine ⟨k, hk, ?_⟩
  intro h nonce
  have hl : h.text.toList.length = 326 := by rw [String.toList_ofList, List.length_replicate]
  have hh : ∀ d ∈ h.text.toList, Text.isHexDigit d = true := isHexDigit_replicate 326
  have h9 := hr nonce h 9 List.length_replicate
  have h10 := hr nonce h 10 List.length_replicate
  constructor
  · refine h9.handle (Nat.not_lt.1 fun hlong => ?_) (by omega) hh
    have hd := (h9.too_long_iff hh).1 hlong
    rw [hl] at hd
    exact absurd hd (by decide)
  · refine h10.too_long ((h10.too_long_iff hh).2 ?_)
    rw [hl]
    decide

end Reopens

end Handoff.Qr.Token
