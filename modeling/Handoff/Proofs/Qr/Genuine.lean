import Handoff.Proofs.Qr.Token
import Mathlib.Data.Set.Defs

namespace Handoff.Qr.Token

structure Wrapping where
  nonce : List UInt8
  handle : Handle
  issuedAt : UInt64
  length_nonce : nonce.length = Gcm.nonceSize

namespace Wrapping

variable (k : Gcm.Key) (x : Wrapping)

def content : Content := ⟨x.handle, x.issuedAt.toNat⟩

def token : String := wrap k x.nonce x.content

def octets : List UInt8 := Token.octets k x.nonce x.content

def pair : List UInt8 × List UInt8 :=
  (x.nonce, Gcm.sealText k x.nonce (Text.Utf8.encode x.content.toJson.compact))

theorem issuedAt_le : x.content.issuedAt ≤ Text.maxWord := Nat.le_of_lt_succ x.issuedAt.toNat_lt

end Wrapping

def pair? (s : String) : Option (List UInt8 × List UInt8) :=
  ((Text.after? version.toList (Text.trimChars s.toList)).bind Base64Url.decodeChars).bind split

/-- The pair is opened only if it was sealed. -/
def Unforged (k : Gcm.Key) (made : Set Wrapping) (p : List UInt8 × List UInt8) : Prop :=
  (Gcm.open? k p.1 p.2).isSome = true → ∃ x ∈ made, p = x.pair k

variable {k : Gcm.Key} {made : Set Wrapping} {raw : List UInt8}

theorem unforged_of_mem {x : Wrapping} (hx : x ∈ made) : Unforged k made (x.pair k) :=
  fun _ => ⟨x, hx, rfl⟩

theorem append_of_split {p : List UInt8 × List UInt8} (h : split raw = some p) :
    p.1 ++ p.2 = raw := by
  unfold split at h
  split at h <;> cases h
  exact List.take_append_drop _ _

theorem pair?_of_spell {s : String} (h : Text.trim s = spell raw) : pair? s = split raw := by
  have ht : Text.trimChars s.toList = (spell raw).toList := by rw [← Text.toList_trim, h]
  rw [pair?, ht, Text.after?_eq_some_iff.2 (toList_spell raw), Option.bind_some,
    Base64Url.decodeChars_encodeChars, Option.bind_some]

theorem open?_of_reveal {c : Content} (h : reveal k raw = some c) :
    ∃ p, split raw = some p ∧ (Gcm.open? k p.1 p.2).isSome = true := by
  simp only [reveal, Option.bind_eq_bind, Option.bind_eq_some_iff] at h
  obtain ⟨p, hp, text, ht, -⟩ := h
  exact ⟨p, hp, Option.isSome_iff_exists.2 ⟨text, ht⟩⟩

theorem octets_of_reveal {c : Content} (hu : ∀ p ∈ split raw, Unforged k made p)
    (h : reveal k raw = some c) : ∃ x ∈ made, raw = x.octets k := by
  obtain ⟨p, hp, ho⟩ := open?_of_reveal h
  obtain ⟨x, hx, rfl⟩ := hu p hp ho
  exact ⟨x, hx, (append_of_split hp).symm⟩

section Sound

variable (hk : k.schedule.Sound)
include hk

theorem content_of_reveal {x : Wrapping} {c : Content} (h : reveal k (x.octets k) = some c) :
    x.content = c := by
  rw [Wrapping.octets, reveal_octets hk x.length_nonce x.issuedAt_le] at h
  split at h <;> cases h
  rfl

theorem made_of_unwrap {s : String} {c : Content} (hu : ∀ p ∈ pair? s, Unforged k made p)
    (h : unwrap k s = .ok c) : ∃ x ∈ made, x.content = c ∧ Text.trim s = x.token k := by
  obtain ⟨raw, hs, hr⟩ := eq_spell_of_unwrap h
  rw [pair?_of_spell hs] at hu
  obtain ⟨x, hx, rfl⟩ := octets_of_reveal hu hr
  exact ⟨x, hx, content_of_reveal hk hr, hs⟩

theorem invalid_of_altered {x : Wrapping} (hx : Text.Utf8.size (x.token k) ≤ maxLength)
    (hl : raw.length = (x.octets k).length) (hu : ∀ p ∈ split raw, Unforged k made p)
    (hn : ∀ y ∈ made, raw ≠ y.octets k) : unwrap k (spell raw) = .error .invalid := by
  have hsize : Text.Utf8.size (spell raw) ≤ maxLength := by
    rw [size_spell, hl, ← size_spell]
    exact hx
  have hmin : 32 ≤ raw.length := by
    have h := le_size_compact x.content
    rw [hl, Wrapping.octets, length_octets hk x.length_nonce]
    omega
  have hr : reveal k raw = none := by
    rw [Option.eq_none_iff_forall_ne_some]
    intro c hc
    obtain ⟨y, hy, he⟩ := octets_of_reveal hu hc
    exact hn y hy he
  rw [unwrap_spell k raw hmin, if_pos hsize, hr]
  rfl

end Sound

structure Unalterable (k : Gcm.Key) (made : Set Wrapping) : Prop where
  /-- A text that is opened is a token that was made, character for character. -/
  genuine {s : String} {c : Content} : (∀ p ∈ pair? s, Unforged k made p) → unwrap k s = .ok c →
    ∃ x ∈ made, x.content = c ∧ Text.trim s = x.token k
  /-- As many other octets as a token has are no token, unless they are those of another one. -/
  altered {x : Wrapping} {raw : List UInt8} : x ∈ made →
    Text.Utf8.size (x.token k) ≤ maxLength → raw.length = (x.octets k).length →
    (∀ p ∈ split raw, Unforged k made p) → (∀ y ∈ made, raw ≠ y.octets k) →
    unwrap k (spell raw) = .error .invalid

/-- Whatever was made with a key: no text but the tokens themselves is opened. -/
theorem key_unalterable {secret : String} {k : Gcm.Key} (hk : key secret = .ok k)
    (made : Set Wrapping) : Unalterable k made where
  genuine hu h := made_of_unwrap (sound_of_key hk) hu h
  altered _ hx hl hu hn := invalid_of_altered (sound_of_key hk) hx hl hu hn

section Example

theorem trimChars_spell_pad (raw : List UInt8) {as bs : List Char}
    (ha : as.all Text.isBlank = true) (hb : bs.all Text.isBlank = true) :
    Text.trimChars (as ++ ((spell raw).toList ++ bs)) = (spell raw).toList :=
  Text.trimChars_pad ha hb
    (Text.trimChars_eq_self (forall_mem_spell raw (by decide) (by decide)))

theorem unwrap_of_trim {s t : String} (h : Text.trimChars s.toList = Text.trimChars t.toList) :
    unwrap k s = unwrap k t := by
  rw [unwrap, unwrap, h]

theorem flip_ne {tag : List UInt8} (h : tag ≠ []) : tag.modifyHead (· ^^^ 0x80) ≠ tag := by
  cases tag with
  | nil => exact absurd rfl h
  | cons b tag =>
    intro he
    have hb : b ^^^ 0x80 = b := (List.cons.inj he).1
    exact absurd ((UInt8.xor_right_inj b).1 (hb.trans UInt8.xor_zero.symm)) (by decide)

namespace Wrapping

variable (k : Gcm.Key) (x : Wrapping)

def hidden : List UInt8 := Gcm.mask k x.nonce (Text.Utf8.encode x.content.toJson.compact)

def flipped : List UInt8 :=
  x.nonce ++ (x.hidden k ++ (Gcm.tag k x.nonce (x.hidden k)).modifyHead (· ^^^ 0x80))

theorem length_flipped : (x.flipped k).length = (x.octets k).length := by
  simp only [flipped, octets, Token.octets, Gcm.sealText, hidden, List.length_append,
    List.length_modifyHead]

variable {k} (hk : k.schedule.Sound)
include hk

theorem unwrap_token (hx : Text.Utf8.size (x.token k) ≤ maxLength)
    (hh : isHandle x.handle.text = true) : unwrap k (x.token k) = .ok x.content := by
  rw [token] at hx ⊢
  rw [unwrap_wrap hk x.length_nonce x.issuedAt_le, if_pos hx]
  exact if_pos hh

theorem split_octets : split (x.octets k) = some (x.pair k) :=
  Token.split_octets hk x.length_nonce x.content

theorem split_flipped : split (x.flipped k) =
    some (x.nonce, x.hidden k ++ (Gcm.tag k x.nonce (x.hidden k)).modifyHead (· ^^^ 0x80)) := by
  have hl : ¬(x.flipped k).length ≤ Gcm.nonceSize := by
    rw [length_flipped, octets, length_octets hk x.length_nonce, Gcm.nonceSize]
    omega
  rw [split, if_neg hl, flipped, ← x.length_nonce, List.take_left, List.drop_left]

theorem tag_ne_nil : Gcm.tag k x.nonce (x.hidden k) ≠ [] := by
  rw [← List.length_pos_iff, Gcm.length_tag hk x.length_nonce]
  decide

theorem flipped_ne : x.flipped k ≠ x.octets k := by
  intro h
  have ht := List.append_cancel_left (List.append_cancel_left h)
  exact flip_ne (x.tag_ne_nil hk) ht

theorem unforged_flipped (made : Set Wrapping) :
    ∀ p ∈ split (x.flipped k), Unforged k made p := by
  rw [x.split_flipped hk]
  rintro _ ⟨rfl⟩ ho
  rw [Gcm.open?_append (by rw [List.length_modifyHead, Gcm.length_tag hk x.length_nonce]),
    if_neg (flip_ne (x.tag_ne_nil hk))] at ho
  cases ho

end Wrapping

/-- The token of a handle, with blanks around it, and the same token with one bit changed. -/
theorem key_unalterable_flipped : ∃ k, key "unit-test-secret" = .ok k ∧
    let x : Wrapping := ⟨List.replicate 12 0, ⟨String.ofList (List.replicate 64 'a')⟩, 42, rfl⟩
    let s := " " ++ x.token k ++ "\n"
    (∀ p ∈ pair? s, Unforged k {x} p) ∧ unwrap k s = .ok x.content ∧ Text.trim s = x.token k ∧
      unwrap k (spell (x.flipped k)) = .error .invalid := by
  have hs : ∃ d ∈ "unit-test-secret".toList, Text.isBlank d = false := ⟨'u', by decide, by decide⟩
  obtain ⟨k, hk⟩ := key_of_nonBlank hs
  have hsound := sound_of_key hk
  refine ⟨k, hk, ?_⟩
  intro x s
  have hl : x.handle.text.toList.length = 64 := by rw [String.toList_ofList, List.length_replicate]
  have hhex : ∀ d ∈ x.handle.text.toList, Text.isHexDigit d = true := isHexDigit_replicate 64
  have hsize : Text.Utf8.size (x.token k) ≤ maxLength := by
    rw [← Nat.not_lt]
    intro hlong
    have h := (maxLength_lt_size_wrap hhex 42 hsound x.length_nonce).1 hlong
    rw [hl, Text.natChars_eq_toDigits] at h
    exact absurd h (by decide)
  have htrim : Text.trimChars s.toList = (x.token k).toList := by
    rw [String.toList_append, String.toList_append, List.append_assoc]
    exact trimChars_spell_pad _ (by decide) (by decide)
  have hopen : unwrap k s = .ok x.content := by
    rw [unwrap_of_trim (htrim.trans (trimChars_spell _).symm)]
    exact x.unwrap_token hsound hsize (isHandle_iff.2 ⟨by omega, hhex⟩)
  have hspell : Text.trim s = spell (x.octets k) := by
    rw [Text.trim, htrim, String.ofList_toList]
    rfl
  have hu : ∀ p ∈ pair? s, Unforged k {x} p := by
    rw [pair?_of_spell hspell, x.split_octets hsound]
    rintro _ ⟨rfl⟩
    exact unforged_of_mem rfl
  have hkey := key_unalterable hk {x}
  obtain ⟨_, rfl, -, htoken⟩ := hkey.genuine hu hopen
  refine ⟨hu, hopen, htoken, ?_⟩
  refine hkey.altered rfl hsize (x.length_flipped k) (x.unforged_flipped hsound _) ?_
  rintro _ rfl
  exact x.flipped_ne hsound

end Example

end Handoff.Qr.Token
