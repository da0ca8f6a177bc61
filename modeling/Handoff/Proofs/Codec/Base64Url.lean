import Handoff.Codec.Base64Url
import Handoff.Proofs.Text.Utf8

namespace Handoff.Base64Url

theorem value_sign {n : Nat} (hn : n < 64) : value (sign n) = some n := by
  have h : ∀ n < 64, value (sign n) = some n := by decide
  exact h n hn

theorem toUInt8_eq {n : Nat} {a : UInt8} (h : n = a.toNat) : n.toUInt8 = a := by
  rw [h]
  exact UInt8.ofNat_toNat

theorem decodeChars_encodeChars (bs : List UInt8) : decodeChars (encodeChars bs) = some bs := by
  induction bs using encodeChars.induct with
  | case1 => rfl
  | case2 a =>
    have ha := a.toNat_lt
    have h0 : a.toNat % 4 * 16 % 16 = 0 := by omega
    have h1 : a.toNat / 4 * 4 + a.toNat % 4 * 16 / 16 = a.toNat := by omega
    simp (disch := omega) only [encodeChars, decodeChars, value_sign, Option.bind_eq_bind,
      Option.bind_some, h0, if_true, toUInt8_eq h1]
  | case3 a b =>
    have ha := a.toNat_lt
    have hb := b.toNat_lt
    have h0 : b.toNat % 16 * 4 % 4 = 0 := by omega
    have h1 : a.toNat / 4 * 4 + (a.toNat % 4 * 16 + b.toNat / 16) / 16 = a.toNat := by omega
    have h2 : (a.toNat % 4 * 16 + b.toNat / 16) % 16 * 16 + b.toNat % 16 * 4 / 4 = b.toNat := by
      omega
    simp (disch := omega) only [encodeChars, decodeChars, value_sign, Option.bind_eq_bind,
      Option.bind_some, h0, if_true, toUInt8_eq h1, toUInt8_eq h2]
  | case4 a b c bs ih =>
    have ha := a.toNat_lt
    have hb := b.toNat_lt
    have hc := c.toNat_lt
    have h1 : a.toNat / 4 * 4 + (a.toNat % 4 * 16 + b.toNat / 16) / 16 = a.toNat := by omega
    have h2 : (a.toNat % 4 * 16 + b.toNat / 16) % 16 * 16 +
        (b.toNat % 16 * 4 + c.toNat / 64) / 4 = b.toNat := by omega
    have h3 : (b.toNat % 16 * 4 + c.toNat / 64) % 4 * 64 + c.toNat % 64 = c.toNat := by omega
    simp (disch := omega) only [encodeChars, decodeChars, value_sign, Option.bind_eq_bind,
      Option.bind_some, ih, toUInt8_eq h1, toUInt8_eq h2, toUInt8_eq h3, Option.pure_def]

theorem lt_of_value {c : Char} {n : Nat} (h : value c = some n) : c.toNat < 128 := by
  rw [← Nat.not_le]
  intro hc
  unfold value at h
  simp (disch := omega) only [if_neg] at h
  cases h

theorem sign_of_value {c : Char} {n : Nat} (h : value c = some n) : n < 64 ∧ sign n = c := by
  have key : ∀ m < 128, ∀ k ∈ value (Char.ofNat m), k < 64 ∧ sign k = Char.ofNat m := by decide
  have hc := key c.toNat (lt_of_value h) n
  rw [Char.ofNat_toNat] at hc
  exact hc h

/-- What is read is what would be written: there is one way to write octets. -/
theorem encodeChars_of_decodeChars {cs : List Char} {bs : List UInt8}
    (h : decodeChars cs = some bs) : encodeChars bs = cs := by
  fun_induction decodeChars cs generalizing bs with
  | case1 =>
    cases h
    rfl
  | case2 => cases h
  | case3 p q =>
    simp only [Option.bind_eq_bind, Option.bind_eq_some_iff] at h
    obtain ⟨x, hx, y, hy, h⟩ := h
    obtain ⟨hxl, rfl⟩ := sign_of_value hx
    obtain ⟨hyl, rfl⟩ := sign_of_value hy
    split at h <;> cases h
    have ha := Text.Utf8.toNat_toUInt8 (show x * 4 + y / 16 < 256 by omega)
    have h0 : (x * 4 + y / 16) / 4 = x := by omega
    have h1 : (x * 4 + y / 16) % 4 * 16 = y := by omega
    simp only [encodeChars, ha, h0, h1]
  | case4 p q r =>
    simp only [Option.bind_eq_bind, Option.bind_eq_some_iff] at h
    obtain ⟨x, hx, y, hy, z, hz, h⟩ := h
    obtain ⟨hxl, rfl⟩ := sign_of_value hx
    obtain ⟨hyl, rfl⟩ := sign_of_value hy
    obtain ⟨hzl, rfl⟩ := sign_of_value hz
    split at h <;> cases h
    have ha := Text.Utf8.toNat_toUInt8 (show x * 4 + y / 16 < 256 by omega)
    have hb := Text.Utf8.toNat_toUInt8 (show y % 16 * 16 + z / 4 < 256 by omega)
    have h0 : (x * 4 + y / 16) / 4 = x := by omega
    have h1 : (x * 4 + y / 16) % 4 * 16 + (y % 16 * 16 + z / 4) / 16 = y := by omega
    have h2 : (y % 16 * 16 + z / 4) % 16 * 4 = z := by omega
    simp only [encodeChars, ha, hb, h0, h1, h2]
  | case5 p q r s cs ih =>
    simp only [Option.bind_eq_bind, Option.bind_eq_some_iff, Option.pure_def] at h
    obtain ⟨x, hx, y, hy, z, hz, w, hw, bs, hbs, h⟩ := h
    obtain ⟨hxl, rfl⟩ := sign_of_value hx
    obtain ⟨hyl, rfl⟩ := sign_of_value hy
    obtain ⟨hzl, rfl⟩ := sign_of_value hz
    obtain ⟨hwl, rfl⟩ := sign_of_value hw
    cases h
    have ha := Text.Utf8.toNat_toUInt8 (show x * 4 + y / 16 < 256 by omega)
    have hb := Text.Utf8.toNat_toUInt8 (show y % 16 * 16 + z / 4 < 256 by omega)
    have hc := Text.Utf8.toNat_toUInt8 (show z % 4 * 64 + w < 256 by omega)
    have h0 : (x * 4 + y / 16) / 4 = x := by omega
    have h1 : (x * 4 + y / 16) % 4 * 16 + (y % 16 * 16 + z / 4) / 16 = y := by omega
    have h2 : (y % 16 * 16 + z / 4) % 16 * 4 + (z % 4 * 64 + w) / 64 = z := by omega
    have h3 : (z % 4 * 64 + w) % 64 = w := by omega
    simp only [encodeChars, ha, hb, hc, h0, h1, h2, h3, ih hbs]

theorem length_encodeChars (bs : List UInt8) :
    (encodeChars bs).length = (4 * bs.length + 2) / 3 := by
  fun_induction encodeChars bs with
  | case1 => rfl
  | case2 a => simp
  | case3 a b => simp
  | case4 a b c bs ih =>
    simp only [List.length_cons, ih]
    omega

theorem forall_mem_encodeChars {p : Char → Prop} (hp : ∀ n < 64, p (sign n)) (bs : List UInt8) :
    ∀ c ∈ encodeChars bs, p c := by
  induction bs using encodeChars.induct with
  | case1 => simp [encodeChars]
  | case2 a =>
    have ha := a.toNat_lt
    simp (disch := omega) only [encodeChars, List.forall_mem_cons, hp, true_and]
    simp
  | case3 a b =>
    have ha := a.toNat_lt
    have hb := b.toNat_lt
    simp (disch := omega) only [encodeChars, List.forall_mem_cons, hp, true_and]
    simp
  | case4 a b c bs ih =>
    have ha := a.toNat_lt
    have hb := b.toNat_lt
    have hc := c.toNat_lt
    simp (disch := omega) only [encodeChars, List.forall_mem_cons, hp, true_and]
    exact ih

end Handoff.Base64Url
