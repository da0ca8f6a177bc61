import Handoff.Text.Decimal
import Handoff.Text.Hex

namespace Handoff.Text

theorem isAsciiDigit_digitChar (n : Nat) : isAsciiDigit (digitChar n) = true := by
  have h : ∀ d < 10, isAsciiDigit (Char.ofNat (48 + d)) = true := by decide
  exact h (n % 10) (Nat.mod_lt n (by decide))

theorem digitValue_digitChar (n : Nat) : digitValue (digitChar n) = n % 10 := by
  have h : ∀ d < 10, digitValue (Char.ofNat (48 + d)) = d := by decide
  exact h (n % 10) (Nat.mod_lt n (by decide))

theorem digitChar_ne_zero {n : Nat} (hn : n % 10 ≠ 0) : digitChar n ≠ '0' := by
  intro h
  have hv := digitValue_digitChar n
  rw [h] at hv
  exact hn hv.symm

theorem digitsOnto_append (n : Nat) (acc : List Char) : digitsOnto n acc = natChars n ++ acc := by
  unfold natChars
  induction n using Nat.strongRecOn generalizing acc with
  | ind n ih =>
    unfold digitsOnto
    split
    · rfl
    · have hn : n / 10 < n := by omega
      rw [ih _ hn, ih _ hn [digitChar n], List.append_assoc]
      rfl

theorem natChars_of_lt {n : Nat} (hn : n < 10) : natChars n = [digitChar n] := by
  rw [natChars, digitsOnto, if_pos hn]

theorem natChars_of_le {n : Nat} (hn : 10 ≤ n) :
    natChars n = natChars (n / 10) ++ [digitChar n] := by
  rw [natChars, digitsOnto, if_neg (Nat.not_lt.2 hn), digitsOnto_append]

/-- A number is its last digit, or has that digit behind those of a smaller one. -/
theorem natChars_induction {motive : Nat → Prop} (lt : ∀ n < 10, motive n)
    (le : ∀ n, 10 ≤ n → motive (n / 10) → motive n) (n : Nat) : motive n := by
  induction n using Nat.strongRecOn with
  | ind n ih =>
    by_cases hn : n < 10
    · exact lt n hn
    · exact le n (Nat.not_lt.1 hn) (ih _ (by omega))

theorem isAsciiDigit_of_mem_natChars {n : Nat} : ∀ c ∈ natChars n, isAsciiDigit c = true := by
  induction n using natChars_induction with
  | lt n hn =>
    intro c hc
    rw [natChars_of_lt hn, List.mem_singleton] at hc
    rw [hc]
    exact isAsciiDigit_digitChar n
  | le n hn ih =>
    intro c hc
    rw [natChars_of_le hn, List.mem_append, List.mem_singleton] at hc
    cases hc with
    | inl hc => exact ih c hc
    | inr hc =>
      rw [hc]
      exact isAsciiDigit_digitChar n

theorem natChars_ne_nil (n : Nat) : natChars n ≠ [] := by
  cases n using natChars_induction with
  | lt n hn => simp [natChars_of_lt hn]
  | le n hn => simp [natChars_of_le hn]

theorem head_natChars {n : Nat} (hn : n ≠ 0) : (natChars n).head? ≠ some '0' := by
  induction n using natChars_induction with
  | lt n hlt =>
    rw [natChars_of_lt hlt]
    intro h
    exact digitChar_ne_zero (by omega) (Option.some.inj h)
  | le n hle ih =>
    have hd : n / 10 ≠ 0 := by omega
    rw [natChars_of_le hle, List.head?_append, Option.or_of_isSome]
    · exact ih hd
    · rw [List.isSome_head?]
      simp [natChars_ne_nil]

theorem digitChar_eq (n : Nat) : digitChar n = Nat.digitChar (n % 10) := by
  have h : ∀ d < 10, Char.ofNat (48 + d) = Nat.digitChar d := by decide
  exact h (n % 10) (Nat.mod_lt n (by decide))

theorem natChars_eq_toDigits (n : Nat) : natChars n = Nat.toDigits 10 n := by
  induction n using natChars_induction with
  | lt n hn => rw [natChars_of_lt hn, digitChar_eq, Nat.toDigits_of_lt_base hn, Nat.mod_eq_of_lt hn]
  | le n hn ih => rw [natChars_of_le hn, digitChar_eq, Nat.toDigits_of_base_le (by decide) hn, ih]

theorem length_natChars_le {n k : Nat} (hn : n < Nat.pow 10 (k + 1)) :
    (natChars n).length ≤ k + 1 := by
  rw [natChars_eq_toDigits]
  exact (Nat.length_toDigits_le_iff (by decide) (Nat.succ_pos k)).2 hn

theorem natChars_zero : natChars 0 = ['0'] := by
  rw [natChars_of_lt (by decide)]
  rfl

theorem foldDigits_append (acc : Nat) (cs ds : List Char) :
    foldDigits acc (cs ++ ds) = foldDigits (foldDigits acc cs) ds := List.foldl_append

theorem foldDigits_natChars (n : Nat) : foldDigits 0 (natChars n) = n := by
  induction n using natChars_induction with
  | lt n hn =>
    rw [natChars_of_lt hn]
    change 10 * 0 + digitValue (digitChar n) = n
    rw [digitValue_digitChar]
    omega
  | le n hn ih =>
    rw [natChars_of_le hn, foldDigits_append, ih]
    change 10 * (n / 10) + digitValue (digitChar n) = n
    rw [digitValue_digitChar]
    omega

theorem readDigits_natChars (n : Nat) : readDigits (natChars n) = some n := by
  rw [readDigits, if_pos ⟨natChars_ne_nil n, List.all_eq_true.2 isAsciiDigit_of_mem_natChars⟩,
    foldDigits_natChars]

theorem readInt_natChars {n : Nat} (hn : n ≤ maxSigned) :
    readInt (natChars n) = some (Int64.ofInt n) := by
  -- The first character is a digit, so it is no sign.
  have hsign {c : Char} {r : List Char} (h : natChars n = c :: r) : isAsciiDigit c = true :=
    isAsciiDigit_of_mem_natChars c (h ▸ List.mem_cons_self)
  unfold readInt
  split
  · next r h => cases hsign h
  · next r h => cases hsign h
  · rw [readDigits_natChars, Option.filter_some, if_pos (decide_eq_true hn)]
    rfl

theorem readInt_intChars (i : Int64) : readInt (intChars i.toInt) = some i := by
  have hl := i.le_toInt
  have hu := i.toInt_lt
  have hi : Int64.ofInt i.toInt = i := Int64.ofInt_toInt i
  generalize i.toInt = k at hl hu hi
  cases k with
  | ofNat n =>
    have hn : n ≤ maxSigned := Nat.le_of_lt_succ (Int.ofNat_lt.1 hu)
    rw [intChars, readInt_natChars hn, ← hi]
    rfl
  | negSucc n =>
    have hn : n + 1 ≤ maxSigned + 1 := by
      unfold maxSigned
      omega
    rw [intChars, readInt, readDigits_natChars, Option.filter_some, if_pos (decide_eq_true hn), ← hi]
    rfl
theorem forall_isHexDigit {p : Char → Prop}
    (h : ∀ n < 128, isHexDigit (Char.ofNat n) = true → p (Char.ofNat n)) {c : Char}
    (hc : isHexDigit c = true) : p c := by
  have hn : c.toNat < 128 := by
    simp only [isHexDigit, isAsciiDigit, Bool.or_eq_true, Bool.and_eq_true, decide_eq_true_eq,
      Char.le_def, UInt32.le_iff_toNat_le] at hc
    change c.val.toNat < 128
    obtain (⟨-, hc⟩ | ⟨-, hc⟩) | ⟨-, hc⟩ := hc <;> exact Nat.lt_of_le_of_lt hc (by decide)
  rw [← Char.ofNat_toNat c] at hc ⊢
  exact h _ hn hc

theorem isHexDigit_of_isAsciiDigit {c : Char} (hc : isAsciiDigit c = true) :
    isHexDigit c = true := by
  rw [isHexDigit, hc]
  rfl

theorem Hex.isHexDigit_digit (n : Nat) : isHexDigit (Hex.digit n) = true := by
  have h : ∀ d < 16, isHexDigit (Char.ofNat (if d < 10 then 48 + d else 87 + d)) = true := by
    decide
  exact h (n % 16) (Nat.mod_lt n (by decide))

theorem Hex.value_digit (n : Nat) : Hex.value (Hex.digit n) = some (n % 16) := by
  have h : ∀ d < 16, Hex.value (Char.ofNat (if d < 10 then 48 + d else 87 + d)) = some d := by
    decide
  exact h (n % 16) (Nat.mod_lt n (by decide))

end Handoff.Text
