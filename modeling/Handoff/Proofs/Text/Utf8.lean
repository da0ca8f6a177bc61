import Handoff.Text.Utf8

namespace Handoff.Text.Utf8

variable {n : Nat} {c : Char}

theorem toNat_toUInt8 (h : n < 256) : n.toUInt8.toNat = n := by
  rw [Nat.toUInt8, UInt8.toNat_ofNat']
  exact Nat.mod_eq_of_lt h

theorem le_toUInt8 (h : n < 256) (b : UInt8) : b ≤ n.toUInt8 ↔ b.toNat ≤ n := by
  rw [UInt8.le_iff_toNat_le, toNat_toUInt8 h]

theorem toUInt8_lt (h : n < 256) (b : UInt8) : n.toUInt8 < b ↔ n < b.toNat := by
  rw [UInt8.lt_iff_toNat_lt, toNat_toUInt8 h]

theorem scalar_toNat {low : Nat} (h : low ≤ c.toNat) : scalar low c.toNat = some c := by
  have hv : c.toNat.isValidChar := c.valid
  rw [scalar, dif_pos hv, if_pos h]
  rfl

theorem between {low high : UInt8} (h : low.toNat ≤ n ∧ n < high.toNat) :
    low ≤ n.toUInt8 ∧ n.toUInt8 < high := by
  have hn : n < 256 := Nat.lt_trans h.2 high.toNat_lt
  exact ⟨(le_toUInt8 hn low).2 h.1, (toUInt8_lt hn high).2 h.2⟩

theorem tailBits_toUInt8 (h : n < 64) : tailBits (0x80 + n).toUInt8 = some n := by
  have hb : 0x80 ≤ (0x80 + n).toUInt8 ∧ (0x80 + n).toUInt8 < 0xC0 :=
    between ⟨Nat.le_add_right _ _, Nat.add_lt_add_left h 0x80⟩
  rw [tailBits, if_pos hb, toNat_toUInt8 (by omega), Nat.add_sub_cancel_left]

theorem pair_toUInt8 {q k : Nat} (hq : 2 ≤ q ∧ q < 32) (hk : k < 64)
    (hc : c.toNat = 64 * q + k) : pair (0xC0 + q).toUInt8 (0x80 + k).toUInt8 = some c := by
  have ha : 0xC2 ≤ (0xC0 + q).toUInt8 ∧ (0xC0 + q).toUInt8 < 0xE0 :=
    between ⟨Nat.add_le_add_left hq.1 0xC0, Nat.add_lt_add_left hq.2 0xC0⟩
  rw [pair, if_pos ha, tailBits_toUInt8 hk, toNat_toUInt8 (by omega), Nat.add_sub_cancel_left]
  simp only [Option.bind_eq_bind, Option.bind_some]
  rw [← hc]
  exact scalar_toNat (by omega)

theorem triple_toUInt8 {q k l : Nat} (hq : q < 16) (hk : k < 64) (hl : l < 64)
    (hc : c.toNat = 4096 * q + 64 * k + l) (hlow : 0x800 ≤ c.toNat) :
    triple (0xE0 + q).toUInt8 (0x80 + k).toUInt8 (0x80 + l).toUInt8 = some c := by
  have ha : 0xE0 ≤ (0xE0 + q).toUInt8 ∧ (0xE0 + q).toUInt8 < 0xF0 :=
    between ⟨Nat.le_add_right _ _, Nat.add_lt_add_left hq 0xE0⟩
  rw [triple, if_pos ha, tailBits_toUInt8 hk, tailBits_toUInt8 hl, toNat_toUInt8 (by omega),
    Nat.add_sub_cancel_left]
  simp only [Option.bind_eq_bind, Option.bind_some]
  rw [← hc]
  exact scalar_toNat hlow

theorem quadruple_toUInt8 {q k l m : Nat} (hq : q < 5) (hk : k < 64) (hl : l < 64) (hm : m < 64)
    (hc : c.toNat = 262144 * q + 4096 * k + 64 * l + m) (hlow : 0x10000 ≤ c.toNat) :
    quadruple (0xF0 + q).toUInt8 (0x80 + k).toUInt8 (0x80 + l).toUInt8 (0x80 + m).toUInt8 =
      some c := by
  have ha : 0xF0 ≤ (0xF0 + q).toUInt8 ∧ (0xF0 + q).toUInt8 < 0xF5 :=
    between ⟨Nat.le_add_right _ _, Nat.add_lt_add_left hq 0xF0⟩
  rw [quadruple, if_pos ha, tailBits_toUInt8 hk, tailBits_toUInt8 hl, tailBits_toUInt8 hm,
    toNat_toUInt8 (by omega), Nat.add_sub_cancel_left]
  simp only [Option.bind_eq_bind, Option.bind_some]
  rw [← hc]
  exact scalar_toNat hlow

/-- The first octet says which of the longer forms a character has. -/
theorem pair_eq_none {a : UInt8} (h : 0xE0 ≤ a) (b : UInt8) : pair a b = none := by
  rw [pair, if_neg fun ha => absurd ha.2 (UInt8.not_lt.2 h)]

theorem triple_eq_none {a : UInt8} (h : 0xF0 ≤ a) (b c : UInt8) : triple a b c = none := by
  rw [triple, if_neg fun ha => absurd ha.2 (UInt8.not_lt.2 h)]

section First

variable {a b d e : UInt8} (rest : List UInt8)

theorem firstChar_one (h : a < 0x80) : firstChar a rest = (scalar 0 a.toNat).map (·, 0) := by
  unfold firstChar
  rw [if_pos h]

theorem firstChar_two (h : ¬ a < 0x80) (hp : pair a b = some c) :
    firstChar a (b :: rest) = some (c, 1) := by
  unfold firstChar
  rw [if_neg h]
  cases rest with
  | nil => simp [hp]
  | cons d rest => cases rest <;> simp [hp]

theorem firstChar_three (h : 0xE0 ≤ a) (ht : triple a b d = some c) :
    firstChar a (b :: d :: rest) = some (c, 2) := by
  have h0 : ¬ a < 0x80 := UInt8.not_lt.2 (UInt8.le_trans (by decide) h)
  unfold firstChar
  rw [if_neg h0]
  cases rest <;> simp [pair_eq_none h, ht]

theorem firstChar_four (h : 0xF0 ≤ a) (hq : quadruple a b d e = some c) :
    firstChar a (b :: d :: e :: rest) = some (c, 3) := by
  have h0 : ¬ a < 0x80 := UInt8.not_lt.2 (UInt8.le_trans (by decide) h)
  have h1 : 0xE0 ≤ a := UInt8.le_trans (by decide) h
  unfold firstChar
  rw [if_neg h0]
  simp [pair_eq_none h1, triple_eq_none h, hq]

end First

theorem firstChar_encodeChar (c : Char) (rest : List UInt8) :
    ∃ a bs, encodeChar c = a :: bs ∧ firstChar a (bs ++ rest) = some (c, bs.length) := by
  have hc : c.toNat < 0x110000 := by
    have h : c.toNat.isValidChar := c.valid
    unfold Nat.isValidChar at h
    omega
  unfold encodeChar
  generalize hn : c.toNat = n at hc
  dsimp only
  split
  · next h =>
    refine ⟨_, _, rfl, ?_⟩
    rw [firstChar_one _ ((toUInt8_lt (by omega) _).2 h), toNat_toUInt8 (by omega), ← hn,
      scalar_toNat (Nat.zero_le _)]
    rfl
  · next h1 =>
    split
    · next h2 =>
      refine ⟨_, _, rfl, firstChar_two _ ?_ (pair_toUInt8 (by omega) (by omega) (by omega))⟩
      rw [toUInt8_lt (by omega)]
      exact Nat.not_lt.2 (Nat.le_trans (by decide) (Nat.le_add_right 0xC0 _))
    · split
      · next h2 h3 =>
        refine ⟨_, _, rfl, firstChar_three _ ?_
          (triple_toUInt8 (by omega) (by omega) (by omega) (by omega) (by omega))⟩
        exact (le_toUInt8 (by omega) _).2 (Nat.le_add_right _ _)
      · next h2 h3 =>
        refine ⟨_, _, rfl, firstChar_four _ ?_
          (quadruple_toUInt8 (by omega) (by omega) (by omega) (by omega) (by omega) (by omega))⟩
        exact (le_toUInt8 (by omega) _).2 (Nat.le_add_right _ _)

theorem scanFrom_append (bs rest : List UInt8) :
    scanFrom bs.length (bs ++ rest) = scanFrom 0 rest := by
  induction bs with
  | nil => rfl
  | cons b bs ih => exact ih

theorem scan_encodeChars (cs : List Char) : scan (encodeChars cs) = cs.map some := by
  induction cs with
  | nil => rfl
  | cons c cs ih =>
    obtain ⟨a, bs, he, hf⟩ := firstChar_encodeChar c (encodeChars cs)
    have hcs : encodeChars (c :: cs) = a :: (bs ++ encodeChars cs) := by
      rw [encodeChars, List.flatMap_cons, he]
      rfl
    rw [hcs, scan, scanFrom, hf]
    dsimp only
    rw [scanFrom_append, List.map_cons, ← ih, scan]

theorem encodeChar_ascii {c : Char} (hc : c.toNat < 0x80) : encodeChar c = [c.toNat.toUInt8] := by
  rw [encodeChar]
  exact if_pos hc

theorem length_encodeChars_ascii {cs : List Char} (hcs : ∀ c ∈ cs, c.toNat < 0x80) :
    (encodeChars cs).length = cs.length := by
  induction cs with
  | nil => rfl
  | cons c cs ih =>
    rw [List.forall_mem_cons] at hcs
    rw [encodeChars, List.flatMap_cons, encodeChar_ascii hcs.1, List.length_append,
      ← encodeChars, ih hcs.2, List.length_singleton, List.length_cons, Nat.add_comm]

theorem length_le_encodeChars (cs : List Char) : cs.length ≤ (encodeChars cs).length := by
  induction cs with
  | nil => exact Nat.le_refl 0
  | cons c cs ih =>
    obtain ⟨a, bs, he, -⟩ := firstChar_encodeChar c []
    rw [encodeChars, List.flatMap_cons, he, List.length_append, ← encodeChars]
    simp only [List.length_cons]
    omega

theorem decode_encode (s : String) : decode (encode s) = some s := by
  have hm (cs : List Char) : (cs.map some).mapM id = some cs := by
    induction cs with
    | nil => rfl
    | cons c cs ih => simp [ih]
  rw [decode, encode, scan_encodeChars, hm, Option.map_some, String.ofList_toList]

theorem tailBits_eq_none {b : UInt8} (h : b < 0x80 ∨ 0xC0 ≤ b) : tailBits b = none :=
  if_neg fun ht => h.elim (UInt8.not_lt.2 ht.1) fun hb => UInt8.not_lt.2 hb ht.2

theorem exists_encodeChar (c : Char) : ∃ a bs, encodeChar c = a :: bs ∧ tailBits a = none ∧
    ∀ b ∈ bs, (tailBits b).isSome = true := by
  have hc : c.toNat < 0x110000 := by
    have h : c.toNat.isValidChar := c.valid
    unfold Nat.isValidChar at h
    omega
  have htail {n : Nat} (hn : n < 64) : (tailBits (0x80 + n).toUInt8).isSome = true := by
    rw [tailBits_toUInt8 hn, Option.isSome_some]
  have hfirst {n : Nat} (hn : 0xC0 ≤ n ∧ n < 256) : tailBits n.toUInt8 = none :=
    tailBits_eq_none (.inr ((le_toUInt8 hn.2 _).2 hn.1))
  unfold encodeChar
  generalize c.toNat = n at hc
  dsimp only
  split
  · next h =>
    exact ⟨_, _, rfl, tailBits_eq_none (.inl ((toUInt8_lt (by omega) _).2 h)), by simp⟩
  · split
    · refine ⟨_, _, rfl, hfirst (by omega), ?_⟩
      simp only [List.mem_singleton, forall_eq]
      exact htail (Nat.mod_lt _ (by decide))
    · split
      · refine ⟨_, _, rfl, hfirst (by omega), ?_⟩
        simp only [List.forall_mem_cons]
        exact ⟨htail (Nat.mod_lt _ (by decide)), htail (Nat.mod_lt _ (by decide)), by simp⟩
      · refine ⟨_, _, rfl, hfirst (by omega), ?_⟩
        simp only [List.forall_mem_cons]
        exact ⟨htail (Nat.mod_lt _ (by decide)), htail (Nat.mod_lt _ (by decide)),
          htail (Nat.mod_lt _ (by decide)), by simp⟩

theorem encodeChars_cons (c : Char) (cs : List Char) :
    encodeChars (c :: cs) = encodeChar c ++ encodeChars cs := List.flatMap_cons

theorem encodeChars_append (cs ds : List Char) :
    encodeChars (cs ++ ds) = encodeChars cs ++ encodeChars ds := List.flatMap_append

theorem encode_append (s t : String) : encode (s ++ t) = encode s ++ encode t := by
  rw [encode, String.toList_append, encodeChars_append, encode, encode]

end Handoff.Text.Utf8
