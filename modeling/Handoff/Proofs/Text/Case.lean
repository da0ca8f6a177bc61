import Handoff.Proofs.Text.Blank
import Handoff.Text.Split

namespace Handoff.Text

def IsCapital (c : Char) : Prop := 'A' ≤ c ∧ c ≤ 'Z'

instance (c : Char) : Decidable (IsCapital c) := inferInstanceAs (Decidable (_ ∧ _))

theorem forall_isCapital {p : Char → Prop} (h : ∀ n < 26, p (Char.ofNat (65 + n))) {c : Char}
    (hc : IsCapital c) : p c := by
  simp only [IsCapital, Char.le_def, UInt32.le_iff_toNat_le] at hc
  have hl : 65 ≤ c.toNat := hc.1
  have hu : c.toNat ≤ 90 := hc.2
  have hp := h (c.toNat - 65) (by omega)
  rwa [Nat.add_sub_cancel' hl, Char.ofNat_toNat] at hp

theorem lowerAscii_eq_self {c : Char} (hc : ¬IsCapital c) : lowerAscii c = c := if_neg hc

theorem not_isCapital_lowerAscii (c : Char) : ¬IsCapital (lowerAscii c) := by
  by_cases hc : IsCapital c
  · exact forall_isCapital (p := fun c => ¬IsCapital (lowerAscii c)) (by decide) hc
  · rwa [lowerAscii_eq_self hc]

theorem isBlank_lowerAscii (c : Char) : isBlank (lowerAscii c) = isBlank c := by
  by_cases hc : IsCapital c
  · exact forall_isCapital (p := fun c => isBlank (lowerAscii c) = isBlank c) (by decide) hc
  · rw [lowerAscii_eq_self hc]

theorem map_lowerAscii_eq_self {cs : List Char} (hcs : ∀ c ∈ cs, ¬IsCapital c) :
    cs.map lowerAscii = cs := by
  rw [List.map_congr_left fun c hc => lowerAscii_eq_self (hcs c hc), List.map_id']

theorem trimStart_map_lowerAscii (cs : List Char) :
    trimStart (cs.map lowerAscii) = (trimStart cs).map lowerAscii := by
  have hp : isBlank ∘ lowerAscii = isBlank := funext isBlank_lowerAscii
  rw [trimStart, List.dropWhile_map, hp, trimStart]

theorem trimChars_map_lowerAscii (cs : List Char) :
    trimChars (cs.map lowerAscii) = (trimChars cs).map lowerAscii := by
  simp only [trimChars, trimEnd, trimStart_map_lowerAscii, ← List.map_reverse]

theorem toList_lower (s : String) : (lower s).toList = s.toList.map lowerAscii := by
  rw [lower, String.toList_ofList]

theorem not_isCapital_of_mem_lower {s : String} {c : Char} (hc : c ∈ (lower s).toList) :
    ¬IsCapital c := by
  rw [toList_lower, List.mem_map] at hc
  obtain ⟨d, -, rfl⟩ := hc
  exact not_isCapital_lowerAscii d

theorem lower_eq_self {s : String} (hs : ∀ c ∈ s.toList, ¬IsCapital c) : lower s = s := by
  rw [← String.toList_inj, toList_lower, map_lowerAscii_eq_self hs]

theorem Tidy.lower {s : String} (h : Tidy s) : Tidy (lower s) where
  trimmed := by
    have ht := congrArg String.toList h.trimmed
    rw [toList_trim] at ht
    rw [← String.toList_inj, toList_trim, toList_lower, trimChars_map_lowerAscii, ht]
  nonempty he := by
    rw [← String.toList_inj, toList_lower] at he
    exact h.nonempty (String.toList_inj.1 (List.map_eq_nil_iff.1 he))

end Handoff.Text
