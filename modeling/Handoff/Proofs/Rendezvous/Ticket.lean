import Handoff.Proofs.Rendezvous.View
import Mathlib.Data.Set.Insert

namespace Handoff.Ticket

open View

variable {P : Type}

/-- What a step of a call does to what may be used once: it stores the entry, which is kept in this
form, or uses it up at this time. -/
inductive Deed (P : Type)
  | stored (kept : Entry P)
  | used (time : Nat)
  deriving DecidableEq

def Deed.isUsed : Deed P → Bool
  | stored _ => false
  | used _ => true

structure Life (P : Type) where
  now : Nat
  held : Option (Entry P)
  bearers : Set Nat
  deeds : List (Deed P)
  drawn : Prop

inductive Turn (l l' : Life P) : Prop
  | fade : l.now ≤ l'.now → Fades l.now l.held l'.held → l'.bearers ⊆ l.bearers →
    l'.deeds = l.deeds → (l.drawn → l'.drawn) → Turn l l'
  | draw {id : Nat} : ¬l.drawn → l'.held = l.held → l'.bearers ⊆ insert id l.bearers →
    l'.deeds = l.deeds → l'.drawn → Turn l l'
  | store {id : Nat} {kept : Entry P} : id ∈ l.bearers → l'.held = some kept →
    l'.bearers ⊆ l.bearers \ {id} → l'.deeds = l.deeds ++ [.stored kept] →
    (l.drawn → l'.drawn) → Turn l l'
  | use {e : Entry P} : l.held = some e → e.isExpired l.now = false → l'.held = none →
    l'.bearers ⊆ l.bearers → l'.deeds = l.deeds ++ [.used l.now] → (l.drawn → l'.drawn) →
    Turn l l'

namespace Life

inductive Sound (l : Life P) : Prop
  | undrawn : ¬l.drawn → l.held = none → l.bearers = ∅ → l.deeds = [] → Sound l
  | drawn {id : Nat} : l.drawn → l.held = none → l.bearers ⊆ {id} → l.deeds = [] → Sound l
  | stored {kept : Entry P} : l.drawn → Fades l.now (some kept) l.held → l.bearers = ∅ →
    l.deeds = [.stored kept] → Sound l
  | used {kept : Entry P} {time : Nat} : l.drawn → l.held = none → l.bearers = ∅ →
    time ≤ kept.expireAt → l.deeds = [.stored kept, .used time] → Sound l

variable {l l' : Life P}

theorem Sound.of_held (hl : l.Sound) {e : Entry P} (he : l.held = some e) :
    l.deeds = [.stored e] ∧ l.bearers = ∅ ∧ l.drawn := by
  cases hl with
  | undrawn _ hh | drawn _ hh | used _ hh => cases hh.symm.trans he
  | stored hd hf hb hs =>
    obtain hh | ⟨hh, -⟩ := hf
    · cases he.symm.trans hh
      exact ⟨hs, hb, hd⟩
    · cases hh.symm.trans he

theorem Sound.used_once (hl : l.Sound) : l.deeds.countP Deed.isUsed ≤ 1 := by
  cases hl with
  | undrawn _ _ _ hs | drawn _ _ _ hs | stored _ _ _ hs | used _ _ _ _ hs =>
    simp [hs, Deed.isUsed]

theorem Sound.stored_unique (hl : l.Sound) {kept kept' : Entry P} (hk : .stored kept ∈ l.deeds)
    (hk' : .stored kept' ∈ l.deeds) : kept = kept' := by
  cases hl with
  | undrawn _ _ _ hs | drawn _ _ _ hs =>
    rw [hs] at hk
    cases hk
  | stored _ _ _ hs =>
    rw [hs, List.mem_singleton] at hk hk'
    exact Deed.stored.inj (hk.trans hk'.symm)
  | used _ _ _ _ hs =>
    simp only [hs, List.mem_cons, List.not_mem_nil, reduceCtorEq, Deed.stored.injEq, or_false]
      at hk hk'
    exact hk.trans hk'.symm

theorem Sound.of_stored (hl : l.Sound) {kept : Entry P} (hk : .stored kept ∈ l.deeds)
    (hu : ∀ time, .used time ∉ l.deeds) (hx : l.now ≤ kept.expireAt) : l.held = some kept := by
  cases hl with
  | undrawn _ _ _ hs | drawn _ _ _ hs =>
    rw [hs] at hk
    cases hk
  | used _ _ _ _ hs =>
    rw [hs] at hu
    exact absurd (List.mem_cons_of_mem _ (List.mem_singleton_self _)) (hu _)
  | stored _ hf _ hs =>
    rw [hs, List.mem_singleton] at hk
    cases hk
    obtain hh | ⟨-, hv⟩ := hf
    · exact hh
    · rw [vacant_some, Entry.isExpired, decide_eq_true_iff] at hv
      omega

/-- Whoever may store something is alone, and nothing has been stored yet. -/
theorem Sound.of_bearer (hl : l.Sound) {id : Nat} (hi : id ∈ l.bearers) :
    l.drawn ∧ l.bearers ⊆ {id} ∧ l.deeds = [] := by
  cases hl with
  | undrawn _ _ hb | stored _ _ hb | used _ _ hb =>
    rw [hb] at hi
    cases hi
  | drawn hd _ hb hs =>
    cases hb hi
    exact ⟨hd, hb, hs⟩

theorem Sound.turn (hl : l.Sound) (ht : Turn l l') : l'.Sound := by
  cases ht with
  | fade hn hf hb hs hd =>
    cases hl with
    | undrawn hu hh he hs' =>
      rw [hh] at hf
      rw [he] at hb
      have hempty := Set.subset_empty_iff.1 hb
      by_cases hd' : l'.drawn
      · have hsub : l'.bearers ⊆ {0} := hempty ▸ Set.empty_subset {0}
        exact .drawn hd' (fades_none.1 hf) hsub (hs.trans hs')
      · exact .undrawn hd' (fades_none.1 hf) hempty (hs.trans hs')
    | drawn hu hh he hs' =>
      rw [hh] at hf
      exact .drawn (hd hu) (fades_none.1 hf) (hb.trans he) (hs.trans hs')
    | stored hu hh he hs' =>
      rw [he] at hb
      exact .stored (hd hu) ((hh.trans hf).later hn) (Set.subset_empty_iff.1 hb) (hs.trans hs')
    | used hu hh he hx hs' =>
      rw [hh] at hf
      rw [he] at hb
      exact .used (hd hu) (fades_none.1 hf) (Set.subset_empty_iff.1 hb) hx (hs.trans hs')
  | draw hd hh hb hs hd' =>
    cases hl with
    | undrawn _ hh' he hs' =>
      rw [he] at hb
      exact .drawn hd' (hh.trans hh') (by simpa using hb) (hs.trans hs')
    | drawn hu | stored hu | used hu => exact absurd hu hd
  | @store id kept hi hh hb hs hd' =>
    obtain ⟨hd, he, hs'⟩ := hl.of_bearer hi
    rw [hs'] at hs
    have hempty : l'.bearers = ∅ := by
      rw [Set.eq_empty_iff_forall_notMem]
      intro k hk
      obtain ⟨hk, hne⟩ := hb hk
      exact hne (he hk)
    exact .stored (hd' hd) (.inl hh) hempty hs
  | use he hx hh hb hs hd' =>
    obtain ⟨hs', hemp, hd⟩ := hl.of_held he
    rw [hemp] at hb
    rw [hs'] at hs
    refine .used (hd' hd) hh (Set.subset_empty_iff.1 hb) ?_ hs
    simpa [Entry.isExpired] using hx

end Life

end Handoff.Ticket
