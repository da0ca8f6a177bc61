import Handoff.Json.Record

namespace Handoff.Json

section Except

variable {ε α β : Type} {x : Except ε α}

theorem bind_eq_ok {f : α → Except ε β} {b : β} :
    (x >>= f) = .ok b ↔ ∃ a, x = .ok a ∧ f a = .ok b := by
  cases x <;> simp [bind, Except.bind]

theorem map_eq_ok {f : α → β} {b : β} : x.map f = .ok b ↔ ∃ a, x = .ok a ∧ f a = b := by
  cases x <;> simp [Except.map]

end Except

namespace Record

variable {σ τ α β : Type} {r : Record σ α} {s : Record τ β}

def knows (r : Record σ α) (key : String) : Bool := (r.offer key .null r.start).isSome

/-- The name alone decides whose member it is, and members are taken in any order. -/
structure Lawful (r : Record σ α) : Prop where
  isSome_offer (key : String) (d : Draft) (x : σ) : (r.offer key d x).isSome = r.knows key
  swap {m n : Option String × Draft} {x y z : σ} :
    r.member x m = .ok y → r.member y n = .ok z →
      ∃ w, r.member x n = .ok w ∧ r.member w m = .ok z

structure Strange (r : Record σ α) (m : Option String × Draft) : Prop where
  named : ∃ key, m.1 = some key ∧ r.knows key = false
  whole : m.2.isWhole = true

section Member

variable {key : String} {d : Draft} {x y : σ}

theorem Lawful.offer_eq_none (h : r.Lawful) (hk : r.knows key = false) :
    r.offer key d x = none := by
  rw [← Option.not_isSome_iff_eq_none, h.isSome_offer, hk]
  exact Bool.false_ne_true

theorem Lawful.member_strange (h : r.Lawful) {m : Option String × Draft} (hm : r.Strange m) :
    r.member x m = .ok x := by
  obtain ⟨key, d⟩ := m
  obtain ⟨⟨key, rfl, hk⟩, hw⟩ := hm
  simp only [member, h.offer_eq_none hk, if_pos hw]

end Member

section Field

variable {name : String} {read : Reader α} {absent cutOff : Option α}

theorem knows_field {key : String} :
    (field name read absent cutOff).knows key = decide (key = name) := by
  unfold knows field
  dsimp only
  split <;> simp_all

theorem member_field_eq_ok {x y : Option α} {m : Option String × Draft} :
    (field name read absent cutOff).member x m = .ok y ↔
      (m.1 = some name ∧ x = none ∧ ∃ a, read m.2 = .ok a ∧ y = some a) ∨
      (∃ key, m.1 = some key ∧ key ≠ name) ∧ m.2.isWhole = true ∧ y = x := by
  obtain ⟨key, d⟩ := m
  cases key with
  | none => simp [member]
  | some key =>
    by_cases hk : key = name
    · subst hk
      cases x with
      | some => simp [member, field]
      | none =>
        simp only [member, field, if_pos, Option.isSome_none, Bool.false_eq_true, if_false,
          map_eq_ok]
        simp [@eq_comm _ y]
    · cases hd : d.isWhole <;> simp [member, field, hk, hd, @eq_comm _ y]

theorem lawful_field : (field name read absent cutOff).Lawful where
  isSome_offer key d x := by
    rw [knows_field]
    unfold field
    dsimp only
    split <;> simp_all
  swap {m n x y z} hm hn := by
    simp only [member_field_eq_ok] at hm hn ⊢
    obtain ⟨hk, rfl, a, ha, rfl⟩ | ⟨hk, hw, rfl⟩ := hm
    · obtain ⟨-, hx, -⟩ | ⟨hk', hw', rfl⟩ := hn
      · cases hx
      · exact ⟨none, .inr ⟨hk', hw', rfl⟩, .inl ⟨hk, rfl, a, ha, rfl⟩⟩
    · exact ⟨z, hn, .inr ⟨hk, hw, rfl⟩⟩

end Field

theorem Lawful.member_and_eq_ok (h : r.Lawful) {x x' : σ} {y y' : τ}
    {m : Option String × Draft} :
    (r.and s).member (x, y) m = .ok (x', y') ↔
      if m.1.any r.knows = true then r.member x m = .ok x' ∧ y = y'
      else s.member y m = .ok y' ∧ x = x' := by
  obtain ⟨key, d⟩ := m
  cases key with
  | none => simp [member]
  | some key =>
    simp only [Option.any_some]
    by_cases hk : r.knows key = true
    · obtain ⟨o, ho⟩ := Option.isSome_iff_exists.1 ((h.isSome_offer key d x).trans hk)
      simp only [if_pos hk, member, Record.and, ho, map_eq_ok, Prod.mk.injEq]
      exact ⟨fun ⟨_, ha, hx, hy⟩ => ⟨hx ▸ ha, hy⟩, fun ⟨ho, hy⟩ => ⟨x', ho, rfl, hy⟩⟩
    · have hn : r.offer key d x = none := h.offer_eq_none (eq_false_of_ne_true hk)
      simp only [if_neg hk, member, Record.and, hn]
      cases s.offer key d y with
      | some => simp [map_eq_ok]
      | none => cases hd : d.isWhole <;> simp [and_comm]

theorem Lawful.and (hr : r.Lawful) (hs : s.Lawful) : (r.and s).Lawful where
  isSome_offer key d x := by
    have hl (d : Draft) (x : σ) (y : τ) :
        ((r.and s).offer key d (x, y)).isSome = (r.knows key || s.knows key) := by
      rw [← hr.isSome_offer key d x, ← hs.isSome_offer key d y]
      unfold Record.and
      dsimp only
      cases r.offer key d x <;> simp
    exact (hl d x.1 x.2).trans (hl .null r.start s.start).symm
  swap {m n x y z} hm hn := by
    obtain ⟨⟨x, x'⟩, ⟨y, y'⟩, ⟨z, z'⟩⟩ := x, y, z
    rw [hr.member_and_eq_ok] at hm hn
    simp only [Prod.exists, hr.member_and_eq_ok]
    by_cases hkm : m.1.any r.knows = true <;> by_cases hkn : n.1.any r.knows = true
    all_goals simp only [hkm, hkn, if_true] at hm hn ⊢
    · obtain ⟨⟨hm, rfl⟩, hn, rfl⟩ := hm, hn
      obtain ⟨w, hw, hz⟩ := hr.swap hm hn
      exact ⟨w, x', ⟨hw, rfl⟩, hz, rfl⟩
    · obtain ⟨⟨hm, rfl⟩, hn, rfl⟩ := hm, hn
      exact ⟨x, z', ⟨hn, rfl⟩, hm, rfl⟩
    · obtain ⟨⟨hm, rfl⟩, hn, rfl⟩ := hm, hn
      exact ⟨z, x', ⟨hn, rfl⟩, hm, rfl⟩
    · obtain ⟨⟨hm, rfl⟩, hn, rfl⟩ := hm, hn
      obtain ⟨w, hw, hz⟩ := hs.swap hm hn
      exact ⟨x, w, ⟨hw, rfl⟩, hz, rfl⟩

theorem Lawful.map (f : α → β) (h : r.Lawful) : (r.map f).Lawful := ⟨h.isSome_offer, h.swap⟩

section Order

variable {ms ms' others : List (Option String × Draft)}

theorem Lawful.foldlM_perm (h : r.Lawful) (hp : ms.Perm ms') {x z : σ}
    (hf : ms.foldlM r.member x = .ok z) : ms'.foldlM r.member x = .ok z := by
  induction hp generalizing x with
  | nil => exact hf
  | cons m hp ih =>
    rw [List.foldlM_cons] at hf ⊢
    obtain ⟨y, hy, hz⟩ := bind_eq_ok.1 hf
    rw [hy]
    exact ih hz
  | swap m n ms =>
    simp only [List.foldlM_cons] at hf ⊢
    obtain ⟨y, hy, hf⟩ := bind_eq_ok.1 hf
    obtain ⟨u, hu, hf⟩ := bind_eq_ok.1 hf
    obtain ⟨w, hw, hz⟩ := h.swap hy hu
    rw [hw]
    change r.member w n >>= _ = _
    rw [hz]
    exact hf
  | trans hp hp' ih ih' => exact ih' (ih hf)

theorem Lawful.foldlM_strange (h : r.Lawful) (ho : ∀ m ∈ others, r.Strange m) (x : σ) :
    others.foldlM r.member x = .ok x := by
  induction others with
  | nil => rfl
  | cons m ms ih =>
    rw [List.foldlM_cons, h.member_strange (ho m List.mem_cons_self)]
    exact ih fun n hn => ho n (List.mem_cons_of_mem m hn)

theorem Lawful.foldlM_iff (h : r.Lawful) (ho : ∀ m ∈ others, r.Strange m)
    (hp : ms'.Perm (ms ++ others)) {x z : σ} :
    ms'.foldlM r.member x = .ok z ↔ ms.foldlM r.member x = .ok z := by
  have ha : (ms ++ others).foldlM r.member x = ms.foldlM r.member x := by
    rw [List.foldlM_append]
    cases ms.foldlM r.member x with
    | error => rfl
    | ok y => exact h.foldlM_strange ho y
  rw [← ha]
  exact ⟨h.foldlM_perm hp, h.foldlM_perm hp.symm⟩

theorem Lawful.read_iff (h : r.Lawful) (ho : ∀ m ∈ others, r.Strange m)
    (hp : ms'.Perm (ms ++ others)) {a : α} :
    r.read (.obj ms' true) = .ok a ↔ r.read (.obj ms true) = .ok a := by
  simp only [read]
  constructor
  · intro hr
    obtain ⟨z, hz, ha⟩ := bind_eq_ok.1 hr
    rw [(h.foldlM_iff ho hp).1 hz]
    exact ha
  · intro hr
    obtain ⟨z, hz, ha⟩ := bind_eq_ok.1 hr
    rw [(h.foldlM_iff ho hp).2 hz]
    exact ha

end Order

/-- Of two texts that are objects, the second has the members of the first in some order, and maybe
others that the record does not know. -/
def Rearranges (r : Record σ α) (text text' : String) : Prop :=
  ∃ ms ms' others, Draft.read (text.toList.map some) = (.obj ms true, []) ∧
    Draft.read (text'.toList.map some) = (.obj ms' true, []) ∧
    ms'.Perm (ms ++ others) ∧ ∀ m ∈ others, r.Strange m

theorem Lawful.ofText_iff (h : r.Lawful) {text text' : String} (ht : r.Rearranges text text')
    {a : α} : ofText r.read text' = .ok a ↔ ofText r.read text = .ok a := by
  obtain ⟨ms, ms', others, hm, hm', hp, ho⟩ := ht
  have hread {ms : List (Option String × Draft)} {text : String}
      (hm : Draft.read (text.toList.map some) = (.obj ms true, [])) :
      ofText r.read text = r.read (.obj ms true) := by
    unfold ofText readSource
    rw [hm]
    dsimp only
    cases r.read (.obj ms true) <;> rfl
  rw [hread hm, hread hm', h.read_iff ho hp]

end Record

end Handoff.Json
