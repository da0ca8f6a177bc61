import Handoff.Rendezvous.Stage
import Handoff.Rendezvous.Table
import Mathlib.Data.List.Pairwise
import Mathlib.Data.Option.Basic
import Mathlib.Logic.Function.Basic
/-!
What a store holds, whatever it is made of: for each handle the entry under it, expired or not. The
operations of a store are relations between what it held before, what it answers, and what it holds
then.
-/

namespace Handoff

section Lists

variable {α : Type} {q : α → Bool} {l : List α}

theorem find?_of_unique (hl : l.Pairwise fun a b => ¬(q a = true ∧ q b = true)) {a : α}
    (ha : a ∈ l) (hq : q a = true) : l.find? q = some a := by
  induction l with
  | nil => cases ha
  | cons b l ih =>
    obtain ⟨hb, hl⟩ := List.pairwise_cons.1 hl
    cases List.mem_cons.1 ha with
    | inl hab => rw [← hab, List.find?_cons_of_pos hq]
    | inr ha =>
      have hn : ¬q b = true := fun hbq => hb a ha ⟨hbq, hq⟩
      rw [List.find?_cons_of_neg hn]
      exact ih hl ha

theorem find?_filter_of_unique (p : α → Bool)
    (hl : l.Pairwise fun a b => ¬(q a = true ∧ q b = true)) :
    (l.filter p).find? q = (l.find? q).filter p := by
  induction l with
  | nil => rfl
  | cons a l ih =>
    obtain ⟨ha, hl⟩ := List.pairwise_cons.1 hl
    cases hq : q a with
    | false => cases hp : p a <;> simp [hp, hq, ih hl]
    | true =>
      have hn : (l.filter p).find? q = none := by
        rw [List.find?_eq_none]
        intro b hb
        simpa [hq] using ha b (List.mem_filter.1 hb).1
      rw [List.find?_cons_of_pos hq]
      cases hp : p a with
      | false => rw [List.filter_cons_of_neg (by simp [hp]), hn, Option.filter_some_neg (by simp [hp])]
      | true => rw [List.filter_cons_of_pos hp, List.find?_cons_of_pos hq, Option.filter_some_pos hp]

end Lists

abbrev View (P : Type) := Handle → Option (Entry P)

class Staged.Lawful (P : Type) {S : outParam Type} [Stage S] [Staged P S] where
  Fits : P → Prop
  read_compact {p : P} : Fits p →
    Json.ofText (Staged.read (P := P)) (Staged.toJson p).compact = .ok p
  stage_advance (s : S) (t : Nat) (p : P) : Staged.stage (Staged.advance s t p) = s
  fits_advance {p : P} {t : Nat} (s : S) : t ≤ Text.maxWord → Fits p → Fits (Staged.advance s t p)
  text_injective : Function.Injective (Stage.text : S → String)

namespace View

variable {P S : Type}

/-- Nothing live is there: no entry, or an expired one. -/
def Vacant (now : Nat) (o : Option (Entry P)) : Prop := ∀ e ∈ o, e.isExpired now = true

/-- Time may have taken the entry away, if it had expired. -/
def Fades (now : Nat) (o o' : Option (Entry P)) : Prop := o' = o ∨ o' = none ∧ Vacant now o

theorem Fades.refl (now : Nat) (o : Option (Entry P)) : Fades now o o := .inl rfl

@[simp] theorem vacant_none (now : Nat) : Vacant now (none : Option (Entry P)) := by
  intro e he
  cases he

@[simp] theorem vacant_some {now : Nat} {e : Entry P} :
    Vacant now (some e) ↔ e.isExpired now = true := by
  simp [Vacant]

@[simp] theorem fades_none {now : Nat} {o : Option (Entry P)} : Fades now none o ↔ o = none := by
  simp [Fades]

theorem Vacant.later {now later : Nat} {o : Option (Entry P)} (ho : Vacant now o)
    (hn : now ≤ later) : Vacant later o := by
  intro e he
  have hx := ho e he
  simp only [Entry.isExpired, decide_eq_true_eq] at hx ⊢
  omega

theorem Fades.trans {now : Nat} {o o' o'' : Option (Entry P)} (h : Fades now o o')
    (h' : Fades now o' o'') : Fades now o o'' := by
  obtain rfl | ⟨rfl, ho⟩ := h
  · exact h'
  · exact .inr ⟨fades_none.1 h', ho⟩

theorem Fades.later {now later : Nat} {o o' : Option (Entry P)} (h : Fades now o o')
    (hn : now ≤ later) : Fades later o o' :=
  h.imp_right fun ho => ⟨ho.1, ho.2.later hn⟩

def Swept (now : Nat) (v v' : View P) : Prop := ∀ h, Fades now (v h) (v' h)

theorem Swept.refl (now : Nat) (v : View P) : Swept now v v := fun h => .refl now (v h)

theorem Swept.later {now later : Nat} {v v' : View P} (hv : Swept now v v') (hn : now ≤ later) :
    Swept later v v' :=
  fun h => (hv h).later hn

theorem Swept.update {now : Nat} {v : View P} {h : Handle} {o : Option (Entry P)}
    (ho : Fades now (v h) o) : Swept now v (Function.update v h o) := by
  intro k
  by_cases hk : k = h
  · subst hk
    rwa [Function.update_self]
  · rw [Function.update_of_ne hk]
    exact .refl now (v k)

inductive Put (now : Nat) (e kept : Entry P) (v : View P) :
    Except StoreError (Entry P) → View P → Prop
  | stored : Vacant now (v e.handle) → Put now e kept v (.ok e) (Function.update v e.handle kept)
  | duplicate : (v e.handle).isSome → Put now e kept v (.error .duplicate) v
  | refused : Put now e kept v (.error Table.refusal) v

inductive Get (now : Nat) (h : Handle) (v : View P) : Except StoreError (Entry P) → View P → Prop
  | found {e : Entry P} : v h = some e → e.isExpired now = false → Get now h v (.ok e) v
  | absent {o : Option (Entry P)} : Vacant now (v h) → Fades now (v h) o →
    Get now h v (.error .notFound) (Function.update v h o)
  | refused : Get now h v (.error Table.refusal) v

theorem Get.of_ok {now : Nat} {h : Handle} {v v' : View P} {e : Entry P}
    (hg : Get now h v (.ok e) v') : v h = some e ∧ e.isExpired now = false ∧ v' = v := by
  cases hg with
  | found he hx => exact ⟨he, hx, rfl⟩

theorem Get.of_error {now : Nat} {h : Handle} {v v' : View P} {err : StoreError}
    (hg : Get now h v (.error err) v') : Swept now v v' := by
  cases hg with
  | absent _ ho => exact .update ho
  | refused => exact .refl now v

theorem Put.of_ok {now : Nat} {e kept e' : Entry P} {v v' : View P}
    (hp : Put now e kept v (.ok e') v') :
    e' = e ∧ Vacant now (v e.handle) ∧ v' = Function.update v e.handle (some kept) := by
  cases hp with
  | stored ho => exact ⟨rfl, ho, rfl⟩

theorem Put.of_error {now : Nat} {e kept : Entry P} {v v' : View P} {err : StoreError}
    (hp : Put now e kept v (.error err) v') : v' = v := by
  cases hp <;> rfl

def moved [Stage S] [Staged P S] (now : Nat) (next : S) (e : Entry P) : Option (Entry P) :=
  if Stage.isTerminal next then none
  else some { e with payload := Staged.advance next now e.payload }

inductive Take [Stage S] [Staged P S] (now : Nat) (h : Handle) (expected next : S) (v : View P) :
    Except StoreError (Entry P) → View P → Prop
  | taken {e : Entry P} : v h = some e → e.isExpired now = false →
    Staged.stage e.payload = expected →
    Take now h expected next v (.ok e) (Function.update v h (moved now next e))
  | conflict {e : Entry P} : v h = some e → e.isExpired now = false →
    Staged.stage e.payload ≠ expected →
    Take now h expected next v (.error (.conflict (Stage.text (Staged.stage e.payload)))) v
  | absent {o : Option (Entry P)} : Vacant now (v h) → Fades now (v h) o →
    Take now h expected next v (.error .notFound) (Function.update v h o)
  | refused : Take now h expected next v (.error Table.refusal) v

theorem Take.of_ok [Stage S] [Staged P S] {now : Nat} {h : Handle} {expected next : S}
    {v v' : View P} {e : Entry P} (ht : Take now h expected next v (.ok e) v') :
    v h = some e ∧ e.isExpired now = false ∧ Staged.stage e.payload = expected ∧
      v' = Function.update v h (moved now next e) := by
  cases ht with
  | taken he hx hs => exact ⟨he, hx, hs, rfl⟩

theorem Take.of_error [Stage S] [Staged P S] {now : Nat} {h : Handle} {expected next : S}
    {v v' : View P} {err : StoreError} (ht : Take now h expected next v (.error err) v') :
    Swept now v v' := by
  cases ht with
  | conflict | refused => exact .refl now v
  | absent _ ho => exact .update ho

inductive Delete (h : Handle) (v : View P) : Except StoreError Bool → View P → Prop
  | deleted : Delete h v (.ok (v h).isSome) (Function.update v h none)
  | refused : Delete h v (.error Table.refusal) v

theorem Delete.of_ok {h : Handle} {v v' : View P} {b : Bool} (hd : Delete h v (.ok b) v') :
    b = (v h).isSome ∧ v' = Function.update v h none := by
  cases hd
  exact ⟨rfl, rfl⟩

theorem Delete.of_error {h : Handle} {v v' : View P} {err : StoreError}
    (hd : Delete h v (.error err) v') : v' = v := by
  cases hd
  rfl

end View

end Handoff
