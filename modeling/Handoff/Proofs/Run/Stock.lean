import Handoff.Proofs.OAuth.Tickets
import Handoff.Proofs.Rendezvous.Script

namespace Handoff

open View

structure Stock where
  sessions : View Qr.Session
  states : View OAuth.State
  links : View OAuth.PendingLink

namespace Stock

def Holds (κ : Kind) (h : Handle) (k : Stock) : Prop :=
  match κ with
  | .qrSession => (k.sessions h).isSome = true
  | .oauthState => (k.states h).isSome = true
  | .pendingLink => (k.links h).isSome = true

def remove (κ : Kind) (h : Handle) (k : Stock) : Stock :=
  match κ with
  | .qrSession => { k with sessions := Function.update k.sessions h none }
  | .oauthState => { k with states := Function.update k.states h none }
  | .pendingLink => { k with links := Function.update k.links h none }

end Stock

def View.unexpired {P : Type} (now : Nat) (v : View P) : View P := fun h => v.live now h

theorem View.Swept.unexpired {P : Type} {now : Nat} {v v' : View P} (hv : Swept now v v') :
    v'.unexpired now = v.unexpired now := by
  funext h
  obtain he | ⟨he, hx⟩ := hv h
  · rw [View.unexpired, View.unexpired, live, live, he]
  · rw [View.unexpired, View.unexpired, live_eq_none.2 hx, live, he]
    rfl

theorem View.unexpired_update {P : Type} (now : Nat) (v : View P) (h : Handle) :
    View.unexpired now (Function.update v h none) =
      Function.update (v.unexpired now) h none := by
  funext k
  rw [View.unexpired, live]
  by_cases hk : k = h
  · subst hk
    rw [Function.update_self, Function.update_self]
    rfl
  · rw [Function.update_of_ne hk, Function.update_of_ne hk]
    rfl

namespace Service

def stock (s : Service) : Stock where
  sessions := (s.storage.view Qr.Session).unexpired s.now
  states := (s.storage.view OAuth.State).unexpired s.now
  links := (s.storage.view OAuth.PendingLink).unexpired s.now

/-- No entry that has not expired comes, goes or changes. -/
def Spares (s s' : Service) : Prop := s'.stock = s.stock

/-- One entry goes, which had not expired, and no other. -/
def Removes (κ : Kind) (h : Handle) (s s' : Service) : Prop :=
  s.stock.Holds κ h ∧ s'.stock = s.stock.remove κ h

/-- Nothing comes of it for anyone: no entry, no user, no topic and no subscription changes. -/
structure Untouched (s s' : Service) : Prop where
  stock : s.Spares s'
  users : s'.users = s.users
  hub : s'.hub = s.hub

structure Spends (κ : Kind) (h : Handle) (s s' : Service) : Prop where
  removes : s.Removes κ h s'
  users : s'.users = s.users
  hub : s'.hub = s.hub

variable {s s' s'' : Service}

theorem Spares.refl (s : Service) : s.Spares s := rfl

theorem Spares.trans (h : s.Spares s') (h' : s'.Spares s'') : s.Spares s'' := Eq.trans h' h

theorem Removes.trans_spares {κ : Kind} {h : Handle} (hr : s.Removes κ h s') (hs : s'.Spares s'') :
    s.Removes κ h s'' := ⟨hr.1, Eq.trans hs hr.2⟩

theorem Spares.trans_removes {κ : Kind} {h : Handle} (hs : s.Spares s') (hr : s'.Removes κ h s'') :
    s.Removes κ h s'' := by
  unfold Spares at hs
  obtain ⟨hh, hr⟩ := hr
  rw [hs] at hh hr
  exact ⟨hh, hr⟩

theorem Untouched.refl (s : Service) : s.Untouched s := ⟨.refl s, rfl, rfl⟩

theorem Untouched.trans (h : s.Untouched s') (h' : s'.Untouched s'') : s.Untouched s'' :=
  ⟨h.stock.trans h'.stock, h'.users.trans h.users, h'.hub.trans h.hub⟩

theorem Spends.trans_untouched {κ : Kind} {h : Handle} (hs : s.Spends κ h s')
    (hu : s'.Untouched s'') : s.Spends κ h s'' :=
  ⟨hs.removes.trans_spares hu.stock, hu.users.trans hs.users, hu.hub.trans hs.hub⟩

theorem Untouched.trans_spends {κ : Kind} {h : Handle} (hu : s.Untouched s')
    (hs : s'.Spends κ h s'') : s.Spends κ h s'' :=
  ⟨hu.stock.trans_removes hs.removes, hs.users.trans hu.users, hs.hub.trans hu.hub⟩

end Service

section Stocked

open Service

class Stocked (P : Type) {S : outParam Type} [Stage S] [Staged P S] [Shelved P] where
  get : Stock → View P
  set : View P → Stock → Stock
  set_get (k : Stock) : set (get k) k = k
  get_stock (s : Service) : get s.stock = (s.storage.view P).unexpired s.now
  stock_eq {s s' : Service} : Access P s s' →
    s'.stock = set ((s'.storage.view P).unexpired s.now) s.stock
  holds_iff (h : Handle) (k : Stock) :
    k.Holds (Staged.kind P) h ↔ (get k h).isSome = true
  remove_eq (h : Handle) (k : Stock) :
    k.remove (Staged.kind P) h = set (Function.update (get k) h none) k

instance : Stocked Qr.Session where
  get k := k.sessions
  set v k := { k with sessions := v }
  set_get _ := rfl
  get_stock _ := rfl
  stock_eq ha := by
    unfold stock
    rw [ha.aside.view OAuth.State, ha.aside.view OAuth.PendingLink, ha.rest]
  holds_iff _ _ := .rfl
  remove_eq _ _ := rfl

instance : Stocked OAuth.State where
  get k := k.states
  set v k := { k with states := v }
  set_get _ := rfl
  get_stock _ := rfl
  stock_eq ha := by
    unfold stock
    rw [ha.aside.view Qr.Session, ha.aside.view OAuth.PendingLink, ha.rest]
  holds_iff _ _ := .rfl
  remove_eq _ _ := rfl

instance : Stocked OAuth.PendingLink where
  get k := k.links
  set v k := { k with links := v }
  set_get _ := rfl
  get_stock _ := rfl
  stock_eq ha := by
    unfold stock
    rw [ha.aside.view Qr.Session, ha.aside.view OAuth.State, ha.rest]
  holds_iff _ _ := .rfl
  remove_eq _ _ := rfl

namespace Service

variable {P S : Type} [Stage S] [Staged P S] [Shelved P] [Stocked P] {s s' : Service}
  (ha : Access P s s')
include ha

theorem Access.spares (hv : Swept s.now (s.storage.view P) (s'.storage.view P)) :
    s.Spares s' := by
  rw [Spares, Stocked.stock_eq ha, hv.unexpired, ← Stocked.get_stock, Stocked.set_get]

theorem Access.removes {h : Handle} {e : Entry P} (he : s.storage.view P h = some e)
    (hx : e.isExpired s.now = false)
    (hv : s'.storage.view P = Function.update (s.storage.view P) h none) :
    s.Removes (Staged.kind P) h s' := by
  constructor
  · rw [Stocked.holds_iff, Stocked.get_stock, View.unexpired, live_eq_some.2 ⟨he, hx⟩]
    rfl
  · rw [Stocked.stock_eq ha, hv, View.unexpired_update, Stocked.remove_eq, Stocked.get_stock]

omit [Stocked P] in
theorem Access.hub : s'.hub = s.hub := by
  rw [ha.rest]

theorem Access.untouched (hv : Swept s.now (s.storage.view P) (s'.storage.view P)) :
    s.Untouched s' :=
  ⟨ha.spares hv, ha.users, ha.hub⟩

section Stores

omit ha

variable [Staged.Lawful P] [Shelved.Lawful P] {h : Handle} (hs : s.storage.Sound P)
include hs

theorem put_untouched {p : P} {ttl : Nat} {err : StoreError} (hp : Staged.Lawful.Fits p)
    (hr : s.put h p ttl = (.error err, s')) : s.Untouched s' := by
  refine (access_put hr).untouched ?_
  rw [put_error hs hp hr]
  exact .refl _ _

theorem get_untouched {r : Except StoreError (Entry P)} (hr : s.get h = (r, s')) :
    s.Untouched s' := by
  refine (access_get hr).untouched ?_
  cases r with
  | ok e =>
    rw [(get_ok hs hr).2.2]
    exact .refl _ _
  | error e => exact get_error hs hr

variable [DecidableEq S] (hn : s.now ≤ Text.maxWord) {expected next : S}
include hn

theorem take_untouched {err : StoreError}
    (hr : s.take (P := P) h expected next = (.error err, s')) : s.Untouched s' :=
  (access_take hr).untouched (take_error hs hn hr)

theorem take_spends {e : Entry P} (hnext : Stage.isTerminal next = true)
    (hr : s.take h expected next = (.ok e, s')) : s.Spends (Staged.kind P) h s' := by
  obtain ⟨he, hx, -, hv⟩ := take_ok hs hn hr
  have ha := access_take hr
  rw [moved, if_pos hnext] at hv
  exact ⟨ha.removes he hx hv, ha.users, ha.hub⟩

end Stores

end Service

end Stocked

section Pieces

open Service

abbrev Pieces := List (Service × Service)

theorem Pieces.forall_concat {q : Service → Service → Prop} {l : Pieces} {s s' : Service}
    (hl : ∀ x ∈ l, q x.1 x.2) (hs : q s s') : ∀ x ∈ l ++ [(s, s')], q x.1 x.2 :=
  List.forall_mem_append.2 ⟨hl, List.forall_mem_singleton.2 hs⟩

/-- One of the pieces is a `p`, and all others are `q`s. -/
def Once (p q : Service → Service → Prop) (l : Pieces) : Prop :=
  ∃ l₁ x l₂, l = l₁ ++ x :: l₂ ∧ p x.1 x.2 ∧ ∀ y ∈ l₁ ++ l₂, q y.1 y.2

namespace Once

variable {p q : Service → Service → Prop} {l : Pieces} {s s' : Service}

theorem now (hl : ∀ x ∈ l, q x.1 x.2) (hp : p s s') : Once p q (l ++ [(s, s')]) :=
  ⟨l, (s, s'), [], rfl, hp, by rwa [List.append_nil]⟩

theorem before (hl : Once p q l) (hq : q s s') : Once p q (l ++ [(s, s')]) := by
  obtain ⟨l₁, x, l₂, rfl, hp, hl⟩ := hl
  refine ⟨l₁, x, l₂ ++ [(s, s')], by simp, hp, ?_⟩
  rw [← List.append_assoc]
  simp only [List.forall_mem_append, List.forall_mem_singleton]
  exact ⟨List.forall_mem_append.1 hl, hq⟩

theorem of_concat (hl : Once p q (l ++ [(s, s')])) :
    p s s' ∧ (∀ x ∈ l, q x.1 x.2) ∨ q s s' ∧ Once p q l := by
  obtain ⟨l₁, x, l₂, he, hp, hl⟩ := hl
  obtain ⟨rfl, hx, rfl⟩ | ⟨l', rfl, rfl⟩ := Qr.split_concat he
  · cases hx
    rw [List.append_nil] at hl
    exact .inl ⟨hp, hl⟩
  · rw [← List.append_assoc] at hl
    simp only [List.forall_mem_append, List.forall_mem_singleton] at hl
    exact .inr ⟨hl.2, l₁, x, l', rfl, hp, List.forall_mem_append.2 hl.1⟩

theorem singleton (hp : p s s') : Once p q [(s, s')] := now (l := []) (by simp) hp

theorem mono {p' q' : Service → Service → Prop} (hl : Once p q l) (hp : ∀ {s s'}, p s s' → p' s s')
    (hq : ∀ {s s'}, q s s' → q' s s') : Once p' q' l := by
  obtain ⟨l₁, x, l₂, he, hx, hl⟩ := hl
  exact ⟨l₁, x, l₂, he, hp hx, fun y hy => hq (hl y hy)⟩

theorem all {r : Service → Service → Prop} (hl : Once p q l) (hp : ∀ {s s'}, p s s' → r s s')
    (hq : ∀ {s s'}, q s s' → r s s') : ∀ x ∈ l, r x.1 x.2 := by
  obtain ⟨l₁, x, l₂, rfl, hx, hl⟩ := hl
  intro y hy
  rw [List.mem_append, List.mem_cons] at hy
  obtain hy | rfl | hy := hy
  · exact hq (hl y (List.mem_append_left _ hy))
  · exact hp hx
  · exact hq (hl y (List.mem_append_right _ hy))

end Once

/-- The pieces follow upon each other at once. -/
inductive Joined (s : Service) : Pieces → Service → Prop
  | nil : Joined s [] s
  | snoc {l : Pieces} {t u : Service} : Joined s l t → Joined s (l ++ [(t, u)]) u

namespace Joined

variable {p q : Service → Service → Prop} {l : Pieces} {s s' : Service}

theorem all (h : Joined s l s') (refl : q s s) (trans : ∀ {t u}, q s t → q t u → q s u)
    (hl : ∀ x ∈ l, q x.1 x.2) : q s s' := by
  induction h with
  | nil => exact refl
  | snoc h ih =>
    rw [List.forall_mem_append, List.forall_mem_singleton] at hl
    exact trans (ih hl.1) hl.2

theorem untouched (h : Joined s l s') (hl : ∀ x ∈ l, x.1.Untouched x.2) :
    ∀ x ∈ [(s, s')], x.1.Untouched x.2 :=
  List.forall_mem_singleton.2 (h.all (.refl s) .trans hl)

theorem once (h : Joined s l s') (refl : q s s) (trans : ∀ {t u}, q s t → q t u → q s u)
    (left : ∀ {t u}, q s t → p t u → p s u) (right : ∀ {t u}, p s t → q t u → p s u)
    (hl : Once p q l) : p s s' := by
  induction h with
  | nil =>
    obtain ⟨l₁, x, l₂, he, -⟩ := hl
    cases l₁ <;> cases he
  | snoc h ih =>
    obtain ⟨hp, hq⟩ | ⟨hq, ho⟩ := hl.of_concat
    · exact left (h.all refl trans hq) hp
    · exact right (ih ho) hq

theorem spends {κ : Kind} {k : Handle} (h : Joined s l s')
    (hl : Once (Spends κ k) Untouched l) : Once (Spends κ k) Untouched [(s, s')] :=
  .singleton (h.once (.refl s) .trans Untouched.trans_spends Spends.trans_untouched hl)

end Joined

def Pieces.gained (l : Pieces) : Int :=
  (l.map fun x => (x.2.hub.active : Int) - x.1.hub.active).sum

theorem Pieces.gained_concat (l : Pieces) (s s' : Service) :
    gained (l ++ [(s, s')]) = gained l + (s'.hub.active - s.hub.active) := by
  simp [gained]

theorem Joined.gained {l : Pieces} {s s' : Service} (h : Joined s l s') :
    l.gained = s'.hub.active - s.hub.active := by
  induction h with
  | nil => simp [Pieces.gained]
  | snoc h ih =>
    rw [Pieces.gained_concat, ih]
    omega

end Pieces

end Handoff
