import Handoff.Proofs.Rendezvous.Table
import Handoff.Rendezvous.Storage

namespace Handoff

class Shelved.Lawful (P : Type) [Shelved P] : Prop where
  get_empty : Shelved.get ⟨.empty, .empty, .empty⟩ = (.empty : Memory P)
  get_set (m : Memory P) (ms : Memories) : Shelved.get (Shelved.set m ms) = m

class Apart (P Q : Type) {S T : outParam Type} [Stage S] [Staged P S] [Shelved P]
    [Stage T] [Staged Q T] [Shelved Q] : Prop where
  kind_ne : Staged.kind Q ≠ Staged.kind P
  get_set (m : Memory P) (ms : Memories) :
    Shelved.get (P := Q) (Shelved.set m ms) = Shelved.get ms

instance : Shelved.Lawful Qr.Session := ⟨rfl, fun _ _ => rfl⟩

instance : Shelved.Lawful OAuth.State := ⟨rfl, fun _ _ => rfl⟩

instance : Shelved.Lawful OAuth.PendingLink := ⟨rfl, fun _ _ => rfl⟩

instance : Apart OAuth.State Qr.Session where
  kind_ne := by decide
  get_set _ _ := rfl

instance : Apart OAuth.PendingLink Qr.Session where
  kind_ne := by decide
  get_set _ _ := rfl

instance : Apart Qr.Session OAuth.State where
  kind_ne := by decide
  get_set _ _ := rfl

instance : Apart Qr.Session OAuth.PendingLink where
  kind_ne := by decide
  get_set _ _ := rfl

instance : Apart OAuth.State OAuth.PendingLink where
  kind_ne := by decide
  get_set _ _ := rfl

instance : Apart OAuth.PendingLink OAuth.State where
  kind_ne := by decide
  get_set _ _ := rfl

namespace Storage

open View

variable {P S α : Type} [Stage S] [Staged P S] [Shelved P] {σ : Storage}

variable (P) in
def view : Storage → View P
  | memory ms => Memory.view (Shelved.get ms)
  | table t => t.view P

variable (P) in
def Sound [Staged.Lawful P] : Storage → Prop
  | memory ms => Memory.Sound (Shelved.get (P := P) ms)
  | table t => t.Sound P

structure IsEmpty [Staged.Lawful P] (σ : Storage) : Prop where
  view (h : Handle) : σ.view P h = none
  sound : σ.Sound P

theorem isEmpty_inMemory [Staged.Lawful P] [Shelved.Lawful P] : inMemory.IsEmpty (P := P) := by
  constructor
  · intro h
    change Memory.view (Shelved.get (P := P) _) h = none
    rw [Shelved.Lawful.get_empty]
    rfl
  · change Memory.Sound (Shelved.get (P := P) _)
    rw [Shelved.Lawful.get_empty]
    exact Memory.sound_empty

theorem isEmpty_inTable [Staged.Lawful P] : inTable.IsEmpty (P := P) :=
  ⟨fun _ => rfl, Table.sound_empty⟩

def IsOpen : Storage → Prop
  | memory _ => True
  | table t => t.isClosed = false

def kept (σ : Storage) (e : Entry P) : Entry P :=
  match σ with
  | memory _ => e
  | table _ => e.clip

omit [Shelved P] in
@[simp] theorem payload_kept (σ : Storage) (e : Entry P) : (σ.kept e).payload = e.payload := by
  cases σ <;> rfl

omit [Shelved P] in
theorem expireAt_kept_le (σ : Storage) (e : Entry P) : (σ.kept e).expireAt ≤ e.expireAt := by
  cases σ with
  | memory => exact Nat.le_refl _
  | table => exact e.clip_expireAt ▸ Nat.min_le_left _ _

omit [Shelved P] in
theorem le_expireAt_kept {now : Nat} {e : Entry P} (σ : Storage) (hn : now ≤ e.expireAt)
    (hm : now ≤ Text.maxSigned) : now ≤ (σ.kept e).expireAt := by
  cases σ with
  | memory => exact hn
  | table => exact e.clip_expireAt ▸ Nat.le_min.2 ⟨hn, hm⟩

section Run

variable {f : Memory P → α × Memory P} {g : Table → α × Table}

theorem Sound.run [Staged.Lawful P] [Shelved.Lawful P] {R : View P → α → View P → Prop}
    (hf : ∀ m : Memory P, m.Sound → (f m).2.Sound ∧ R m.view (f m).1 (f m).2.view)
    (hg : ∀ t : Table, t.Sound P → (g t).2.Sound P ∧ R (t.view P) (g t).1 ((g t).2.view P))
    (hσ : σ.Sound P) :
    (run f g σ).2.Sound P ∧ R (σ.view P) (run f g σ).1 ((run f g σ).2.view P) := by
  cases σ with
  | table t => exact hg t hσ
  | memory ms =>
    have hm := hf (Shelved.get ms) hσ
    simpa only [Storage.run, Sound, view, Shelved.Lawful.get_set] using hm

theorem view_run {Q T : Type} [Stage T] [Staged Q T] [Shelved Q] [Apart P Q]
    (hg : ∀ t, Table.Aside (Staged.kind P) t (g t).2) (σ : Storage) :
    (run f g σ).2.view Q = σ.view Q := by
  cases σ with
  | table t => exact (hg t).view (Apart.kind_ne (P := P))
  | memory ms => exact congrArg Memory.view (Apart.get_set (f (Shelved.get ms)).2 ms)

theorem sound_run {Q T : Type} [Stage T] [Staged Q T] [Shelved Q] [Staged.Lawful Q] [Apart P Q]
    (hg : ∀ t, Table.Aside (Staged.kind P) t (g t).2) (hσ : σ.Sound Q) :
    (run f g σ).2.Sound Q := by
  cases σ with
  | table t => exact (hg t).sound (Apart.kind_ne (P := P)) hσ
  | memory ms =>
    change Memory.Sound (Shelved.get (P := Q) (Shelved.set (f (Shelved.get ms)).2 ms))
    rw [Apart.get_set]
    exact hσ

end Run

structure Aside (P : Type) {S : Type} [Stage S] [Staged P S] [Shelved P] (σ σ' : Storage) :
    Prop where
  view (Q : Type) {T : Type} [Stage T] [Staged Q T] [Shelved Q] [Apart P Q] : σ'.view Q = σ.view Q
  sound (Q : Type) {T : Type} [Stage T] [Staged Q T] [Shelved Q] [Staged.Lawful Q] [Apart P Q] :
    σ.Sound Q → σ'.Sound Q
  kept {Q : Type} (e : Entry Q) : σ'.kept e = σ.kept e
  isOpen : σ.IsOpen → σ'.IsOpen

theorem Aside.refl (σ : Storage) : Aside P σ σ :=
  ⟨fun _ => rfl, fun _ => id, fun _ => rfl, id⟩

theorem Aside.trans {σ' σ'' : Storage} (h : Aside P σ σ') (h' : Aside P σ' σ'') :
    Aside P σ σ'' where
  view Q := (h'.view Q).trans (h.view Q)
  sound Q := h'.sound Q ∘ h.sound Q
  kept e := (h'.kept e).trans (h.kept e)
  isOpen := h'.isOpen ∘ h.isOpen

theorem aside_run {f : Memory P → α × Memory P} {g : Table → α × Table}
    (hg : ∀ t, Table.Aside (Staged.kind P) t (g t).2) (σ : Storage) :
    Aside P σ (run f g σ).2 where
  view _ := view_run hg σ
  sound _ := sound_run hg
  kept _ := by cases σ <;> rfl
  isOpen ho := by
    cases σ with
    | memory => trivial
    | table t => exact (hg t).isClosed.trans ho

section Aside

variable (now : Nat) (h : Handle) (σ : Storage)

theorem aside_put (p : P) (ttl : Nat) : Aside P σ (σ.put now h p ttl).2 :=
  aside_run (fun t => t.put_aside .willing now h p ttl) σ

theorem aside_get : Aside P σ (σ.get (P := P) now h).2 :=
  aside_run (fun t => t.get_aside (P := P) .willing now h) σ

theorem aside_take [DecidableEq S] (expected next : S) :
    Aside P σ (σ.take (P := P) now h expected next).2 :=
  aside_run (fun t => t.take_aside (P := P) .willing now h expected next) σ

theorem aside_delete : Aside P σ (σ.delete P h).2 :=
  aside_run (fun t => t.delete_aside .willing h) σ

theorem aside_sweep : Aside P σ (σ.sweep P now).2 :=
  aside_run (fun t => t.sweep_aside .willing now) σ

end Aside

section Operations

variable [Staged.Lawful P] {now : Nat}

theorem Sound.take_live [DecidableEq S] (hσ : σ.Sound P) (ho : σ.IsOpen) (hn : now ≤ Text.maxWord)
    {h : Handle} {e : Entry P} (he : σ.view P h = some e) (hx : e.isExpired now = false)
    (next : S) : (σ.take now h (Staged.stage e.payload) next).1 = .ok e := by
  cases σ with
  | memory ms => exact Memory.take_live he hx next
  | table t =>
    have ht := (Table.Sound.take_live now h hσ ho hn he hx (Staged.stage e.payload) next).2
    rw [if_pos rfl] at ht
    exact ht.1

variable [Shelved.Lawful P]

theorem Sound.put (hσ : σ.Sound P) (now : Nat) (h : Handle) {p : P}
    (hp : Staged.Lawful.Fits p) (ttl : Nat) :
    (σ.put now h p ttl).2.Sound P ∧
      Put now ⟨h, now, ttl, p⟩ (σ.kept ⟨h, now, ttl, p⟩) (σ.view P) (σ.put now h p ttl).1
        ((σ.put now h p ttl).2.view P) := by
  cases σ with
  | table t => exact Table.Sound.put now h hσ hp ttl
  | memory ms =>
    have hm := Memory.put_view now h p ttl (Shelved.get ms)
    have hs := Memory.Sound.put now h p ttl hσ
    simp only [Storage.put, Storage.run, Sound, view, Shelved.Lawful.get_set]
    exact ⟨hs, hm⟩

theorem Sound.get (hσ : σ.Sound P) (now : Nat) (h : Handle) :
    (σ.get (P := P) now h).2.Sound P ∧
      Get now h (σ.view P) (σ.get now h).1 ((σ.get (P := P) now h).2.view P) :=
  hσ.run (fun m hm => ⟨hm.get now h, m.get_view now h⟩) fun _ ht => ht.get now h

theorem Sound.take [DecidableEq S] (hσ : σ.Sound P) (hn : now ≤ Text.maxWord) (h : Handle)
    (expected next : S) :
    (σ.take (P := P) now h expected next).2.Sound P ∧
      Take now h expected next (σ.view P) (σ.take now h expected next).1
        ((σ.take (P := P) now h expected next).2.view P) :=
  hσ.run (fun m hm => ⟨hm.take now h expected next, m.take_view now h expected next⟩)
    fun _ ht => ht.take now h hn expected next

theorem Sound.delete (hσ : σ.Sound P) (h : Handle) :
    (σ.delete P h).2.Sound P ∧
      Delete h (σ.view P) (σ.delete P h).1 ((σ.delete P h).2.view P) :=
  hσ.run (fun m hm => ⟨hm.delete h, m.delete_view h⟩) fun _ ht => ht.delete h

theorem Sound.sweep (hσ : σ.Sound P) (now : Nat) :
    (σ.sweep P now).2.Sound P ∧ Swept now (σ.view P) ((σ.sweep P now).2.view P) :=
  hσ.run (R := fun v _ v' => Swept now v v') (fun _ hm => ⟨hm.sweep now, hm.sweep_view now⟩)
    fun _ ht => ht.sweep now .willing

end Operations

end Storage

end Handoff
