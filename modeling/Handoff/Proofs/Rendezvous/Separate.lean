import Handoff.Proofs.Rendezvous.Local
import Handoff.Proofs.Run.Effect

namespace Handoff

variable {α : Type} {h : Handle}

namespace Memory

variable {P S : Type} {m : Memory P}

def only (h : Handle) (m : Memory P) : Memory P := ⟨m.entries.filter (·.handle = h)⟩

structure Local (h : Handle) (f : Memory P → α × Memory P) : Prop where
  alone (m : Memory P) : f (m.only h) = Prod.map id (only h) (f m)
  aside {k : Handle} (m : Memory P) : k ≠ h → (f m).2.only k = m.only k

theorem find?_only (h : Handle) (m : Memory P) : (m.only h).find? h = m.find? h := by
  unfold find? only
  rw [List.find?_filter]
  congr 1
  funext e
  simp

theorem only_remove (h : Handle) (m : Memory P) : (m.only h).remove h = (m.remove h).only h := by
  unfold only remove
  rw [List.filter_filter, List.filter_filter]
  congr 2
  funext e
  exact Bool.and_comm ..

theorem only_remove_of_ne {k : Handle} (hk : k ≠ h) (m : Memory P) :
    (m.remove h).only k = m.only k := by
  unfold only remove
  rw [List.filter_filter]
  congr 2
  funext e
  by_cases he : e.handle = k <;> simp [he, hk]

theorem only_store {e : Entry P} (he : e.handle = h) (m : Memory P) :
    (m.only h).store e = (m.store e).only h := by
  subst he
  unfold store
  rw [only_remove]
  simp [only]

theorem only_store_of_ne {k : Handle} {e : Entry P} (hk : k ≠ e.handle) (m : Memory P) :
    (m.store e).only k = m.only k := by
  have hr := only_remove_of_ne hk m
  unfold only at hr ⊢
  rw [store, List.filter_append, Memory.mk.injEq]
  rw [Memory.mk.injEq] at hr
  simp [hr, Ne.symm hk]

variable (now : Nat) (h)

theorem local_put (p : P) (ttl : Nat) : Local h (Memory.put now h p ttl) where
  alone m := by
    unfold Memory.put
    rw [find?_only]
    split
    · rfl
    · rw [only_store rfl]
      rfl
  aside {k} m hk := by
    unfold Memory.put
    split
    · rfl
    · exact only_store_of_ne hk m

theorem local_get : Local h (Memory.get (P := P) now h) where
  alone m := by
    unfold Memory.get
    rw [find?_only]
    split
    · rfl
    · split
      · rw [only_remove]
        rfl
      · rfl
  aside {k} m hk := by
    unfold Memory.get
    split
    · rfl
    · split
      · exact only_remove_of_ne hk m
      · rfl

theorem handle_of_get {e : Entry P} {m' : Memory P} (hg : m.get now h = (.ok e, m')) :
    e.handle = h := by
  unfold Memory.get at hg
  split at hg
  · cases hg
  · next hf =>
    split at hg
    · cases hg
    · cases hg
      simpa using List.find?_some hf

theorem local_take [DecidableEq S] [Stage S] [Staged P S] (expected next : S) :
    Local h (Memory.take (P := P) now h expected next) where
  alone m := by
    unfold Memory.take
    rw [(local_get h now).alone m]
    cases hg : m.get now h with
    | mk r m' =>
      cases r with
      | error e => rfl
      | ok e =>
        dsimp only [Prod.map_apply, id_eq]
        split
        · rfl
        · split
          · exact congrArg (Prod.mk _) (only_remove h m')
          · have he : e.handle = h := handle_of_get h now hg
            exact congrArg (Prod.mk _) (only_store (e := { e with
              payload := Staged.advance next now e.payload }) he m')
  aside {k} m hk := by
    have ha := (local_get h now).aside m hk
    unfold Memory.take
    cases hg : m.get now h with
    | mk r m' =>
      rw [hg] at ha
      cases r with
      | error e => exact ha
      | ok e =>
        dsimp only
        split
        · exact ha
        · split
          · exact (only_remove_of_ne hk m').trans ha
          · refine (only_store_of_ne ?_ m').trans ha
            exact (handle_of_get h now hg).symm ▸ hk

theorem local_delete : Local h (Memory.delete (P := P) h) where
  alone m := by
    unfold Memory.delete
    rw [find?_only, only_remove]
    rfl
  aside m hk := only_remove_of_ne hk m

theorem only_sweep (m : Memory P) : ((m.only h).sweep now).2 = (m.sweep now).2.only h := by
  unfold Memory.sweep only
  simp only [List.filter_filter, Bool.and_comm]

end Memory

namespace Storage

def only (h : Handle) : Storage → Storage
  | memory ms => memory ⟨ms.qr.only h, .empty, .empty⟩
  | table t => table (t.only (Table.Row.isAt .qrSession h))

structure Local (h : Handle) (f : Storage → α × Storage) : Prop where
  alone (σ : Storage) : f (σ.only h) = Prod.map id (only h) (f σ)
  aside {k : Handle} (σ : Storage) : k ≠ h → (f σ).2.only k = σ.only k

theorem local_run {f : Memory Qr.Session → α × Memory Qr.Session} {g : Table → α × Table}
    (hf : Memory.Local h f) (hg : Table.Local (Table.Row.isAt .qrSession h) g) :
    Local h (run (P := Qr.Session) f g) where
  alone σ := by
    cases σ with
    | memory ms =>
      have ha : f (Shelved.get (⟨ms.qr.only h, .empty, .empty⟩ : Memories)) =
          Prod.map id (Memory.only h) (f (Shelved.get ms)) := hf.alone ms.qr
      rw [only, run, ha, run]
      rfl
    | table t =>
      rw [only, run, hg.alone t fun _ hr => hr, run]
      rfl
  aside {k} σ hk := by
    cases σ with
    | memory ms =>
      have ha : (f (Shelved.get ms)).2.only k = ms.qr.only k := hf.aside ms.qr hk
      exact congrArg (fun m => memory ⟨m, .empty, .empty⟩) ha
    | table t =>
      refine congrArg table (hg.aside t fun r hr => ?_)
      rw [Bool.eq_false_iff, Ne, Table.isAt_iff]
      rintro ⟨-, hr'⟩
      rw [(Table.isAt_iff.1 hr).2] at hr'
      exact hk (congrArg Handle.mk hr').symm

variable (now : Nat) (h)

theorem local_put (p : Qr.Session) (ttl : Nat) : Local h (Storage.put now h p ttl) :=
  local_run (Memory.local_put h now p ttl) (Table.local_put .willing now h p ttl)

theorem local_get : Local h (Storage.get (P := Qr.Session) now h) :=
  local_run (Memory.local_get h now) (Table.local_get (P := Qr.Session) .willing now h)

theorem local_take (expected next : Qr.Status) :
    Local h (Storage.take (P := Qr.Session) now h expected next) :=
  local_run (Memory.local_take h now expected next)
    (Table.local_take (P := Qr.Session) .willing now h expected next)

theorem local_delete : Local h (Storage.delete Qr.Session h) :=
  local_run (Memory.local_delete h) (Table.local_delete .willing h)

theorem only_sweep (σ : Storage) :
    (σ.sweep Qr.Session now).2.only h = ((σ.only h).sweep Qr.Session now).2 := by
  cases σ with
  | memory ms =>
    exact congrArg (fun m => memory ⟨m, .empty, .empty⟩) (Memory.only_sweep h now ms.qr).symm
  | table t => exact congrArg table (Table.only_sweep .willing now _ t).symm

theorem only_sweep_of_apart {Q T : Type} [Stage T] [Staged Q T] [Shelved Q] [Apart Q Qr.Session]
    (σ : Storage) : (σ.sweep Q now).2.only h = σ.only h := by
  cases σ with
  | memory ms =>
    have hs (m : Memory Q) : (Shelved.set m ms).qr = ms.qr := Apart.get_set (Q := Qr.Session) m ms
    exact congrArg (fun m => memory ⟨Memory.only h m, .empty, .empty⟩) (hs _)
  | table t =>
    refine congrArg table ((Table.local_sweep .willing now).aside t fun r hr => ?_)
    have hk : Kind.qrSession ≠ Staged.kind Q := Apart.kind_ne (P := Q) (Q := Qr.Session)
    rw [Bool.eq_false_iff, Ne, Table.isAt_iff, of_decide_eq_true hr]
    exact fun hr' => hk hr'.1.symm

end Storage

end Handoff
