import Handoff.Proofs.OAuth.Lives
import Handoff.Proofs.Rendezvous.Script

namespace Handoff

open View

namespace Storage

variable {P S : Type} [Stage S] [Staged P S] [Shelved P] [Staged.Lawful P] {σ : Storage}
  (hσ : σ.Sound P) (ho : σ.IsOpen) (now : Nat) (h : Handle)
include hσ ho

theorem Sound.get_ne_refusal : (σ.get (P := P) now h).1 ≠ .error Table.refusal := by
  cases σ with
  | memory ms =>
    change (Memory.get now h _).1 ≠ _
    rw [Memory.get_eq]
    split <;> simp [Table.refusal]
  | table t =>
    change (t.get .willing now h).1 ≠ _
    unfold Table.get
    obtain ⟨e, hl, he, -⟩ | ⟨t', o, hl, -⟩ := Table.Sound.live_view now h hσ ho
    · have hh := (Table.Sound.of_view hσ he).2
      rw [hl]
      dsimp only
      rw [← hh.2, Table.decode_of hh.1]
      intro hr
      cases hr
    · rw [hl]
      simp [Table.refusal]

omit hσ [Staged.Lawful P] in
theorem put_ne_refusal (p : P) (ttl : Nat) :
    (σ.put now h p ttl).1 ≠ .error Table.refusal := by
  cases σ with
  | memory ms =>
    change (Memory.put now h p ttl _).1 ≠ _
    unfold Memory.put
    split <;> simp [Table.refusal]
  | table t =>
    change (t.put .willing now h p ttl).1 ≠ _
    simp only [Table.put, Table.refuses_purge, Table.refuses_of_open ho]
    split <;> simp [Table.refusal]

omit hσ [Staged.Lawful P] in
theorem delete_ne_refusal : (σ.delete P h).1 ≠ .error Table.refusal := by
  cases σ with
  | memory ms => simp [Storage.delete, Storage.run, Memory.delete]
  | table t =>
    change (t.delete .willing (Staged.kind P) h).1 ≠ _
    rw [Table.delete, Table.refuses_of_open ho]
    simp

theorem Sound.take_ne_refusal [DecidableEq S] (hn : now ≤ Text.maxWord) (expected next : S) :
    (σ.take (P := P) now h expected next).1 ≠ .error Table.refusal := by
  cases σ with
  | memory ms =>
    change (Memory.take now h expected next _).1 ≠ _
    rw [Memory.take_eq]
    split
    · split <;> simp [Table.refusal]
    · simp [Table.refusal]
  | table t =>
    change (t.take .willing now h expected next).1 ≠ _
    obtain ⟨e, hl, he, hx⟩ | ⟨t', o, hl, -⟩ := Table.Sound.live_view now h hσ ho
    · have ht := (Table.Sound.take_live now h hσ ho hn he hx expected next).2
      split at ht
      · rw [ht.1]
        intro hr
        cases hr
      · rw [ht]
        simp [Table.refusal]
    · unfold Table.take
      dsimp only
      rw [hl]
      simp [Table.refusal]

end Storage

namespace Service

/-- The stores are as the service left them, and no failure is set for them. -/
structure Working (s : Service) : Prop extends Sound s where
  isOpen : s.storage.IsOpen
  failure (kind : Kind) (op : StoreOp) : s.failure kind op = none

variable {s : Service} {h : Handle} (hs : s.Working)
include hs

theorem Working.exists_put {P S : Type} [Stage S] [Staged P S] [Shelved P] [Staged.Lawful P]
    [Shelved.Lawful P] (hσ : s.storage.Sound P) {p : P} (hp : Staged.Lawful.Fits p)
    (hv : s.storage.view P h = none) (ttl : Nat) :
    ∃ s', s.put h p ttl = (.ok ⟨h, s.now, ttl, p⟩, s') ∧ s'.storage.view P =
      Function.update (s.storage.view P) h (some (s.storage.kept ⟨h, s.now, ttl, p⟩)) := by
  have hn := Storage.put_ne_refusal hs.isOpen s.now h p ttl
  have hr := (hσ.put s.now h hp ttl).2
  rw [Service.put, hs.failure]
  suffices h : (s.storage.put s.now h p ttl).1 = .ok ⟨h, s.now, ttl, p⟩ ∧
      (s.storage.put s.now h p ttl).2.view P =
        Function.update (s.storage.view P) h (some (s.storage.kept ⟨h, s.now, ttl, p⟩)) from
    ⟨_, congrArg (·, _) h.1, h.2⟩
  generalize (s.storage.put s.now h p ttl).1 = r at hn hr ⊢
  generalize (s.storage.put s.now h p ttl).2.view P = v at hr ⊢
  cases hr with
  | stored => exact ⟨rfl, rfl⟩
  | duplicate hd =>
    rw [hv] at hd
    cases hd
  | refused => exact absurd rfl hn

theorem Working.get_of_live {e : Entry Qr.Session} (he : s.view h = some e)
    (hx : e.isExpired s.now = false) : (s.get (P := Qr.Session) h).1 = .ok e := by
  have hg := (hs.storage.get s.now h).2
  have hr := hs.storage.get_ne_refusal hs.isOpen s.now h
  rw [Service.get, hs.failure]
  change (s.storage.get (P := Qr.Session) s.now h).1 = _
  generalize (s.storage.get (P := Qr.Session) s.now h).1 = r at hg hr
  generalize (s.storage.get (P := Qr.Session) s.now h).2.view Qr.Session = v at hg
  cases hg with
  | found he' =>
    cases he.symm.trans he'
    rfl
  | absent hv => cases (hv e he).symm.trans hx
  | refused => exact absurd rfl hr

theorem Working.get_of_vacant (hv : Vacant s.now (s.view h)) :
    (s.get (P := Qr.Session) h).1 = .error .notFound := by
  have hg := (hs.storage.get s.now h).2
  have hr := hs.storage.get_ne_refusal hs.isOpen s.now h
  rw [Service.get, hs.failure]
  change (s.storage.get (P := Qr.Session) s.now h).1 = _
  generalize (s.storage.get (P := Qr.Session) s.now h).1 = r at hg hr
  generalize (s.storage.get (P := Qr.Session) s.now h).2.view Qr.Session = v at hg
  cases hg with
  | found he hx => cases (hv _ he).symm.trans hx
  | absent => rfl
  | refused => exact absurd rfl hr

theorem Working.exists_take (h : Handle) (expected next : Qr.Status) :
    ∃ v, Take s.now h expected next s.view (s.take (P := Qr.Session) h expected next).1 v ∧
      (s.take (P := Qr.Session) h expected next).1 ≠ .error Table.refusal := by
  have ht := (hs.storage.take hs.now_le h expected next).2
  have hr := hs.storage.take_ne_refusal hs.isOpen s.now h hs.now_le expected next
  rw [Service.take, hs.failure]
  exact ⟨_, ht, hr⟩

theorem Working.take_error {expected next : Qr.Status} {e : StoreError}
    (he : (s.take (P := Qr.Session) h expected next).1 = .error e) :
    e = .notFound ∨ ∃ current, e = .conflict current := by
  obtain ⟨v, ht, hr⟩ := hs.exists_take h expected next
  rw [he] at ht hr
  cases ht with
  | conflict => exact .inr ⟨_, rfl⟩
  | absent => exact .inl rfl
  | refused => exact absurd rfl hr

theorem Working.take_of_vacant (hv : Vacant s.now (s.view h)) (expected next : Qr.Status) :
    (s.take (P := Qr.Session) h expected next).1 = .error .notFound := by
  obtain ⟨v, ht, hr⟩ := hs.exists_take h expected next
  generalize (s.take (P := Qr.Session) h expected next).1 = r at ht hr
  cases ht with
  | taken he hx | conflict he hx => cases (hv _ he).symm.trans hx
  | absent => rfl
  | refused => exact absurd rfl hr

theorem Working.exists_delete (h : Handle) :
    ∃ s', s.delete Qr.Session h = (.ok (s.view h).isSome, s') ∧
      s'.view = Function.update s.view h none ∧ s'.hub = s.hub := by
  cases hd : s.delete Qr.Session h with
  | mk r s' =>
    have hhub : s'.hub = s.hub := by
      have hw := (within_delete h s).2
      rwa [hd] at hw
    cases r with
    | ok b =>
      obtain ⟨rfl, hv⟩ := delete_ok hs.storage hd
      exact ⟨s', rfl, hv, hhub⟩
    | error e =>
      have hn := Storage.delete_ne_refusal (P := Qr.Session) hs.isOpen h
      have hr := (hs.storage.delete h).2
      generalize (s.storage.delete Qr.Session h).2.view Qr.Session = v at hr
      rw [Service.delete, hs.failure] at hd
      rw [(Prod.ext_iff.1 hd).1] at hn hr
      cases hr
      exact absurd rfl hn

theorem Working.status_of_live {token : String} {e : Entry Qr.Session}
    (hh : Qr.resolve token s = .ok h) (he : s.view h = some e) (hx : e.isExpired s.now = false) :
    (Qr.status token s).1 = .ok ⟨e.payload.status, e.expireAt, e.payload.scannedAt⟩ := by
  have hg := hs.get_of_live he hx
  rw [Qr.status, hh]
  dsimp only
  generalize s.get (P := Qr.Session) h = x at hg
  obtain ⟨r, s'⟩ := x
  cases hg
  rfl

theorem Working.exists_issue {key : Gcm.Key} (hk : s.setup.qrKey = some key)
    (hv : s.view h = none) (ip agent : String) (nonce : List UInt8) :
    ∃ e i s', Qr.issue ip agent h nonce s = (.ok i, s') ∧ s'.view h = some (s.storage.kept e) ∧
      e.expireAt = Text.addTime s.now s.setup.qrTtl ∧ i.expireAt = e.expireAt := by
  obtain ⟨s', hp, hv⟩ := hs.exists_put hs.storage
    (Qr.Session.fits_pending ip (Text.clip Qr.maxAgent (Text.trim agent))) hv s.setup.qrTtl
  rw [Qr.issue, hk]
  dsimp only
  rw [hp]
  exact ⟨_, _, s', rfl, (congrFun hv h).trans (Function.update_self ..), rfl, rfl⟩

end Service

theorem World.Reached.working {setup : Setup} {w : World} (hw : w.Reached setup)
    (hf : ∀ kind op, w.service.faults.store kind op = none) : w.service.Working where
  toSound := hw.sound.service
  isOpen := hw.isOpen
  failure kind op := by rw [Service.failure, hf]

end Handoff
