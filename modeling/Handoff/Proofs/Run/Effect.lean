import Handoff.Proofs.OAuth.Steps
import Handoff.Proofs.Qr.Acting
import Handoff.Proofs.Qr.Waiting
import Handoff.Proofs.Rendezvous.Payload
import Handoff.Proofs.Run.World

namespace Handoff

open View

theorem Storage.isEmpty_fresh {P S : Type} [Stage S] [Staged P S] [Shelved P] [Staged.Lawful P]
    [Shelved.Lawful P] (backend : Backend) : (Storage.fresh backend).IsEmpty (P := P) := by
  cases backend with
  | memory => exact Storage.isEmpty_inMemory
  | sqlite => exact Storage.isEmpty_inTable

namespace Service

def view (s : Service) : View Qr.Session := s.storage.view Qr.Session

structure Sound (s : Service) : Prop where
  now_le : s.now ≤ Text.maxWord
  storage : s.storage.Sound Qr.Session

structure Keeps (s s' : Service) : Prop where
  setup : s'.setup = s.setup
  now : s'.now = s.now
  faults : s'.faults = s.faults
  storage : s.Sound → s'.storage.Sound Qr.Session

structure Beside (s s' : Service) : Prop extends Keeps s s' where
  hub : s'.hub = s.hub
  view : s'.view = s.view

theorem Keeps.sound {s s' : Service} (h : Keeps s s') (hs : s.Sound) : s'.Sound := by
  refine ⟨?_, h.storage hs⟩
  rw [h.now]
  exact hs.now_le

variable {s s' : Service}

theorem Keeps.refl (s : Service) : Keeps s s := ⟨rfl, rfl, rfl, Sound.storage⟩

theorem Keeps.trans {s s' s'' : Service} (h : Keeps s s') (h' : Keeps s' s'') : Keeps s s'' where
  setup := h'.setup.trans h.setup
  now := h'.now.trans h.now
  faults := h'.faults.trans h.faults
  storage hs := h'.storage (h.sound hs)

theorem Keeps.hub (s : Service) (hub : Hub) : Keeps s { s with hub } :=
  ⟨rfl, rfl, rfl, Sound.storage⟩

theorem Beside.refl (s : Service) : Beside s s := ⟨.refl s, rfl, rfl⟩

structure Access (P : Type) {S : Type} [Stage S] [Staged P S] [Shelved P] (s s' : Service) :
    Prop where
  rest : s' = { s with storage := s'.storage }
  aside : s.storage.Aside P s'.storage

section Access

variable {P S : Type} [Stage S] [Staged P S] [Shelved P]

theorem Access.refl (s : Service) : Access P s s := ⟨rfl, .refl _⟩

variable {h : Handle} {r : Except StoreError (Entry P)}

theorem access_put {p : P} {ttl : Nat} (hr : s.put h p ttl = (r, s')) : Access P s s' := by
  unfold Service.put at hr
  split at hr
  · cases hr
    exact .refl s
  · cases hr
    exact ⟨rfl, Storage.aside_put s.now h s.storage p ttl⟩

theorem access_get (hr : s.get h = (r, s')) : Access P s s' := by
  unfold Service.get at hr
  split at hr
  · cases hr
    exact .refl s
  · cases hr
    exact ⟨rfl, Storage.aside_get s.now h s.storage⟩

theorem access_take [DecidableEq S] {expected next : S} (hr : s.take h expected next = (r, s')) :
    Access P s s' := by
  unfold Service.take at hr
  split at hr
  · cases hr
    exact .refl s
  · cases hr
    exact ⟨rfl, Storage.aside_take s.now h s.storage expected next⟩

theorem access_delete {r : Except StoreError Bool} (hr : s.delete P h = (r, s')) :
    Access P s s' := by
  unfold Service.delete at hr
  split at hr
  · cases hr
    exact .refl s
  · cases hr
    exact ⟨rfl, Storage.aside_delete h s.storage⟩

variable (P) in
theorem access_sweep (s : Service) : Access P s (s.sweepStore P).2 := by
  unfold Service.sweepStore
  split
  · exact .refl s
  · exact ⟨rfl, Storage.aside_sweep s.now s.storage⟩

theorem Access.beside [Apart P Qr.Session] (ha : Access P s s') : Beside s s' := by
  obtain ⟨hr, ha⟩ := ha
  generalize s'.storage = σ at hr ha
  subst hr
  exact ⟨⟨rfl, rfl, rfl, fun hs => ha.sound Qr.Session hs.storage⟩, rfl, ha.view Qr.Session⟩

theorem Access.users (ha : Access P s s') : s'.users = s.users := by
  rw [ha.rest]

end Access

theorem beside_linkUser {id : Int64} {i : Identity} {r : Except UserError Unit}
    (hr : s.linkUser id i = (r, s')) : Beside s s' := by
  unfold Service.linkUser at hr
  split at hr
  · cases hr
    exact .refl s
  · cases hr
    exact ⟨⟨rfl, rfl, rfl, Sound.storage⟩, rfl, rfl⟩

theorem failure_of_take {P S : Type} [DecidableEq S] [Stage S] [Staged P S] [Shelved P] {h : Handle}
    {expected next : S} {e : Entry P} (hr : s.take h expected next = (.ok e, s')) :
    s.failure (Staged.kind P) .take = none := by
  unfold Service.take at hr
  split at hr
  · cases hr
  · assumption

section Stores

/-! What the stores answer, and what they hold then. -/

variable {P S : Type} [Stage S] [Staged P S] [Shelved P] [Staged.Lawful P] [Shelved.Lawful P]
  {h : Handle} {e : Entry P} {err : StoreError} (hs : s.storage.Sound P)
include hs

theorem put_ok {p : P} {ttl : Nat} (hp : Staged.Lawful.Fits p)
    (hr : s.put h p ttl = (.ok e, s')) :
    e = ⟨h, s.now, ttl, p⟩ ∧ Vacant s.now (s.storage.view P h) ∧
      s'.storage.view P = Function.update (s.storage.view P) h (some (s.storage.kept e)) := by
  unfold Service.put at hr
  split at hr
  · cases hr
  · have hp := (hs.put s.now h hp ttl).2
    generalize s.storage.put s.now h p ttl = x at hr hp
    obtain ⟨r, storage⟩ := x
    cases hr
    obtain ⟨rfl, hv, hu⟩ := hp.of_ok
    exact ⟨rfl, hv, hu⟩

theorem put_error {p : P} {ttl : Nat} (hp : Staged.Lawful.Fits p)
    (hr : s.put h p ttl = (.error err, s')) : s'.storage.view P = s.storage.view P := by
  unfold Service.put at hr
  split at hr
  · cases hr
    rfl
  · have hp := (hs.put s.now h hp ttl).2
    generalize s.storage.put s.now h p ttl = x at hr hp
    obtain ⟨r, storage⟩ := x
    cases hr
    exact hp.of_error

theorem get_ok (hr : s.get h = (.ok e, s')) :
    s.storage.view P h = some e ∧ e.isExpired s.now = false ∧
      s'.storage.view P = s.storage.view P := by
  unfold Service.get at hr
  split at hr
  · cases hr
  · have hg := (hs.get s.now h).2
    generalize s.storage.get (P := P) s.now h = x at hr hg
    obtain ⟨r, storage⟩ := x
    cases hr
    exact hg.of_ok

theorem get_error (hr : s.get (P := P) h = (.error err, s')) :
    Swept s.now (s.storage.view P) (s'.storage.view P) := by
  unfold Service.get at hr
  split at hr
  · cases hr
    exact .refl _ _
  · have hg := (hs.get s.now h).2
    generalize s.storage.get (P := P) s.now h = x at hr hg
    obtain ⟨r, storage⟩ := x
    cases hr
    exact hg.of_error

theorem delete_ok {b : Bool} (hr : s.delete P h = (.ok b, s')) :
    b = (s.storage.view P h).isSome ∧
      s'.storage.view P = Function.update (s.storage.view P) h none := by
  unfold Service.delete at hr
  split at hr
  · cases hr
  · have hd := (hs.delete h).2
    generalize s.storage.delete P h = x at hr hd
    obtain ⟨r, storage⟩ := x
    cases hr
    exact hd.of_ok

theorem delete_error (hr : s.delete P h = (.error err, s')) :
    s'.storage.view P = s.storage.view P := by
  unfold Service.delete at hr
  split at hr
  · cases hr
    rfl
  · have hd := (hs.delete h).2
    generalize s.storage.delete P h = x at hr hd
    obtain ⟨r, storage⟩ := x
    cases hr
    exact hd.of_error

theorem swept : Swept s.now (s.storage.view P) ((s.sweepStore P).2.storage.view P) := by
  unfold Service.sweepStore
  split
  · exact .refl _ _
  · exact (hs.sweep s.now).2

theorem sound_put {p : P} {ttl : Nat} {r : Except StoreError (Entry P)}
    (hp : Staged.Lawful.Fits p) (hr : s.put h p ttl = (r, s')) : s'.storage.Sound P := by
  unfold Service.put at hr
  split at hr
  · cases hr
    exact hs
  · cases hr
    exact (hs.put s.now h hp ttl).1

theorem sound_get {r : Except StoreError (Entry P)} (hr : s.get h = (r, s')) :
    s'.storage.Sound P := by
  unfold Service.get at hr
  split at hr
  · cases hr
    exact hs
  · cases hr
    exact (hs.get s.now h).1

theorem sound_delete {r : Except StoreError Bool} (hr : s.delete P h = (r, s')) :
    s'.storage.Sound P := by
  unfold Service.delete at hr
  split at hr
  · cases hr
    exact hs
  · cases hr
    exact (hs.delete h).1

theorem sound_sweep : (s.sweepStore P).2.storage.Sound P := by
  unfold Service.sweepStore
  split
  · exact hs
  · exact (hs.sweep s.now).1

section Take

variable [DecidableEq S] (hn : s.now ≤ Text.maxWord) {expected next : S}
include hn

theorem take_ok (hr : s.take h expected next = (.ok e, s')) :
    s.storage.view P h = some e ∧ e.isExpired s.now = false ∧
      Staged.stage e.payload = expected ∧
      s'.storage.view P = Function.update (s.storage.view P) h (moved s.now next e) := by
  unfold Service.take at hr
  split at hr
  · cases hr
  · have ht := (hs.take hn h expected next).2
    generalize s.storage.take (P := P) s.now h expected next = x at hr ht
    obtain ⟨r, storage⟩ := x
    cases hr
    exact ht.of_ok

omit [Shelved.Lawful P] in
theorem take_live (ho : s.storage.IsOpen) (hf : s.failure (Staged.kind P) .take = none)
    (he : s.storage.view P h = some e) (hx : e.isExpired s.now = false) :
    ∃ s', s.take h (Staged.stage e.payload) next = (.ok e, s') := by
  have ht := hs.take_live ho hn he hx next
  rw [Service.take, hf]
  exact ⟨_, congrArg (·, _) ht⟩

theorem take_error (hr : s.take (P := P) h expected next = (.error err, s')) :
    Swept s.now (s.storage.view P) (s'.storage.view P) := by
  unfold Service.take at hr
  split at hr
  · cases hr
    exact .refl _ _
  · have ht := (hs.take hn h expected next).2
    generalize s.storage.take (P := P) s.now h expected next = x at hr ht
    obtain ⟨r, storage⟩ := x
    cases hr
    exact ht.of_error

theorem sound_take {r : Except StoreError (Entry P)} (hr : s.take h expected next = (r, s')) :
    s'.storage.Sound P := by
  unfold Service.take at hr
  split at hr
  · cases hr
    exact hs
  · cases hr
    exact (hs.take hn h expected next).1

end Take

end Stores

section Own

/-! The store of the sign-ins by QR code. -/

structure Within (s s' : Service) : Prop extends Keeps s s' where
  users : s'.users = s.users
  aside : s.storage.Aside Qr.Session s'.storage

theorem Within.refl (s : Service) : Within s s := ⟨.refl s, rfl, .refl _⟩

theorem Within.trans {s s' s'' : Service} (h : Within s s') (h' : Within s' s'') :
    Within s s'' :=
  ⟨h.toKeeps.trans h'.toKeeps, h'.users.trans h.users, h.aside.trans h'.aside⟩

theorem Within.hub (s : Service) (hub : Hub) : Within s { s with hub } :=
  ⟨.hub s hub, rfl, .refl _⟩

theorem Access.within (ha : Access Qr.Session s s')
    (hs : s.Sound → s'.storage.Sound Qr.Session) : Within s s' ∧ s'.hub = s.hub := by
  obtain ⟨hr, ha⟩ := ha
  generalize s'.storage = σ at hr ha hs
  subst hr
  exact ⟨⟨⟨rfl, rfl, rfl, hs⟩, rfl, ha⟩, rfl⟩

theorem within_put (h : Handle) {p : Qr.Session} (hp : p.Fits) (ttl : Nat) (s : Service) :
    Within s (s.put h p ttl).2 ∧ (s.put h p ttl).2.hub = s.hub :=
  (access_put rfl).within fun hs => sound_put hs.storage hp rfl

theorem within_get (h : Handle) (s : Service) :
    Within s (s.get (P := Qr.Session) h).2 ∧ (s.get (P := Qr.Session) h).2.hub = s.hub :=
  (access_get rfl).within fun hs => sound_get hs.storage rfl

theorem within_take (h : Handle) (expected next : Qr.Status) (s : Service) :
    Within s (s.take (P := Qr.Session) h expected next).2 ∧
      (s.take (P := Qr.Session) h expected next).2.hub = s.hub :=
  (access_take rfl).within fun hs => sound_take hs.storage hs.now_le rfl

theorem within_delete (h : Handle) (s : Service) :
    Within s (s.delete Qr.Session h).2 ∧ (s.delete Qr.Session h).2.hub = s.hub :=
  (access_delete rfl).within fun hs => sound_delete hs.storage rfl

theorem within_sweep (s : Service) :
    Within s (s.sweepStore Qr.Session).2 ∧ (s.sweepStore Qr.Session).2.hub = s.hub :=
  (access_sweep Qr.Session s).within fun hs => sound_sweep hs.storage

end Own

end Service

namespace OAuth

open Service

theorem Begin.access (c : Begin) (s : Service) : Access State s (c.step s).2 := by
  have hs := c.stepped s
  generalize c.step s = x at hs
  cases hs with
  | failed | login | link => exact .refl s
  | stored hr => exact access_put hr
  | unstored hr => exact access_put hr

theorem Peek.access (c : Peek) (s : Service) : Access PendingLink s (c.step s).2 := by
  have hs := c.stepped s
  generalize c.step s = x at hs
  cases hs with
  | failed | shown => exact .refl s
  | missed _ hr => exact access_get hr
  | seen _ hr => exact access_get hr

theorem Callback.step_beside (c : Callback) (s : Service) : Beside s (c.step s).2 := by
  have hs := c.stepped s
  generalize c.step s = x at hs
  cases hs with
  | taken _ hr => exact (access_take hr).beside
  | untaken _ hr => exact (access_take hr).beside
  | stored hr => exact (access_put hr).beside
  | unstored hr => exact (access_put hr).beside
  | linked hl => exact beside_linkUser hl
  | rejected | unconfigured | failed | linking | searching | found | unknown | stalled | minted
  | matched => exact .refl s

theorem ConfirmLink.step_beside (c : ConfirmLink) (s : Service) : Beside s (c.step s).2 := by
  have hs := c.stepped s
  generalize c.step s = x at hs
  cases hs with
  | taken _ hr => exact (access_take hr).beside
  | untaken _ hr => exact (access_take hr).beside
  | linked hl => exact beside_linkUser hl
  | failed | stalled | minted => exact .refl s

end OAuth

namespace Qr

open Service

variable (s : Service)

theorem issue_within (ip agent : String) (h : Handle) (nonce : List UInt8) :
    Within s (issue ip agent h nonce s).2 := by
  unfold issue
  split
  · exact .refl s
  · have hp := within_put h (Session.fits_pending ip (Text.clip maxAgent (Text.trim agent)))
      s.setup.qrTtl s
    dsimp only
    split
    · next hr => rw [hr] at hp; exact hp.1
    · next hr => rw [hr] at hp; exact hp.1

theorem status_within (token : String) : Within s (status token s).2 := by
  unfold status
  split
  · exact .refl s
  · next h _ =>
    have hg := (within_get h s).1
    split
    · next hr => rwa [hr] at hg
    · next hr => rwa [hr] at hg

theorem Scan.within (c : Scan) : Within s (c.step s).2 := by
  have hc := c.stepped s
  generalize c.step s = x at hc
  cases hc with
  | unresolved => exact .refl s
  | @untaken token h e s' hr ht | @taken token h e s' hr ht =>
    have hw := (within_take h .pending .scanned s).1
    rwa [ht] at hw
  | published => exact .hub s _

theorem Confirm.within (c : Confirm) : Within s (c.step s).2 := by
  have hc := c.stepped s
  generalize c.step s = x at hc
  cases hc with
  | rejected | signedIn | unresolved | stalled | unminted | minted => exact .refl s
  | @untaken uid token random h e s' hr ht | @taken uid token random h e s' hr ht =>
    have hw := (within_take h .scanned .confirmed s).1
    rwa [ht] at hw
  | published => exact .hub s _

theorem Cancel.within (c : Cancel) : Within s (c.step s).2 := by
  have hc := c.stepped s
  generalize c.step s = x at hc
  cases hc with
  | unresolved => exact .refl s
  | @deleted token h s' hr hd | @gone token h s' hr hd | @failed token h e s' hr hd =>
    have hw := (within_delete h s).1
    rwa [hd] at hw
  | published => exact .hub s _

variable {s}

theorem Watch.within (w : Watch) : Within s (w.step s).2 := by
  have hw := w.stepped s
  generalize w.step s = x at hw
  have hg {h : Handle} {r : Except StoreError (Entry Session)} {s' : Service}
      (hr : s.get h = (r, s')) : Within s s' := by
    have hk := (within_get h s).1
    rwa [hr] at hk
  cases hw with
  | unresolved | busy => exact .refl s
  | reserved | attached | caught | lost => exact .hub s _
  | read hr => exact hg hr
  | missed hr => exact hg hr
  | failed hr => exact (hg hr).trans (.hub _ _)

theorem Watch.within_of {w : Watch} {r : Step Watch (Except Error Watching)} {s' : Service}
    (hw : w.step s = (r, s')) : Within s s' := by
  have hk := w.within (s := s)
  rwa [hw] at hk

theorem advanceChange_within {id : Nat} {known : Status} {c : Change} {s' : Service}
    (hc : advanceChange id known s = (c, s')) : Within s s' := by
  cases hc
  exact .hub s _

theorem Wait.within (elapsed : Nat) (c : Wait) : Within s (c.step elapsed s).2 := by
  have hs := c.stepped elapsed s
  generalize c.step elapsed s = x at hs
  cases hs with
  | watching hw => exact Watch.within_of hw
  | failed hw => exact Watch.within_of hw
  | settled hw => exact Watch.within_of hw
  | answered hw => exact (Watch.within_of hw).trans (.hub _ _)
  | waiting hc => exact advanceChange_within hc
  | changed hc => exact (advanceChange_within hc).trans (.hub _ _)
  | ended hc => exact (advanceChange_within hc).trans (.hub _ _)
  | late hc => exact (advanceChange_within hc).trans (.hub _ _)

theorem Follow.within (c : Follow) : Within s (c.step s).2 := by
  have hs := c.stepped s
  generalize c.step s = x at hs
  cases hs with
  | watching hw => exact Watch.within_of hw
  | failed hw => exact Watch.within_of hw
  | settled hw => exact Watch.within_of hw
  | answered hw => exact (Watch.within_of hw).trans (.hub _ _)
  | changed hc => exact advanceChange_within hc
  | waiting hc => exact advanceChange_within hc
  | ended hc => exact (advanceChange_within hc).trans (.hub _ _)

end Qr

@[simp] theorem Step.lift_service {C C' A A' : Type} (f : C → C') (g : A → A')
    (x : Step C A × Service) : (Step.lift f g x).2 = x.2 := by
  obtain ⟨r, s⟩ := x
  cases r <;> rfl

theorem Step.rest_lift {C C' A A' : Type} (f : C → C') (g : A → A') (c : C)
    (x : Step C A × Service) : (Step.lift f g x).1.rest (f c) = (x.1.rest c).map f := by
  obtain ⟨r, s⟩ := x
  cases r <;> rfl

theorem Step.lift_more {C C' A A' : Type} {f : C → C'} {g : A → A'} {x : Step C A × Service}
    {c' : C'} {s : Service} (h : Step.lift f g x = (.more c', s)) :
    ∃ c, x = (.more c, s) ∧ f c = c' := by
  obtain ⟨r, s'⟩ := x
  cases r with
  | more c =>
    cases h
    exact ⟨c, rfl, rfl⟩
  | done | blocked => cases h

theorem Step.lift_done {C C' A A' : Type} {f : C → C'} {g : A → A'} {x : Step C A × Service}
    {b : A'} (h : (Step.lift f g x).1 = .done b) : ∃ a, x.1 = .done a ∧ b = g a := by
  obtain ⟨r, s⟩ := x
  cases r with
  | done a =>
    cases h
    exact ⟨a, rfl, rfl⟩
  | more | blocked => cases h

theorem Step.lift_eq_more {C C' A A' : Type} (f : C → C') (g : A → A') {x : Step C A × Service}
    {c : C} (h : x.1 = .more c) : (Step.lift f g x).1 = .more (f c) := by
  obtain ⟨r, s⟩ := x
  cases h
  rfl

theorem Service.Keeps.lift {C C' A A' : Type} {f : C → C'} {g : A → A'} {s : Service}
    {x : Step C A × Service} (hk : s.Keeps x.2) : s.Keeps (Step.lift f g x).2 := by
  rw [Step.lift_service]
  exact hk

theorem Service.Within.lift {C C' A A' : Type} {f : C → C'} {g : A → A'} {s : Service}
    {x : Step C A × Service} (hk : s.Within x.2) : s.Within (Step.lift f g x).2 := by
  rw [Step.lift_service]
  exact hk

def Call.isQr : Call → Bool
  | oauthBegin _ => false
  | oauthCallback _ => false
  | peek _ => false
  | confirmLink _ => false
  | _ => true

theorem Call.within {c : Call} (hc : c.isQr = true) (elapsed : Nat) (s : Service) :
    s.Within (c.step elapsed s).2 := by
  cases c with
  | issue ip agent h nonce => exact Qr.issue_within s ip agent h nonce
  | status token => exact Qr.status_within s token
  | scan c => exact (c.within s).lift
  | confirm c => exact (c.within s).lift
  | cancel c => exact (c.within s).lift
  | wait c => exact (c.within elapsed).lift
  | follow c => exact c.within.lift
  | oauthBegin | oauthCallback | peek | confirmLink => cases hc

theorem Call.isQr_rest {c c' : Call} {elapsed : Nat} {s : Service}
    (h : (c.step elapsed s).1.rest c = some c') : c'.isQr = c.isQr := by
  cases c with
  | issue | status => cases h
  | scan c | confirm c | cancel c | wait c | follow c | oauthBegin c | oauthCallback c | peek c
  | confirmLink c =>
    rw [Call.step, Step.rest_lift, Option.map_eq_some_iff] at h
    obtain ⟨d, -, rfl⟩ := h
    rfl

/-- No step of a call changes the setup, the clock or the failures that are set. -/
theorem Call.keeps (elapsed : Nat) (c : Call) (s : Service) :
    s.Keeps (c.step elapsed s).2 := by
  cases c with
  | issue | status | scan | confirm | cancel | wait | follow => exact (within rfl elapsed s).toKeeps
  | oauthBegin c => exact (c.access s).beside.toKeeps.lift
  | oauthCallback c => exact (c.step_beside s).toKeeps.lift
  | peek c => exact (c.access s).beside.toKeeps.lift
  | confirmLink c => exact (c.step_beside s).toKeeps.lift

end Handoff
