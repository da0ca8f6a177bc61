import Handoff.Proofs.Hub.Seats
import Handoff.Proofs.Rendezvous.Separate
import Handoff.Proofs.Run.Alone
/-!
Sign-ins are served separately. Two services may look alike to those of one sign-in, that is, to its
calls and to those who were given its subscriptions. Then they answer alike whatever is done for
that sign-in, and look alike afterwards; and what is done for another one changes nothing in the
look.
-/

namespace Handoff

open Qr (Message)

namespace Service

structure Around (s s' : Service) : Prop where
  setup : s.setup = s'.setup
  now : s.now = s'.now
  users : s.users = s'.users
  faults : s.faults = s'.faults

/-- The services look alike to those of the sign-in under `h`, who were given the subscriptions
`ids` of the one and `ids'` of the other. -/
structure Alike (h : Handle) (ids ids' : List Nat) (s s' : Service) : Prop extends Around s s' where
  limit : s.hub.limit = s'.hub.limit
  storage : s.storage.only h = s'.storage.only h
  seats : ids.map s.hub.look = ids'.map s'.hub.look

variable {A R : Type} {h k : Handle} {ids ids' ids'' : List Nat} {s s' s'' : Service}

theorem Alike.refl (h : Handle) (ids : List Nat) (s : Service) : Alike h ids ids s s :=
  ⟨⟨rfl, rfl, rfl, rfl⟩, rfl, rfl, rfl⟩

theorem Alike.trans (ha : Alike h ids ids' s s') (ha' : Alike h ids' ids'' s' s'') :
    Alike h ids ids'' s s'' where
  setup := ha.setup.trans ha'.setup
  now := ha.now.trans ha'.now
  users := ha.users.trans ha'.users
  faults := ha.faults.trans ha'.faults
  limit := ha.limit.trans ha'.limit
  storage := ha.storage.trans ha'.storage
  seats := ha.seats.trans ha'.seats

theorem Around.failure (ha : Around s s') (kind : Kind) (op : StoreOp) :
    s.failure kind op = s'.failure kind op := by
  rw [Service.failure, Service.failure, ha.faults]

theorem Around.authenticate (ha : Around s s') (session : Option String) :
    s.authenticate session = s'.authenticate session := by
  unfold Service.authenticate Service.verify Service.findById Service.userFailure
  rw [ha.setup, ha.now, ha.faults, ha.users]

theorem Around.mint (ha : Around s s') (uid : Int64) (random : List UInt8) :
    s.mint uid random = s'.mint uid random := by
  unfold Service.mint
  rw [ha.setup, ha.now, ha.faults]

def attempt (op : StoreOp) (f : Nat → Storage → Except StoreError A × Storage) (s : Service) :
    Except StoreError A × Service :=
  match s.failure .qrSession op with
  | some e => (.error e, s)
  | none =>
    let (r, storage) := f s.now s.storage
    (r, { s with storage })

theorem attempt_fst (op : StoreOp) (f : Nat → Storage → Except StoreError A × Storage)
    (s : Service) : (s.attempt op f).1 = (match s.failure .qrSession op with
      | some e => .error e
      | none => (f s.now s.storage).1) := by
  unfold attempt
  split <;> rfl

theorem attempt_snd (op : StoreOp) (f : Nat → Storage → Except StoreError A × Storage)
    (s : Service) : (s.attempt op f).2 = { s with storage := match s.failure .qrSession op with
      | some _ => s.storage
      | none => (f s.now s.storage).2 } := by
  unfold attempt
  split <;> rfl

section Attempt

variable (op : StoreOp) {f : Nat → Storage → Except StoreError A × Storage}

theorem Alike.attempt (ha : Alike h ids ids' s s') (hf : ∀ now, Storage.Local h (f now)) :
    (s.attempt op f).1 = (s'.attempt op f).1 ∧
      Alike h ids ids' (s.attempt op f).2 (s'.attempt op f).2 := by
  have hx : Prod.map id (Storage.only h) (f s.now s.storage) =
      Prod.map id (Storage.only h) (f s'.now s'.storage) := by
    rw [← (hf s.now).alone, ← (hf s'.now).alone, ha.now, ha.storage]
  obtain ⟨h1, h2⟩ := Prod.ext_iff.1 hx
  have h1 : (f s.now s.storage).1 = (f s'.now s'.storage).1 := h1
  rw [attempt_fst, attempt_fst, attempt_snd, attempt_snd, ha.failure]
  refine ⟨by rw [h1], ⟨ha.setup, ha.now, ha.users, ha.faults⟩, ha.limit, ?_, ha.seats⟩
  split
  · exact ha.storage
  · exact h2

theorem alike_attempt (hf : ∀ now, Storage.Local k (f now)) (hk : k ≠ h) :
    Alike h ids ids (s.attempt op f).2 s := by
  rw [attempt_snd]
  refine ⟨⟨rfl, rfl, rfl, rfl⟩, rfl, ?_, rfl⟩
  dsimp only
  split
  · rfl
  · exact (hf s.now).aside s.storage (Ne.symm hk)

end Attempt

structure Goes (told : Handle → Message → Prop) (s s' : Service) : Prop where
  setup : s'.setup = s.setup
  hub : s.hub.Regular → Hub.Later told s.hub s'.hub

theorem Goes.of_hub {told : Handle → Message → Prop} (hs : s'.setup = s.setup)
    (hh : s'.hub = s.hub) : Goes told s s' :=
  ⟨hs, fun _ => hh ▸ .refl told s.hub⟩

theorem Goes.trans {told : Handle → Message → Prop} (hg : Goes told s s') (hg' : Goes told s' s'') :
    Goes told s s'' where
  setup := hg'.setup.trans hg.setup
  hub hr := (hg.hub hr).trans (hg'.hub ((hg.hub hr).regular hr))

/-- What is done for the sign-in under `h`, where the setup is `σ`: to those of the sign-in its
results look alike, and those of others do not notice. The messages that may be told are in `P`. -/
structure About (σ : Setup) (h : Handle) (P : Service → Message → Prop)
    (f : Service → A × Service) : Prop where
  alike {ids ids' : List Nat} {s s' : Service} : s.setup = σ → Alike h ids ids' s s' →
    s.hub.SeatsOf h ids → s'.hub.SeatsOf h ids' →
    (f s).1 = (f s').1 ∧ Alike h ids ids' (f s).2 (f s').2
  aside {k : Handle} {ids : List Nat} {s : Service} : s.setup = σ → s.hub.SeatsOf k ids → h ≠ k →
    Alike k ids ids (f s).2 s
  goes {s : Service} : s.setup = σ → Goes (fun k m => k = h ∧ P s m) s (f s).2

section About

variable {σ : Setup} {P : Service → Message → Prop} {f g : Service → A × Service}

theorem About.congr (hf : About σ h P f) (he : ∀ s, s.setup = σ → g s = f s) : About σ h P g where
  alike {ids ids' s s'} hs ha ho ho' := by
    rw [he s hs, he s' (ha.setup ▸ hs)]
    exact hf.alike hs ha ho ho'
  aside hs ho hk := by
    rw [he _ hs]
    exact hf.aside hs ho hk
  goes hs := by
    rw [he _ hs]
    exact hf.goes hs

theorem about_look {a : Service → A} (hc : ∀ s s', Around s s' → a s = a s') :
    About σ h P fun s => (a s, s) where
  alike _ ha _ _ := ⟨hc _ _ ha.toAround, ha⟩
  aside _ _ _ := .refl ..
  goes _ := .of_hub rfl rfl

theorem About.branch {B : Type} {c : Service → B} {P : B → Service → Message → Prop}
    {f : B → Service → A × Service} (hc : ∀ s s', Around s s' → c s = c s')
    (hf : ∀ b, About σ h (P b) (f b)) : About σ h (fun s => P (c s) s) fun s => f (c s) s where
  alike {ids ids' s s'} hs ha ho ho' := by
    rw [hc s s' ha.toAround]
    exact (hf _).alike hs ha ho ho'
  aside hs ho hk := (hf _).aside hs ho hk
  goes hs := (hf _).goes hs

theorem publish_alike (ha : Alike h ids ids' s s') (ho : s.hub.SeatsOf h ids)
    (ho' : s'.hub.SeatsOf h ids') (m : Message) :
    Alike h ids ids' (s.publish h m) (s'.publish h m) := by
  have hl (s : Service) : (s.publish h m).hub.limit = s.hub.limit := Hub.publish_limit h m s.hub
  refine ⟨⟨ha.setup, ha.now, ha.users, ha.faults⟩, (hl s).trans (ha.limit.trans (hl s').symm),
    ha.storage, ?_⟩
  exact (Hub.map_look_publish ho m).trans ((congrArg _ ha.seats).trans
    (Hub.map_look_publish ho' m).symm)

variable (σ P) in
theorem about_deal (op : StoreOp) {f : Nat → Storage → Except StoreError R × Storage}
    (post : Service → Except StoreError R → A × Option Message)
    (hf : ∀ now, Storage.Local h (f now)) (hc : ∀ s s', Around s s' → post s = post s')
    (hp : ∀ s r m, (post s r).2 = some m → P s m) :
    About σ h P fun s => deal h (post s) (s.attempt op f) where
  alike {ids ids' s s'} _ ha ho ho' := by
    obtain ⟨hr, ha'⟩ := ha.attempt op hf
    have hh (s : Service) : (s.attempt op f).2.hub = s.hub := by rw [attempt_snd]
    unfold deal
    rw [hr, hc s s' ha.toAround]
    refine ⟨rfl, ?_⟩
    cases (post s' (s'.attempt op f).1).2 with
    | none => exact ha'
    | some m => exact publish_alike ha' ((hh s).symm ▸ ho) ((hh s').symm ▸ ho') m
  aside {k ids s} _ ho hk := by
    have ha : Alike k ids ids (s.attempt op f).2 s := alike_attempt op hf hk
    have hh : (s.attempt op f).2.hub = s.hub := by rw [attempt_snd]
    unfold deal
    cases (post s (s.attempt op f).1).2 with
    | none => exact ha
    | some m =>
      have hp : Alike k ids ids ((s.attempt op f).2.publish h m) (s.attempt op f).2 :=
        ⟨⟨rfl, rfl, rfl, rfl⟩, Hub.publish_limit .., rfl,
          Hub.map_look_publish_of_ne (hh.symm ▸ ho) hk m⟩
      exact hp.trans ha
  goes {s} _ := by
    have hg : Goes (fun k m => k = h ∧ P s m) s (s.attempt op f).2 := by
      rw [attempt_snd]
      exact .of_hub rfl rfl
    unfold deal
    cases hm : (post s (s.attempt op f).1).2 with
    | none => exact hg
    | some m => exact hg.trans ⟨rfl, fun hr => .publish ⟨rfl, hp s _ m hm⟩ hr⟩

end About

end Service

namespace Qr

open Service

variable {σ : Setup} {h : Handle} {token : String}

/-- The token stands for the handle wherever the setup is the same. -/
def StandsFor (σ : Setup) (token : String) (h : Handle) : Prop :=
  ∀ s : Service, s.setup = σ → resolve token s = .ok h

def Bare (_ : Service) (m : Message) : Prop := m.sessionToken = none

def issued (key : Gcm.Key) (h : Handle) (nonce : List UInt8) :
    Except StoreError (Entry Session) → Except Error Issued
  | .error e => .error (.ofStore e)
  | .ok e => .ok ⟨Token.wrap key nonce ⟨h, e.createdAt⟩, e.expireAt⟩

def snapshot : Except StoreError (Entry Session) → Except Error Snapshot
  | .error e => .error (.ofStore e)
  | .ok e => .ok ⟨e.payload.status, e.expireAt, e.payload.scannedAt⟩

theorem about_issue (ip agent : String) (h : Handle) (nonce : List UInt8) :
    About σ h Bare (issue ip agent h nonce) := by
  cases hk : σ.qrKey with
  | none =>
    refine (about_look (a := fun _ => .error .notConfigured) fun _ _ _ => rfl).congr fun s hs => ?_
    rw [issue, hs, hk]
  | some key =>
    have hd := about_deal σ Bare .put (fun _ r => (issued key h nonce r, none))
      (fun now => Storage.local_put h now
        (Session.pending ip (Text.clip maxAgent (Text.trim agent))) σ.qrTtl) (fun _ _ _ => rfl)
      fun _ _ _ hm => by cases hm
    refine hd.congr fun s hs => ?_
    have he : s.attempt .put (fun now => Storage.put now h
        (Session.pending ip (Text.clip maxAgent (Text.trim agent))) σ.qrTtl) =
        s.put h (Session.pending ip (Text.clip maxAgent (Text.trim agent))) s.setup.qrTtl := by
      rw [hs]
      rfl
    rw [he, issue, hs, hk, ← hs]
    generalize hx : s.put h (Session.pending ip (Text.clip maxAgent (Text.trim agent)))
      s.setup.qrTtl = x
    obtain ⟨r, s'⟩ := x
    dsimp only
    rw [hx]
    cases r <;> rfl

theorem about_status (ht : StandsFor σ token h) : About σ h Bare (status token) := by
  have hd := about_deal σ Bare .get (fun _ r => (snapshot r, none))
    (fun now => Storage.local_get h now) (fun _ _ _ => rfl) fun _ _ _ hm => by cases hm
  refine hd.congr fun s hs => ?_
  have he : s.attempt .get (fun now => Storage.get (P := Session) now h) = s.get h := rfl
  rw [he, status, ht s hs]
  dsimp only
  generalize s.get (P := Session) h = x
  obtain ⟨r, s'⟩ := x
  cases r <;> rfl

theorem about_scan (ht : StandsFor σ token h) : About σ h Bare (Scan.alone token) := by
  have hd := about_deal σ Bare .take (fun _ => Scan.ending)
    (fun now => Storage.local_take h now .pending .scanned) (fun _ _ _ => rfl)
    fun _ r m hm => by
      cases r <;> cases hm
      rfl
  refine hd.congr fun s hs => ?_
  rw [Scan.alone, ht s hs]
  rfl

def Brings (random : List UInt8) : Except AuthError Int64 → Service → Message → Prop
  | .error _, _, _ => False
  | .ok uid, s, m => ∀ t, m.sessionToken = some t → s.mint uid random = some (.ok t)

def confirmAs (h : Handle) (random : List UInt8) :
    Except AuthError Int64 → Service → Option (Except Error Unit) × Service
  | .error e, s => (some (.error (.ofAuth e)), s)
  | .ok uid, s => deal h (Confirm.ending (s.mint uid random))
      (s.take h Status.scanned Status.confirmed)

theorem about_confirm (ht : StandsFor σ token h) (session : Option String) (random : List UInt8) :
    About σ h (fun s => Brings random (s.authenticate session) s)
      (Confirm.alone token session random) := by
  have hd (uid : Int64) := about_deal σ (Brings random (.ok uid)) .take
    (fun s => Confirm.ending (s.mint uid random))
    (fun now => Storage.local_take h now .scanned .confirmed)
    (fun s s' ha => by rw [ha.mint]) fun s r m hm t htok => by
      cases r with
      | error e => cases hm
      | ok e =>
        dsimp only [Confirm.ending] at hm
        split at hm
        · cases hm
        · cases hm
          cases htok
        · next hx =>
          cases hm
          cases htok
          exact hx
  have hf (r : Except AuthError Int64) : About σ h (Brings random r) (confirmAs h random r) := by
    cases r with
    | error e => exact about_look fun _ _ _ => rfl
    | ok uid => exact hd uid
  refine (About.branch (fun s s' ha => ha.authenticate session) hf).congr fun s hs => ?_
  cases ha : s.authenticate session with
  | error e => simp only [Confirm.alone, ha, confirmAs]
  | ok uid => simp only [Confirm.alone, ha, ht s hs, confirmAs]

theorem about_cancel (ht : StandsFor σ token h) : About σ h Bare (Cancel.alone token) := by
  have hd := about_deal σ Bare .delete (fun _ => Cancel.ending)
    (fun _ => Storage.local_delete h) (fun _ _ _ => rfl)
    fun _ r m hm => by
      unfold Cancel.ending at hm
      split at hm
      · cases hm
        rfl
      · cases hm
  refine hd.congr fun s hs => ?_
  rw [Cancel.alone, ht s hs]
  rfl

end Qr

namespace Service

variable {σ : Setup} {hub hub' : Hub} {id id' : Nat}

theorem Alike.subscribe (ha : Alike h ids ids' s s') (hr : s.hub.Regular) (hr' : s'.hub.Regular)
    (hn : ∀ k ∈ ids, k < s.hub.nextId) (hn' : ∀ k ∈ ids', k < s'.hub.nextId)
    (hs : s.hub.subscribe h = .ok (id, hub)) (hs' : s'.hub.subscribe h = .ok (id', hub')) :
    Alike h (ids ++ [id]) (ids' ++ [id']) { s with hub } { s' with hub := hub' } := by
  have hseat {ids : List Nat} {id : Nat} {s : Service} {hub : Hub} (hr : s.hub.Regular)
      (hn : ∀ k ∈ ids, k < s.hub.nextId) (hs : s.hub.subscribe h = .ok (id, hub)) :
      (ids ++ [id]).map hub.look = ids.map s.hub.look ++ [some ([], true)] := by
    obtain ⟨rfl, hv, -⟩ := Hub.view_subscribe hr hs
    have hid : s.hub.nextId ∉ ids := fun hm => Nat.lt_irrefl _ (hn _ hm)
    rw [Hub.look_update hv, List.map_append, Hub.map_update_of_notMem hid, List.map_singleton,
      Function.update_self]
    rfl
  obtain ⟨-, -, hl, -⟩ := Hub.view_subscribe hr hs
  obtain ⟨-, -, hl', -⟩ := Hub.view_subscribe hr' hs'
  refine ⟨⟨ha.setup, ha.now, ha.users, ha.faults⟩, hl.trans (ha.limit.trans hl'.symm),
    ha.storage, ?_⟩
  exact (hseat hr hn hs).trans ((congrArg (· ++ _) ha.seats).trans (hseat hr' hn' hs').symm)

theorem Alike.leave (ha : Alike h (ids ++ [id]) (ids' ++ [id']) s s') (hid : id ∉ ids)
    (hid' : id' ∉ ids') : Alike h ids ids' (Qr.unsubscribe id s) (Qr.unsubscribe id' s') := by
  have hd := Hub.Later.drop (fun _ _ => True) id s.hub
  have hd' := Hub.Later.drop (fun _ _ => True) id' s'.hub
  refine ⟨⟨ha.setup, ha.now, ha.users, ha.faults⟩, hd.limit.trans (ha.limit.trans hd'.limit.symm),
    ha.storage, ?_⟩
  have hm := ha.seats
  rw [List.map_append, List.map_append] at hm
  change ids.map (s.hub.drop id).look = ids'.map (s'.hub.drop id').look
  rw [Hub.drop_look, Hub.drop_look, Hub.map_update_of_notMem hid, Hub.map_update_of_notMem hid']
  exact (List.append_inj' hm rfl).1

theorem alike_subscribe (hr : s.hub.Regular) (hn : ∀ i ∈ ids, i < s.hub.nextId)
    (hs : s.hub.subscribe k = .ok (id, hub)) : Alike h ids ids { s with hub } s := by
  obtain ⟨rfl, hv, hl, -⟩ := Hub.view_subscribe hr hs
  have hid : s.hub.nextId ∉ ids := fun hm => Nat.lt_irrefl _ (hn _ hm)
  refine ⟨⟨rfl, rfl, rfl, rfl⟩, hl, rfl, ?_⟩
  change ids.map hub.look = ids.map s.hub.look
  rw [Hub.look_update hv, Hub.map_update_of_notMem hid]

theorem alike_unsubscribe (hid : id ∉ ids) : Alike h ids ids (Qr.unsubscribe id s) s := by
  refine ⟨⟨rfl, rfl, rfl, rfl⟩, (Hub.Later.drop (fun _ _ => True) id s.hub).limit, rfl, ?_⟩
  change ids.map (s.hub.drop id).look = ids.map s.hub.look
  rw [Hub.drop_look, Hub.map_update_of_notMem hid]

end Service

namespace Qr

open Service

variable {h k : Handle} {ids ids' : List Nat} {s s' : Service} {token : String}
  {told : Handle → Message → Prop}

variable (told) in
theorem get_goes (h : Handle) (s : Service) :
    Goes told s (s.get (P := Session) h).2 ∧ (s.get (P := Session) h).2.hub = s.hub := by
  obtain ⟨hw, hh⟩ := within_get h s
  exact ⟨.of_hub hw.setup hh, hh⟩

inductive Watch.Ends (h : Handle) (s : Service) : Except Error Watching × Service → Prop
  | failed {e : Error} {s' : Service} : (∀ told, s.hub.Regular → Goes told s s') →
    (∀ k ids, s.hub.Regular → k ≠ h → (∀ i ∈ ids, i < s.hub.nextId) → Alike k ids ids s' s) →
    Ends h s (.error e, s')
  | began {id : Nat} {m : Message} {hub : Hub} {s' : Service} :
    s.hub.subscribe h = .ok (id, hub) → s'.hub = hub → m.sessionToken = none →
    Goes (fun _ _ => False) { s with hub } s' →
    (∀ k ids, s.hub.Regular → k ≠ h → (∀ i ∈ ids, i < s.hub.nextId) → Alike k ids ids s' s) →
    Ends h s (.ok ⟨id, m⟩, s')

inductive Watch.Same (h : Handle) (ids ids' : List Nat) :
    Except Error Watching × Service → Except Error Watching × Service → Prop
  | failed {e : Error} {s s' : Service} : Alike h ids ids' s s' →
    Same h ids ids' (.error e, s) (.error e, s')
  | began {id id' : Nat} {m : Message} {s s' : Service} : id ∉ ids → id' ∉ ids' →
    Alike h (ids ++ [id]) (ids' ++ [id']) s s' →
    Same h ids ids' (.ok ⟨id, m⟩, s) (.ok ⟨id', m⟩, s')

theorem Watch.look_same {id id' : Nat} (hid : id ∉ ids) (hid' : id' ∉ ids')
    (ha : Alike h (ids ++ [id]) (ids' ++ [id']) s s') :
    Same h ids ids' (Watch.look h id s) (Watch.look h id' s') := by
  obtain ⟨hr, hx⟩ := ha.attempt .get
    (f := fun now => Storage.get (P := Session) now h) fun now => Storage.local_get h now
  change (s.get (P := Session) h).1 = (s'.get (P := Session) h).1 at hr
  change Alike _ _ _ (s.get (P := Session) h).2 (s'.get (P := Session) h).2 at hx
  unfold Watch.look
  generalize s.get (P := Session) h = x at hr hx
  generalize s'.get (P := Session) h = x' at hr hx
  obtain ⟨r, t⟩ := x
  obtain ⟨r', t'⟩ := x'
  cases hr
  cases r with
  | error e => exact .failed (hx.leave hid hid')
  | ok e => exact .began hid hid' hx

theorem Watch.alone_same (hr : s.hub.Regular) (hr' : s'.hub.Regular)
    (hn : ∀ i ∈ ids, i < s.hub.nextId) (hn' : ∀ i ∈ ids', i < s'.hub.nextId)
    (ht : resolve token s = .ok h) (ha : Alike h ids ids' s s') {x x' : Nat × Hub}
    (hs : s.hub.subscribe h = .ok x) (hs' : s'.hub.subscribe h = .ok x') :
    Same h ids ids' (Watch.alone token s) (Watch.alone token s') := by
  obtain ⟨id, hub⟩ := x
  obtain ⟨id', hub'⟩ := x'
  rw [Watch.alone, Watch.alone, ← resolve_congr ha.setup, ht]
  dsimp only
  rw [hs, hs']
  have hid : id ∉ ids := fun hm => Nat.lt_irrefl _ ((Hub.view_subscribe hr hs).1 ▸ hn _ hm)
  have hid' : id' ∉ ids' := fun hm => Nat.lt_irrefl _ ((Hub.view_subscribe hr' hs').1 ▸ hn' _ hm)
  exact Watch.look_same hid hid' (ha.subscribe hr hr' hn hn' hs hs')

theorem Watch.alone_ends (ht : resolve token s = .ok h) : Ends h s (Watch.alone token s) := by
  rw [Watch.alone, ht]
  dsimp only
  cases hs : s.hub.subscribe h with
  | error e =>
    exact .failed (fun told _ => .of_hub rfl rfl) fun k ids _ _ _ => .refl k ids s
  | ok x =>
    obtain ⟨id, hub⟩ := x
    obtain ⟨hg, hh⟩ := get_goes (fun _ _ => False) h { s with hub }
    have aside (k : Handle) (ids : List Nat) (hr : s.hub.Regular) (hk : k ≠ h)
        (hn : ∀ i ∈ ids, i < s.hub.nextId) :
        Alike k ids ids (Service.get (P := Session) h { s with hub }).2 s :=
      (alike_attempt .get (f := fun now => Storage.get (P := Session) now h)
        (fun now => Storage.local_get h now) (Ne.symm hk)).trans (alike_subscribe hr hn hs)
    dsimp only
    unfold Watch.look
    cases hx : Service.get (P := Session) h { s with hub } with
    | mk r s' =>
      rw [hx] at hg hh
      simp only [hx] at aside
      cases r with
      | ok e => exact .began hs hh rfl hg aside
      | error e =>
        refine .failed (fun told hr => ?_) fun k ids hr hk hn => ?_
        · refine ⟨hg.setup, fun _ => ?_⟩
          have hd := (Hub.Later.subscribe_drop told hr hs).1
          rwa [← show s'.hub = hub from hh] at hd
        · refine (alike_unsubscribe fun hm => ?_).trans (aside k ids hr hk hn)
          exact Nat.lt_irrefl _ ((Hub.view_subscribe hr hs).1 ▸ hn _ hm)

variable {known : Option Status}

variable (known) in
theorem Wait.alone_same (hw : Watch.Same h ids ids' (Watch.alone token s) (Watch.alone token s')) :
    (Wait.alone token known s).1 = (Wait.alone token known s').1 ∧
      Alike h ids ids' (Wait.alone token known s).2 (Wait.alone token known s').2 := by
  unfold Wait.alone
  generalize Watch.alone token s = x at hw
  generalize Watch.alone token s' = x' at hw
  cases hw with
  | failed ha => exact ⟨rfl, ha⟩
  | began hid hid' ha => exact ⟨rfl, ha.leave hid hid'⟩

variable (told known) in
theorem Wait.alone_ends (hr : s.hub.Regular) (ht : resolve token s = .ok h) :
    Goes told s (Wait.alone token known s).2 ∧
    (∀ k ids, k ≠ h → (∀ i ∈ ids, i < s.hub.nextId) →
      Alike k ids ids (Wait.alone token known s).2 s) ∧
    ∀ m, (Wait.alone token known s).1 = .ok (some m) → m.sessionToken = none := by
  have hw := Watch.alone_ends ht
  unfold Wait.alone
  generalize Watch.alone token s = x at hw
  cases hw with
  | failed hg ha => exact ⟨hg told hr, fun k ids => ha k ids hr, fun m hm => by cases hm⟩
  | @began id m hub s' hs hh hm hg ha =>
    have hid : id = s.hub.nextId := (Hub.view_subscribe hr hs).1
    refine ⟨⟨hg.setup, fun _ => ?_⟩, fun k ids hk hn => ?_, fun m' hm' => ?_⟩
    · have hd := (Hub.Later.subscribe_drop told hr hs).1
      rwa [← hh] at hd
    · refine (alike_unsubscribe fun hx => ?_).trans (ha k ids hr hk hn)
      exact Nat.lt_irrefl _ (hid ▸ hn _ hx)
    · dsimp only at hm'
      split at hm'
      · cases hm'
      · cases hm'
        exact hm

end Qr

end Handoff
