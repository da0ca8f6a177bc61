import Handoff.Proofs.Qr.Desk
import Handoff.Proofs.Qr.Separate

namespace Handoff

open Qr (Message StandsFor Error)
open Service (Alike Goes About)
open Desk

namespace Rest

/-- Every subscription has its seat, and nobody sits in the seat of another. -/
structure Orderly (σ : Setup) (r : Rest) : Prop where
  setup : r.service.setup = σ
  regular : r.service.hub.Regular
  taken : ∀ h, ∀ id ∈ r.seats h, id < r.service.hub.nextId
  nodup : ∀ h, (r.seats h).Nodup
  owner : ∀ h k id, id ∈ r.seats h → id ∈ r.seats k → h = k
  seated : ∀ t ∈ r.service.hub.subscriptions, t.id ∈ r.seats t.handle

def Like (h : Handle) (r r' : Rest) : Prop := Alike h (r.seats h) (r'.seats h) r.service r'.service

def Only (h : Handle) (r : Rest) : Prop := ∀ t ∈ r.service.hub.subscriptions, t.handle = h

variable {σ : Setup} {h k : Handle} {r r' : Rest} {s : Service} {q : Errand}
  {told : Handle → Message → Prop}

theorem Orderly.seatsOf (ho : r.Orderly σ) (h : Handle) :
    r.service.hub.SeatsOf h (r.seats h) := by
  intro id hid t hv
  have ht := ho.seated t (Hub.mem_of_view hv)
  rw [Hub.id_of_view hv] at ht
  obtain rfl := ho.owner h t.handle id hid ht
  exact ⟨rfl, fun hop => ho.regular.topic_of_hears (Hub.mem_of_view hv) (by simp [Hub.hears, hop])⟩

theorem Orderly.goes (ho : r.Orderly σ) (hg : Goes told r.service s) :
    Orderly σ ⟨s, r.seats⟩ := by
  have hl := hg.hub ho.regular
  refine ⟨hg.setup.trans ho.setup, hl.regular ho.regular,
    fun h id hid => Nat.lt_of_lt_of_le (ho.taken h id hid) hl.nextId, ho.nodup, ho.owner,
    fun t' ht' => ?_⟩
  obtain ⟨t, ht, hid, hh, -⟩ := hl.kept t' ht'
  exact hid ▸ hh ▸ ho.seated t ht

theorem Orderly.take (ho : r.Orderly σ) {id : Nat} {hub : Hub}
    (hs : r.service.hub.subscribe h = .ok (id, hub)) :
    Orderly σ ⟨{ r.service with hub }, r.seats.take h id⟩ := by
  obtain ⟨hid, -, -, hn, hss, hr⟩ := Hub.view_subscribe ho.regular hs
  have fresh (k : Handle) : id ∉ r.seats k :=
    fun hm => Nat.lt_irrefl _ (hid ▸ ho.taken k id hm)
  refine ⟨ho.setup, hr, fun k i hi => ?_,
    r.seats.nodup_take ho.nodup (fresh h), fun k k' i hi hi' => ?_, fun t ht => ?_⟩
  · change i < hub.nextId
    rw [hn]
    obtain hi | ⟨rfl, -⟩ := r.seats.mem_take.1 hi
    · exact Nat.lt_succ_of_lt (ho.taken k i hi)
    · exact hid ▸ Nat.lt_succ_self _
  · obtain hi | ⟨he, hk⟩ := r.seats.mem_take.1 hi <;>
      obtain hi' | ⟨he', hk'⟩ := r.seats.mem_take.1 hi'
    · exact ho.owner k k' i hi hi'
    · exact absurd (he' ▸ hi) (fresh k)
    · exact absurd (he ▸ hi') (fresh k')
    · exact hk.trans hk'.symm
  · change t ∈ hub.subscriptions at ht
    rw [hss, List.mem_append, List.mem_singleton] at ht
    obtain ht | rfl := ht
    · exact r.seats.mem_take.2 (.inl (ho.seated t ht))
    · exact r.seats.mem_take.2 (.inr ⟨rfl, rfl⟩)

theorem Like.active_le (hl : Like h r r') (ho : r.Orderly σ) (ho' : r'.Orderly σ)
    (hr : r'.Only h) : r'.service.hub.active ≤ r.service.hub.active := by
  have hc : ((r.seats h).filter fun id => (r.service.hub.look id).isSome).length =
      ((r'.seats h).filter fun id => (r'.service.hub.look id).isSome).length := by
    have he := congrArg (List.countP Option.isSome) hl.seats
    rw [List.countP_map, List.countP_map, List.countP_eq_length_filter,
      List.countP_eq_length_filter] at he
    exact he
  have hle' : r'.service.hub.subscriptions.length ≤
      ((r'.seats h).filter fun id => (r'.service.hub.look id).isSome).length := by
    rw [← List.length_map Subscription.id]
    refine (ho'.regular.distinct.subperm fun id hid => ?_).length_le
    obtain ⟨t, ht, rfl⟩ := List.mem_map.1 hid
    refine List.mem_filter.2 ⟨hr t ht ▸ ho'.seated t ht, ?_⟩
    rw [Hub.look, ho'.regular.view_of_mem ht]
    rfl
  have hle : ((r.seats h).filter fun id => (r.service.hub.look id).isSome).length ≤
      r.service.hub.subscriptions.length := by
    have hm : (r.service.hub.subscriptions.map Subscription.id).length =
        r.service.hub.subscriptions.length := List.length_map ..
    rw [← hm]
    refine (((ho.nodup h).filter _).subperm fun id hid => ?_).length_le
    obtain ⟨t, hv⟩ := Option.isSome_iff_exists.1 (List.mem_filter.1 hid).2
    rw [Hub.look, Option.map_eq_some_iff] at hv
    obtain ⟨t, hv, -⟩ := hv
    exact List.mem_map.2 ⟨t, Hub.mem_of_view hv, Hub.id_of_view hv⟩
  rw [ho.regular.active, ho'.regular.active]
  exact hle'.trans (hc ▸ hle)

end Rest

namespace Desk

variable {σ : Setup} {h k : Handle} {r r' : Rest} {s : Service} {q : Errand} {A : Type}

abbrev Page := Option (List Message × Bool)

/-- A use of a subscription answers `a` of what there is to read and leaves `u` of it. -/
structure Reading (a : Page → A) (u : Page → Page) (f : Nat → Service → A × Service) : Prop where
  answer (id : Nat) (s : Service) : (f id s).1 = a (s.hub.look id)
  rest (id : Nat) (s : Service) : (f id s).2 = { s with hub := (f id s).2.hub }
  page (id : Nat) (s : Service) :
    (f id s).2.hub.look = Function.update s.hub.look id (u (s.hub.look id))
  later {told : Handle → Message → Prop} (id : Nat) (s : Service) : s.hub.Regular →
    Hub.Later told s.hub (f id s).2.hub

structure Common (f : Service → Service) : Prop where
  alike {h : Handle} {ids ids' : List Nat} {s s' : Service} : Alike h ids ids' s s' →
    Alike h ids ids' (f s) (f s')
  goes (told : Handle → Message → Prop) (s : Service) : Goes told s (f s)

theorem reading_read : Reading Hub.taken (Option.map fun x => (x.1.tail, x.2)) read where
  answer id s := (Hub.receive_look id s.hub).1
  rest _ _ := rfl
  page id s := (Hub.receive_look id s.hub).2
  later id _ hr := .receive _ hr id

theorem reading_next (known : Qr.Status) : Reading (Qr.seenPast known)
    (Option.map fun x => ((x.1.dropWhile (·.status = known)).tail, x.2))
    (Qr.advanceChange · known) where
  answer id s := (Qr.advanceChange_look id known s).1
  rest _ _ := rfl
  page id s := (Qr.advanceChange_look id known s).2
  later id s hr := Hub.Later.nextChange hr id known
    (((s.hub.find? id).map (·.unread.length)).getD 0 + 1)

theorem reading_leave : Reading (fun _ => ()) (fun _ => none) leave where
  answer _ _ := rfl
  rest _ _ := rfl
  page id s := Hub.drop_look id s.hub
  later id s _ := .drop _ id s.hub

theorem Common.id : Common fun s => s := ⟨fun ha => ha, fun _ _ => .of_hub rfl rfl⟩

theorem common_sweepStore {P S : Type} [Stage S] [Staged P S] [Shelved P]
    (hs : ∀ h now (σ σ' : Storage), σ.only h = σ'.only h →
      (σ.sweep P now).2.only h = (σ'.sweep P now).2.only h) :
    Common fun s => (s.sweepStore P).2 := by
  have he (s : Service) : (s.sweepStore P).2 = { s with
      storage := (s.failure (Staged.kind P) .sweep).elim (s.storage.sweep P s.now).2
        fun _ => s.storage } := by
    unfold Service.sweepStore
    split
    · next hf => rw [hf]; rfl
    · next hf => rw [hf]; rfl
  refine ⟨fun {h ids ids' s s'} ha => ?_, fun told s => ?_⟩
  · rw [he, he]
    refine ⟨⟨ha.setup, ha.now, ha.users, ha.faults⟩, ha.limit, ?_, ha.seats⟩
    dsimp only
    rw [ha.failure, ha.now]
    cases s'.failure (Staged.kind P) .sweep with
    | none => exact hs h _ _ _ ha.storage
    | some e => exact ha.storage
  · rw [he]
    exact .of_hub rfl rfl

theorem common_sweep (t : Service.Target) : Common fun s => (s.sweepTarget t).2 := by
  match t with
  | .store .qrSession =>
    refine common_sweepStore fun h now σ σ' hσ => ?_
    rw [Storage.only_sweep, Storage.only_sweep, hσ]
  | .store .oauthState =>
    refine common_sweepStore fun h now σ σ' hσ => ?_
    rw [Storage.only_sweep_of_apart, Storage.only_sweep_of_apart, hσ]
  | .store .pendingLink =>
    refine common_sweepStore fun h now σ σ' hσ => ?_
    rw [Storage.only_sweep_of_apart, Storage.only_sweep_of_apart, hσ]
  | .topics =>
    exact ⟨fun ha => ⟨⟨ha.setup, ha.now, ha.users, ha.faults⟩, ha.limit, ha.storage, ha.seats⟩,
      fun _ s => ⟨rfl, fun _ => .sweep s.hub⟩⟩

theorem common_pass (ms : Nat) :
    Common fun s => { s with now := Text.addTime s.now ms } where
  alike ha := ⟨⟨ha.setup, congrArg (Text.addTime · ms) ha.now, ha.users, ha.faults⟩, ha.limit,
    ha.storage, ha.seats⟩
  goes _ _ := .of_hub rfl rfl

theorem common_fail (fs : Faults) : Common fun s => { s with faults := fs } where
  alike ha := ⟨⟨ha.setup, ha.now, ha.users, rfl⟩, ha.limit, ha.storage, ha.seats⟩
  goes _ _ := ⟨rfl, fun _ => .refl _ _⟩

theorem common_removeUser (uid : Int64) :
    Common fun s => { s with users := s.users.remove uid } where
  alike ha := ⟨⟨ha.setup, ha.now, congrArg (Users.remove uid) ha.users, ha.faults⟩, ha.limit,
    ha.storage, ha.seats⟩
  goes _ _ := .of_hub rfl rfl

def Errand.tells : Errand → Service → Message → Prop
  | confirm _ session random => fun s => Qr.Brings random (s.authenticate session) s
  | _ => Qr.Bare

inductive Errand.Sorted (σ : Setup) : Option Handle → Errand → Prop
  | call {q : Errand} {A : Type} {h : Handle} {f : Service → A × Service} {g : A → Errand.Reply} :
    About σ h q.tells f → (∀ r : Rest, r.perform q = r.ask f g) →
    (∀ a, (g a).session? = none) → Sorted σ (some h) q
  | wait {token : String} {h : Handle} (known : Option Qr.Status) (timeout : Nat) :
    StandsFor σ token h → Sorted σ (some h) (wait token known timeout)
  | watch {token : String} {h : Handle} : StandsFor σ token h → Sorted σ (some h) (watch token)
  | subscribe (h : Handle) : Sorted σ (some h) (subscribe h)
  | reading {q : Errand} {A : Type} {absent : A} {a : Page → A} {u : Page → Page}
    {f : Nat → Service → A × Service} {g : A → Errand.Reply} (h : Handle) (i : Nat) :
    Reading a u f →
    (∀ r : Rest, r.perform q = r.ask (look absent f (r.seats h)[i]?) g) →
    (g absent).session? = none →
    (∀ x t, (g (a x)).session? = some t → ∃ p m, x = some p ∧ m ∈ p.1 ∧ m.sessionToken = some t) →
    Sorted σ (some h) q
  | common {q : Errand} {f : Service → Service} : Common f →
    (∀ r : Rest, r.service.setup = σ →
      (r.perform q).2 = { r with service := f r.service } ∧ (r.perform q).1.session? = none) →
    Sorted σ none q

theorem session?_taken (x : Page) (t : String)
    (ht : (Errand.Reply.received (Hub.taken x)).session? = some t) :
    ∃ p m, x = some p ∧ m ∈ p.1 ∧ m.sessionToken = some t := by
  match x, ht with
  | some (m :: ms, isOpen), ht => exact ⟨_, m, rfl, List.mem_cons_self, ht⟩
  | some ([], true), ht => cases ht
  | some ([], false), ht => cases ht

theorem session?_seenPast (known : Qr.Status) (x : Page) (t : String)
    (ht : (Errand.Reply.changed (Qr.seenPast known x)).session? = some t) :
    ∃ p m, x = some p ∧ m ∈ p.1 ∧ m.sessionToken = some t := by
  match x, ht with
  | some (ms, isOpen), ht =>
    rw [Qr.seenPast] at ht
    cases hd : ms.dropWhile (·.status = known) with
    | nil =>
      rw [hd] at ht
      cases isOpen <;> cases ht
    | cons m rest =>
      rw [hd] at ht
      have hm : m ∈ ms.dropWhile (·.status = known) := hd ▸ List.mem_cons_self
      exact ⟨_, m, rfl, (List.dropWhile_suffix _).mem hm, ht⟩

theorem Errand.sorted (hs : s.setup = σ) (q : Errand) : q.Sorted σ (q.subject s) := by
  have token {q : Errand} (token : String)
      (hok : ∀ h, StandsFor σ token h → q.Sorted σ (some h))
      (herr : ∀ e, (∀ s : Service, s.setup = σ → Qr.resolve token s = .error e) → q.Sorted σ none) :
      q.Sorted σ (Qr.resolve token s).toOption := by
    cases hr : Qr.resolve token s with
    | error e => exact herr e fun s' hs' => (Qr.resolve_congr (hs'.trans hs.symm) token).trans hr
    | ok h => exact hok h fun s' hs' => (Qr.resolve_congr (hs'.trans hs.symm) token).trans hr
  cases q with
  | issue ip agent h nonce =>
    exact .call (Qr.about_issue ip agent h nonce) (fun _ => rfl) fun _ => rfl
  | status t =>
    refine token t (fun h ht => .call (Qr.about_status ht) (fun _ => rfl) fun _ => rfl) fun e he =>
      .common .id fun r hr => ⟨?_, rfl⟩
    rw [Rest.perform, Rest.ask, Qr.status, he _ hr]
  | scan t =>
    refine token t (fun h ht => .call (g := fun a => .scanned (some a)) (Qr.about_scan ht)
      (fun _ => rfl) fun _ => rfl) fun e he => .common .id fun r hr => ⟨?_, rfl⟩
    rw [Rest.perform, Rest.ask, Qr.Scan.alone, he _ hr]
  | confirm t session random =>
    refine token t (fun h ht => .call (Qr.about_confirm ht session random) (fun _ => rfl)
      fun _ => rfl) fun e he => .common .id fun r hr => ⟨?_, rfl⟩
    rw [Rest.perform, Rest.ask, Qr.Confirm.alone, he _ hr]
    cases r.service.authenticate session <;> rfl
  | cancel t =>
    refine token t (fun h ht => .call (g := fun a => .cancelled (some a)) (Qr.about_cancel ht)
      (fun _ => rfl) fun _ => rfl) fun e he => .common .id fun r hr => ⟨?_, rfl⟩
    rw [Rest.perform, Rest.ask, Qr.Cancel.alone, he _ hr]
  | wait t known timeout =>
    refine token t (fun h ht => .wait known timeout ht) fun e he => .common .id fun r hr => ?_
    rw [Rest.perform, Rest.ask, Qr.Wait.alone, Qr.Watch.alone, he _ hr]
    exact ⟨rfl, rfl⟩
  | watch t =>
    refine token t (fun h ht => .watch ht) fun e he => .common .id fun r hr => ?_
    rw [Rest.perform, Qr.Watch.alone, he _ hr]
    exact ⟨rfl, rfl⟩
  | subscribe h => exact .subscribe h
  | receive h i => exact .reading h i reading_read (fun _ => rfl) rfl session?_taken
  | next h i known =>
    exact .reading h i (reading_next known) (fun _ => rfl) rfl (session?_seenPast known)
  | drop h i => exact .reading h i reading_leave (fun _ => rfl) rfl fun _ _ ht => by cases ht
  | sweep t => exact .common (common_sweep t) fun _ _ => ⟨rfl, rfl⟩
  | pass ms => exact .common (common_pass ms) fun _ _ => ⟨rfl, rfl⟩
  | fail fs => exact .common (common_fail fs) fun _ _ => ⟨rfl, rfl⟩
  | removeUser uid => exact .common (common_removeUser uid) fun _ _ => ⟨rfl, rfl⟩

section Look

variable {absent : A} {a : Page → A} {u : Page → Page} {f : Nat → Service → A × Service}

theorem Reading.goes (hf : Reading a u f) (told : Handle → Message → Prop) (o : Option Nat)
    (s : Service) : Goes told s (look absent f o s).2 := by
  cases o with
  | none => exact .of_hub rfl rfl
  | some id =>
    change Goes told s (f id s).2
    have hr := hf.rest id s
    exact ⟨by rw [hr], hf.later id s⟩

/-- What is done in a seat of one sign-in is not noticed in those of another. -/
theorem Reading.aside (hf : Reading a u f) {σ : Setup} (ho : r.Orderly σ) (hk : k ≠ h) (i : Nat) :
    Alike k (r.seats k) (r.seats k) (look absent f (r.seats h)[i]? r.service).2 r.service := by
  cases hi : (r.seats h)[i]? with
  | none => exact .refl ..
  | some id =>
    have hid : id ∉ r.seats k := fun hm =>
      hk (ho.owner k h id hm (List.mem_of_getElem? hi))
    have hl : Hub.Later (fun _ _ => True) r.service.hub (f id r.service).2.hub :=
      hf.later id _ ho.regular
    change Alike k (r.seats k) (r.seats k) (f id r.service).2 r.service
    rw [hf.rest id r.service]
    refine ⟨⟨rfl, rfl, rfl, rfl⟩, hl.limit, rfl, ?_⟩
    dsimp only
    rw [hf.page id r.service, Hub.map_update_of_notMem hid]

theorem Reading.alike (hf : Reading a u f) {σ : Setup} (ho : r.Orderly σ) (ho' : r'.Orderly σ)
    (hl : Rest.Like h r r') (i : Nat) :
    (look absent f (r.seats h)[i]? r.service).1 = (look absent f (r'.seats h)[i]? r'.service).1 ∧
      Alike h (r.seats h) (r'.seats h) (look absent f (r.seats h)[i]? r.service).2
        (look absent f (r'.seats h)[i]? r'.service).2 := by
  have hi := congrArg (·[i]?) hl.seats
  simp only [List.getElem?_map] at hi
  cases hx : (r.seats h)[i]? with
  | none =>
    rw [hx, Option.map_none] at hi
    rw [Option.map_eq_none_iff.1 hi.symm]
    exact ⟨rfl, hl⟩
  | some id =>
    rw [hx, Option.map_some] at hi
    obtain ⟨id', hx', hp⟩ := Option.map_eq_some_iff.1 hi.symm
    rw [hx']
    change (f id r.service).1 = (f id' r'.service).1 ∧
      Alike h (r.seats h) (r'.seats h) (f id r.service).2 (f id' r'.service).2
    have hl₁ : Hub.Later (fun _ _ => True) r.service.hub (f id r.service).2.hub :=
      hf.later id _ ho.regular
    have hl₂ : Hub.Later (fun _ _ => True) r'.service.hub (f id' r'.service).2.hub :=
      hf.later id' _ ho'.regular
    refine ⟨by rw [hf.answer, hf.answer, hp], ?_⟩
    rw [hf.rest id r.service, hf.rest id' r'.service]
    refine ⟨⟨hl.setup, hl.now, hl.users, hl.faults⟩,
      hl₁.limit.trans (hl.limit.trans hl₂.limit.symm),
      hl.storage, ?_⟩
    dsimp only
    rw [hf.page, hf.page, Hub.map_update_of_getElem? (ho.nodup h) hx,
      Hub.map_update_of_getElem? (ho'.nodup h) hx', hl.seats, hp]

end Look

end Desk

namespace Rest

variable {σ : Setup} {h k : Handle} {r r' : Rest} {q : Errand} {o : Option Handle}

theorem Orderly.perform (ho : r.Orderly σ) (q : Errand) : (r.perform q).2.Orderly σ := by
  have hq := q.sorted ho.setup
  generalize q.subject r.service = o at hq
  cases hq with
  | call hf hp _ =>
    rw [hp]
    exact ho.goes (hf.goes ho.setup)
  | @wait token h known timeout ht =>
    exact ho.goes (Qr.Wait.alone_ends (fun _ _ => False) _ ho.regular
      (ht _ ho.setup)).1
  | @watch token h ht =>
    have hr := ht _ ho.setup
    have hw := Qr.Watch.alone_ends hr
    rw [Rest.perform, hr]
    generalize Qr.Watch.alone token r.service = x at hw
    cases hw with
    | failed hg _ => exact ho.goes (hg (fun _ _ => False) ho.regular)
    | began hs hh _ hg _ => exact (ho.take hs).goes hg
  | subscribe h =>
    rw [Rest.perform]
    cases hs : r.service.hub.subscribe h with
    | error e => exact ho
    | ok x => exact ho.take hs
  | reading h i hf hp _ _ =>
    rw [hp]
    exact ho.goes (hf.goes (fun _ _ => False) _ _)
  | common hf hp =>
    rw [(hp r ho.setup).1]
    exact ho.goes (hf.goes (fun _ _ => False) _)

theorem Like.common (hl : Like h r r') (ho : r.Orderly σ) (hq : q.subject r.service = none) :
    Like h (r.perform q).2 (r'.perform q).2 := by
  have hs := q.sorted ho.setup
  rw [hq] at hs
  cases hs with
  | common hf hp =>
    rw [(hp r ho.setup).1, (hp r' (hl.setup ▸ ho.setup)).1]
    exact hf.alike hl

theorem like_of_ne (ho : r.Orderly σ) (hq : q.subject r.service = some h) (hk : k ≠ h) :
    Like k (r.perform q).2 r := by
  have hs := q.sorted ho.setup
  rw [hq] at hs
  have hn := ho.taken k
  cases hs with
  | call hf hp _ =>
    rw [hp]
    exact hf.aside ho.setup (ho.seatsOf k) (Ne.symm hk)
  | wait known timeout ht =>
    exact (Qr.Wait.alone_ends (fun _ _ => False) _ ho.regular
      (ht _ ho.setup)).2.1 k (r.seats k) hk hn
  | @watch token _ ht =>
    have hr := ht _ ho.setup
    have hw := Qr.Watch.alone_ends hr
    rw [Rest.perform, hr]
    generalize Qr.Watch.alone token r.service = x at hw
    cases hw with
    | failed _ ha => exact ha k (r.seats k) ho.regular hk hn
    | @began id m hub s' _ _ _ _ ha =>
      change Alike k (r.seats.take h id k) (r.seats k) s' r.service
      rw [r.seats.take_of_ne hk]
      exact ha k (r.seats k) ho.regular hk hn
  | subscribe =>
    rw [Rest.perform]
    cases hs : r.service.hub.subscribe h with
    | error e => exact .refl ..
    | ok x =>
      obtain ⟨id, hub⟩ := x
      change Alike k (r.seats.take h id k) (r.seats k) { r.service with hub } r.service
      rw [r.seats.take_of_ne hk]
      exact Service.alike_subscribe ho.regular hn hs
  | reading _ i hf hp _ _ =>
    rw [hp]
    exact hf.aside ho hk i

theorem Like.exists_subscribe (hl : Like h r r') (ho : r.Orderly σ) (ho' : r'.Orderly σ)
    (hr : r'.Only h) {x : Nat × Hub} (hs : r.service.hub.subscribe h = .ok x) :
    ∃ x', r'.service.hub.subscribe h = .ok x' := by
  have ha := hl.active_le ho ho' hr
  unfold Hub.subscribe Hub.reserve at hs ⊢
  split at hs
  · next hn =>
    rw [if_pos (hl.limit ▸ Nat.lt_of_le_of_lt ha hn)]
    exact ⟨_, rfl⟩
  · cases hs

theorem subscribe_of_watch {token : String} {s : Service} (ht : Qr.resolve token s = .ok h)
    (hb : (Qr.Watch.alone token s).1 ≠ .error .busy) : ∃ x, s.hub.subscribe h = .ok x := by
  rw [Qr.Watch.alone, ht] at hb
  dsimp only at hb
  cases hs : s.hub.subscribe h with
  | error e =>
    rw [hs] at hb
    exact absurd rfl hb
  | ok x => exact ⟨x, rfl⟩

theorem Like.watch (hl : Like h r r') (ho : r.Orderly σ) (ho' : r'.Orderly σ) (hr : r'.Only h)
    {token : String} (ht : StandsFor σ token h)
    (hb : (Qr.Watch.alone token r.service).1 ≠ .error .busy) :
    Qr.Watch.Same h (r.seats h) (r'.seats h) (Qr.Watch.alone token r.service)
      (Qr.Watch.alone token r'.service) := by
  have ht := ht _ ho.setup
  obtain ⟨x, hs⟩ := subscribe_of_watch ht hb
  obtain ⟨x', hs'⟩ := hl.exists_subscribe ho ho' hr hs
  exact Qr.Watch.alone_same ho.regular ho'.regular (ho.taken h) (ho'.taken h) ht hl hs hs'

theorem isRefusal_of_busy {token : String}
    (hb : (Qr.Watch.alone token r.service).1 = .error .busy) (known : Option Qr.Status)
    (timeout : Nat) : (r.perform (.wait token known timeout)).1.isRefusal = true ∧
      (r.perform (.watch token)).1.isRefusal = true := by
  rw [Rest.perform, Rest.perform, Rest.ask, Qr.Wait.alone]
  generalize Qr.Watch.alone token r.service = x at hb
  obtain ⟨a, s⟩ := x
  cases hb
  exact ⟨rfl, rfl⟩

theorem Like.perform (hl : Like h r r') (ho : r.Orderly σ) (ho' : r'.Orderly σ) (hr : r'.Only h)
    (hq : q.subject r.service = some h) (hn : (r.perform q).1.isRefusal = false) :
    (r.perform q).1 = (r'.perform q).1 ∧ Like h (r.perform q).2 (r'.perform q).2 := by
  have hs := q.sorted ho.setup
  rw [hq] at hs
  cases hs with
  | @call _ _ _ _ g hf hp _ =>
    rw [hp, hp]
    obtain ⟨ha, hl'⟩ := hf.alike ho.setup hl (ho.seatsOf h) (ho'.seatsOf h)
    exact ⟨congrArg g ha, hl'⟩
  | @wait token _ known timeout ht =>
    have hb : (Qr.Watch.alone token r.service).1 ≠ .error .busy := fun hb =>
      Bool.noConfusion (hn.symm.trans (isRefusal_of_busy hb known timeout).1)
    obtain ⟨ha, hl'⟩ := Qr.Wait.alone_same known (hl.watch ho ho' hr ht hb)
    exact ⟨congrArg (fun a => Errand.Reply.waited (some a)) ha, hl'⟩
  | @watch token _ ht =>
    have hb : (Qr.Watch.alone token r.service).1 ≠ .error .busy := fun hb =>
      Bool.noConfusion (hn.symm.trans (isRefusal_of_busy hb none 0).2)
    have hw := hl.watch ho ho' hr ht hb
    rw [Rest.perform, Rest.perform, ht _ ho.setup, ht _ ho'.setup]
    generalize Qr.Watch.alone token r.service = x at hw
    generalize Qr.Watch.alone token r'.service = x' at hw
    cases hw with
    | failed ha => exact ⟨rfl, ha⟩
    | @began id id' m s s' _ _ ha =>
      refine ⟨rfl, ?_⟩
      change Alike h (r.seats.take h id h) (r'.seats.take h id' h) s s'
      rwa [Seats.take_self, Seats.take_self]
  | subscribe =>
    cases hs : r.service.hub.subscribe h with
    | error e =>
      rw [Rest.perform, hs] at hn
      cases hn
    | ok x =>
      obtain ⟨x', hs'⟩ := hl.exists_subscribe ho ho' hr hs
      obtain ⟨id, hub⟩ := x
      obtain ⟨id', hub'⟩ := x'
      rw [Rest.perform, Rest.perform, hs, hs']
      refine ⟨rfl, ?_⟩
      change Alike h (r.seats.take h id h) (r'.seats.take h id' h) { r.service with hub }
        { r'.service with hub := hub' }
      rw [Seats.take_self, Seats.take_self]
      exact Service.Alike.subscribe hl ho.regular ho'.regular (ho.taken h) (ho'.taken h) hs hs'
  | @reading _ _ _ _ _ _ g _ i hf hp _ _ =>
    rw [hp, hp]
    obtain ⟨ha, hl'⟩ := hf.alike ho ho' hl i
    exact ⟨congrArg g ha, hl'⟩

/-- Where the subscriptions and their messages come from when an errand is about `o`: a subscription
was there before, or is of that sign-in and has nothing to read; a message was there before, or is
told to that sign-in. -/
def Descends (o : Option Handle) (P : Message → Prop) (hub hub' : Hub) : Prop :=
  ∀ t' ∈ hub'.subscriptions,
    (∃ t ∈ hub.subscriptions, t.handle = t'.handle ∧
      ∀ m ∈ t'.unread, m ∈ t.unread ∨ o = some t'.handle ∧ P m) ∨
    o = some t'.handle ∧ t'.unread = []

theorem descends_of_later {P : Message → Prop} {hub hub' : Hub}
    (hl : Hub.Later (fun k m => o = some k ∧ P m) hub hub') : Descends o P hub hub' := by
  intro t' ht'
  obtain ⟨t, ht, -, hh, hm⟩ := hl.kept t' ht'
  exact .inl ⟨t, ht, hh, hm⟩

theorem descends_of_subscribe {P : Message → Prop} {hub hub' : Hub} {id : Nat} (hr : hub.Regular)
    (hs : hub.subscribe h = .ok (id, hub')) : Descends (some h) P hub hub' := by
  intro t ht
  rw [(Hub.view_subscribe hr hs).2.2.2.2.1, List.mem_append, List.mem_singleton] at ht
  rcases ht with ht | rfl
  · exact .inl ⟨t, ht, rfl, fun _ hm => .inl hm⟩
  · exact .inr ⟨rfl, rfl⟩

theorem Orderly.descends (ho : r.Orderly σ) (q : Errand) : Descends (q.subject r.service)
    (q.tells r.service) r.service.hub (r.perform q).2.service.hub := by
  have hs := q.sorted ho.setup
  generalize q.subject r.service = o at hs
  have hr := ho.regular
  cases hs with
  | call hf hp _ =>
    rw [hp]
    refine descends_of_later (((hf.goes ho.setup).hub hr).mono fun k m hm => ?_)
    exact ⟨congrArg some hm.1.symm, hm.2⟩
  | wait known timeout ht =>
    exact descends_of_later ((Qr.Wait.alone_ends _ _ hr (ht _ ho.setup)).1.hub hr)
  | @watch token h ht =>
    have hr' := ht _ ho.setup
    have hw := Qr.Watch.alone_ends hr'
    rw [Rest.perform, hr']
    generalize Qr.Watch.alone token r.service = x at hw
    cases hw with
    | failed hg _ => exact descends_of_later ((hg _ hr).hub hr)
    | began hs hh _ _ _ => exact hh ▸ descends_of_subscribe hr hs
  | subscribe h =>
    rw [Rest.perform]
    cases hs : r.service.hub.subscribe h with
    | error e => exact descends_of_later (.refl _ _)
    | ok x => exact descends_of_subscribe hr hs
  | reading h i hf hp _ _ =>
    rw [hp]
    exact descends_of_later ((hf.goes _ _ _).hub hr)
  | common hf hp =>
    rw [(hp r ho.setup).1]
    exact descends_of_later ((hf.goes _ _).hub hr)

theorem Only.perform (hr : r.Only h) (ho : r.Orderly σ)
    (hq : ∀ k, q.subject r.service = some k → k = h) : (r.perform q).2.Only h := by
  intro t' ht'
  rcases ho.descends q t' ht' with ⟨t, ht, hh, -⟩ | ⟨hk, -⟩
  · exact hh ▸ hr t ht
  · exact hq _ hk

def Holds (M : Handle → String → Prop) (r : Rest) : Prop :=
  ∀ t ∈ r.service.hub.subscriptions, ∀ m ∈ t.unread, ∀ session, m.sessionToken = some session →
    M t.handle session

def Makes (q : Errand) (s : Service) (h : Handle) (session : String) : Prop :=
  ∃ token own random uid, q = .confirm token own random ∧ Qr.resolve token s = .ok h ∧
    s.authenticate own = .ok uid ∧ s.mint uid random = some (.ok session)

theorem makes_of_tells {m : Message} {session : String} {s : Service}
    (hq : q.subject s = some h) (ht : q.tells s m) (hm : m.sessionToken = some session) :
    Makes q s h session := by
  cases q with
  | confirm token own random =>
    change Qr.Brings random (s.authenticate own) s m at ht
    cases hu : s.authenticate own with
    | error e =>
      rw [hu] at ht
      exact ht.elim
    | ok uid =>
      rw [hu] at ht
      refine ⟨token, own, random, uid, rfl, ?_, hu, ht session hm⟩
      change (Qr.resolve token s).toOption = some h at hq
      cases hr : Qr.resolve token s with
      | error e =>
        rw [hr] at hq
        cases hq
      | ok k =>
        rw [hr] at hq
        cases hq
        rfl
  | _ => cases hm.symm.trans (show m.sessionToken = none from ht)

theorem Holds.perform {M : Handle → String → Prop} (hm : r.Holds M) (ho : r.Orderly σ)
    (q : Errand) : (r.perform q).2.Holds fun h session =>
      M h session ∨ Makes q r.service h session := by
  intro t' ht' m hmem session hs
  rcases ho.descends q t' ht' with ⟨t, ht, hh, hx⟩ | ⟨-, hx⟩
  · rcases hx m hmem with hx | ⟨hq, hx⟩
    · exact .inl (hh ▸ hm t ht m hx session hs)
    · exact .inr (makes_of_tells hq hx hs)
  · rw [hx] at hmem
    cases hmem

/-- A session that comes with an answer waited to be read at the sign-in that was asked about. -/
theorem Holds.session? {M : Handle → String → Prop} (hm : r.Holds M) (ho : r.Orderly σ)
    {session : String} (hs : (r.perform q).1.session? = some session) :
    ∃ h, q.subject r.service = some h ∧ M h session := by
  have hx := q.sorted ho.setup
  generalize q.subject r.service = o at hx
  cases hx with
  | call hf hp hg =>
    rw [hp] at hs
    cases hs.symm.trans (hg _)
  | @wait token _ known timeout ht =>
    have hw := (Qr.Wait.alone_ends (fun _ _ => False) known ho.regular
      (ht _ ho.setup)).2.2
    change (Errand.Reply.waited (some (Qr.Wait.alone token known r.service).1)).session? = _ at hs
    match hx : (Qr.Wait.alone token known r.service).1 with
    | .ok (some m) =>
      rw [hx] at hs
      cases hs.symm.trans (hw m hx)
    | .ok none =>
      rw [hx] at hs
      cases hs
    | .error e =>
      rw [hx] at hs
      cases hs
  | @watch token _ ht =>
    have hw := Qr.Watch.alone_ends (ht _ ho.setup)
    rw [Rest.perform] at hs
    generalize Qr.Watch.alone token r.service = x at hw hs
    cases hw with
    | failed => cases hs
    | began _ _ hn _ _ => cases hs.symm.trans hn
  | subscribe h =>
    rw [Rest.perform] at hs
    cases hx : r.service.hub.subscribe h <;> rw [hx] at hs <;> cases hs
  | @reading _ _ absent _ _ f _ h i hf hp hg hx =>
    rw [hp, Rest.ask] at hs
    refine ⟨h, rfl, ?_⟩
    cases hi : (r.seats h)[i]? with
    | none =>
      rw [hi] at hs
      cases hs.symm.trans hg
    | some id =>
      rw [hi, look, Option.elim_some, hf.answer] at hs
      obtain ⟨p, m, hp, hmem, hmt⟩ := hx _ session hs
      obtain ⟨t, hv, rfl⟩ := Option.map_eq_some_iff.1 hp
      rw [← (ho.seatsOf h id (List.mem_of_getElem? hi) t hv).1]
      exact hm t (Hub.mem_of_view hv) m hmem session hmt
  | common hf hp => cases hs.symm.trans (hp r ho.setup).2

end Rest

end Handoff
