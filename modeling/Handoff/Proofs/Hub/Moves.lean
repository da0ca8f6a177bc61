import Handoff.Proofs.Hub.View
import Handoff.Proofs.Qr.Turns

namespace Handoff

def Qr.Watch.own : Watch → Option Nat
  | reading _ id => some id
  | draining id => some id
  | _ => none

def Call.own : Call → Option Nat
  | wait (.watching w _ _) => w.own
  | wait (.listening id _ _) => some id
  | follow (.watching w) => w.own
  | follow (.listening id _ _) => some id
  | _ => none

namespace Hub

/-- What one step of a call does to the hub: the subscription of the call before, what the step told,
the subscription of the call after it, and the hub then. -/
inductive Move (hub : Hub) : Option Nat → Option (Handle × Qr.Message) → Option Nat → Hub → Prop
  | rest {own : Option Nat} {hub' : Hub} : hub'.view = hub.view → Lasting hub hub' →
    Move hub own none own hub'
  | attach {hub' : Hub} (h : Handle) :
    hub'.view = Function.update hub.view hub.nextId (some ⟨hub.nextId, h, [], true⟩) →
    hub'.nextId = hub.nextId + 1 → h ∈ hub'.topics → hub.topics ⊆ hub'.topics →
    Move hub none none (some hub.nextId) hub'
  | publish {hub' : Hub} (h : Handle) (m : Qr.Message) :
    (∀ id, hub'.view id = (hub.view id).map (heard h m)) → hub'.nextId = hub.nextId →
    (∀ k ∈ hub.topics, k = h ∧ m.status.isTerminal = true ∨ k ∈ hub'.topics) →
    Move hub none (some (h, m)) none hub'
  | read {hub' : Hub} {id : Nat} {s : Subscription} {unread : List Qr.Message} :
    hub.view id = some s → unread <:+ s.unread →
    hub'.view = Function.update hub.view id (some { s with unread }) → Lasting hub hub' →
    Move hub (some id) none (some id) hub'
  | drop {hub' : Hub} {id : Nat} : hub'.view = Function.update hub.view id none →
    Lasting hub hub' → Move hub (some id) none none hub'

theorem Move.refl (hub : Hub) (own : Option Nat) : Move hub own none own hub :=
  .rest rfl (Steady.refl hub).lasting

theorem Move.of_eq {hub hub' : Hub} (h : hub' = hub) (own : Option Nat) :
    Move hub own none own hub' :=
  h ▸ .refl hub own

theorem Move.of_attach {hub : Hub} (hs : hub.Sound) (h : Handle) :
    Move hub none none (some hub.nextId) (hub.attach h).2 := by
  refine .attach h (view_attach hs h) rfl ?_ ?_
  · unfold Hub.attach
    dsimp only
    split
    · assumption
    · exact List.mem_concat_self
  · intro k hk
    unfold Hub.attach
    dsimp only
    split
    · exact hk
    · exact List.mem_append_left _ hk

theorem Move.of_publish {hub : Hub} (hs : hub.Sound) (h : Handle) (m : Qr.Message) :
    Move hub none (some (h, m)) none (hub.publish h m).2 := by
  refine .publish h m (fun id => view_publish m fun s => hs.topic_of_hears)
    (publish_nextId h m hub) ?_
  intro k hk
  rw [publish_topics]
  split
  · next hm =>
    by_cases hkh : k = h
    · exact .inl ⟨hkh, hm⟩
    · exact .inr (List.mem_filter.2 ⟨hk, by simpa using hkh⟩)
  · exact .inr hk

theorem Move.of_drop (id : Nat) (hub : Hub) : Move hub (some id) none none (hub.drop id) :=
  .drop (view_drop id hub) (steady_drop id hub).lasting

theorem Move.drop_of {hub hub' : Hub} {id : Nat} {told : Option (Handle × Qr.Message)}
    (hm : Move hub (some id) told (some id) hub') :
    Move hub (some id) none none (hub'.drop id) := by
  generalize ho : some id = own at hm
  generalize ho' : some id = own' at hm
  cases hm with
  | rest hv hn =>
    subst ho
    refine .drop ?_ (hn.trans (steady_drop id hub'))
    rw [view_drop, hv]
  | publish => cases ho
  | read hs hr hv hn =>
    cases ho
    refine .drop ?_ (hn.trans (steady_drop id hub'))
    rw [view_drop, hv, Function.update_idem]

end Hub

namespace Qr

variable {s : Service}

def Watch.left (w : Watch) : Step Watch (Except Error Watching) → Option Nat
  | .more w => w.own
  | .done (.ok v) => some v.subscription
  | .done (.error _) => none
  | .blocked => w.own

theorem get_hub_of {h : Handle} {r : Except StoreError (Entry Session)} {s' : Service}
    (hr : s.get h = (r, s')) : s'.hub = s.hub := by
  have hg := (Service.within_get h s).2
  rwa [hr] at hg

theorem Watch.hub_move (hh : s.hub.Sound) (w : Watch) :
    Hub.Move s.hub w.own none (w.left (w.step s).1) (w.step s).2.hub := by
  have hw := w.stepped s
  generalize w.step s = x at hw
  have hm {id : Nat} {r : Received} {hub : Hub} (hr : s.hub.receive id = (r, hub)) :
      Hub.Move s.hub (some id) none (some id) hub := by
    cases hv : s.hub.view id with
    | none =>
      rw [Hub.receive_of_none hv] at hr
      cases hr
      exact .refl _ _
    | some t =>
      obtain ⟨-, hw, hn⟩ := Hub.receive_of_view hv
      rw [hr] at hw hn
      exact .read hv (List.tail_suffix _) hw hn.lasting
  cases hw with
  | unresolved | busy => exact .refl _ _
  | @reserved token h hub _ hr =>
    unfold Hub.reserve at hr
    split at hr
    · cases hr
      exact .rest rfl (Hub.Steady.lasting ⟨rfl, rfl⟩)
    · cases hr
  | attached h => exact .of_attach hh h
  | read hr | missed hr => exact .of_eq (get_hub_of hr) _
  | @failed h id e s' hr =>
    have hd : (unsubscribe id s').hub = s.hub.drop id := congrArg (Hub.drop id) (get_hub_of hr)
    exact hd ▸ .of_drop id s.hub
  | caught hr => exact hm hr
  | lost hr => exact (hm hr).drop_of

theorem Watch.own_of_done {w : Watch} {v : Watching} {s' : Service}
    (h : w.step s = (.done (.ok v), s')) : w.own = some v.subscription := by
  have hw := w.stepped s
  rw [h] at hw
  cases hw <;> rfl

theorem Watch.drop_move (hh : s.hub.Sound) {w : Watch} {v : Watching} {s' : Service}
    (h : w.step s = (.done (.ok v), s')) :
    Hub.Move s.hub w.own none none (unsubscribe v.subscription s').hub := by
  have hm := w.hub_move hh
  have ho := Watch.own_of_done h
  rw [h, ho] at hm
  rw [ho]
  exact hm.drop_of

theorem Watch.hub_move_of (hh : s.hub.Sound) {w : Watch}
    {r : Step Watch (Except Error Watching)} {s' : Service} (hw : w.step s = (r, s')) :
    Hub.Move s.hub w.own none (w.left r) s'.hub := by
  have hm := w.hub_move hh
  rwa [hw] at hm

theorem advanceChange_move {id : Nat} {known : Status} {c : Change} {s' : Service}
    (hc : advanceChange id known s = (c, s')) : Hub.Move s.hub (some id) none (some id) s'.hub := by
  cases hv : s.hub.view id with
  | none =>
    rw [advanceChange, nextChange_of_none hv] at hc
    cases hc
    exact .refl _ _
  | some t =>
    obtain ⟨-, hv', hn⟩ := advanceChange_of_view known hv
    rw [hc] at hv' hn
    exact .read hv ((List.tail_suffix _).trans (List.dropWhile_suffix _)) hv' hn.lasting

theorem Wait.hub_move (hh : s.hub.Sound) (elapsed : Nat) (c : Wait) :
    Hub.Move s.hub (Call.wait c).own none
      (((c.step elapsed s).1.rest c).bind fun c => (Call.wait c).own) (c.step elapsed s).2.hub := by
  have hc := c.stepped elapsed s
  generalize c.step elapsed s = x at hc
  cases hc with
  | watching hw => exact Watch.hub_move_of hh hw
  | failed hw => exact Watch.hub_move_of hh hw
  | settled hw => exact Watch.hub_move_of hh hw
  | answered hw => exact Watch.drop_move hh hw
  | waiting ha => exact advanceChange_move ha
  | changed ha => exact (advanceChange_move ha).drop_of
  | ended ha => exact (advanceChange_move ha).drop_of
  | late ha => exact (advanceChange_move ha).drop_of

theorem Follow.hub_move (hh : s.hub.Sound) (c : Follow) :
    Hub.Move s.hub (Call.follow c).own none
      (((c.step s).1.rest c).bind fun c => (Call.follow c).own) (c.step s).2.hub := by
  have hc := c.stepped s
  generalize c.step s = x at hc
  cases hc with
  | watching hw => exact Watch.hub_move_of hh hw
  | failed hw => exact Watch.hub_move_of hh hw
  | settled hw => exact Watch.hub_move_of hh hw
  | answered hw => exact Watch.drop_move hh hw
  | changed ha => exact advanceChange_move ha
  | waiting ha => exact advanceChange_move ha
  | ended ha => exact (advanceChange_move ha).drop_of

end Qr

def Call.told? (c : Call) (result : Step Call Answer) (before : Service) :
    Option (Handle × Qr.Message) :=
  match c.did result before with
  | some (h, .told m) => some (h, m)
  | _ => none

namespace Qr

variable {s : Service}

theorem issue_hub (ip agent : String) (h : Handle) (nonce : List UInt8) (s : Service) :
    (issue ip agent h nonce s).2.hub = s.hub := by
  unfold issue
  split
  · rfl
  · have hp := (Service.within_put h (Session.fits_pending ip (Text.clip maxAgent (Text.trim agent)))
      s.setup.qrTtl s).2
    dsimp only
    split
    · next hr => rwa [hr] at hp
    · next hr => rwa [hr] at hp

theorem status_hub (token : String) : (status token s).2.hub = s.hub := by
  unfold status
  split
  · rfl
  · next h _ =>
    have hg := (Service.within_get h s).2
    split
    · next hr => rwa [hr] at hg
    · next hr => rwa [hr] at hg

theorem Scan.hub_start (token : String) (s : Service) :
    ((Scan.start token).step s).2.hub = s.hub := by
  have hc := (Scan.start token).stepped s
  generalize (Scan.start token).step s = x at hc
  cases hc with
  | unresolved => rfl
  | @untaken _ h e s' hr ht | @taken _ h e s' hr ht =>
    have hw := (Service.within_take h .pending .scanned s).2
    rwa [ht] at hw

theorem Confirm.hub_step {c : Confirm} (hc : ∀ h m answer, c ≠ .publishing h m answer)
    (s : Service) : (c.step s).2.hub = s.hub := by
  have hs := c.stepped s
  generalize c.step s = x at hs
  cases hs with
  | rejected | signedIn | unresolved | stalled | unminted | minted => rfl
  | @untaken uid token random h e s' hr ht | @taken uid token random h e s' hr ht =>
    have hw := (Service.within_take h .scanned .confirmed s).2
    rwa [ht] at hw
  | published h m answer => exact absurd rfl (hc h m answer)

theorem Cancel.hub_start (token : String) (s : Service) :
    ((Cancel.start token).step s).2.hub = s.hub := by
  have hc := (Cancel.start token).stepped s
  generalize (Cancel.start token).step s = x at hc
  cases hc with
  | unresolved => rfl
  | @deleted _ h s' hr hd | @gone _ h s' hr hd | @failed _ h e s' hr hd =>
    have hw := (Service.within_delete h s).2
    rwa [hd] at hw

end Qr

theorem Qr.Watch.did_told (w : Watch) (s : Service) (h : Handle) (m : Message) :
    w.did s ≠ some (h, .told m) := by
  intro hd
  cases w with
  | reading k id =>
    rw [Watch.did] at hd
    split at hd <;> cases hd
  | start | attaching | draining => cases hd

namespace Call

theorem told?_eq_none {c : Call} {result : Step Call Answer} {s : Service}
    (hd : ∀ h m, c.did result s ≠ some (h, .told m)) : c.told? result s = none := by
  unfold told?
  split
  · next h m hm => exact absurd hm (hd h m)
  · rfl

theorem watch?_did_told (c : Call) (s : Service) (h : Handle) (m : Qr.Message) :
    c.watch?.bind (·.did s) ≠ some (h, .told m) := by
  intro hd
  obtain ⟨w, -, hw⟩ := Option.bind_eq_some_iff.1 hd
  exact w.did_told s h m hw

theorem told?_wait (c : Qr.Wait) (result : Step Call Answer) (s : Service) :
    (wait c).told? result s = none :=
  told?_eq_none (watch?_did_told (wait c) s)

theorem told?_follow (c : Qr.Follow) (result : Step Call Answer) (s : Service) :
    (follow c).told? result s = none :=
  told?_eq_none (watch?_did_told (follow c) s)

theorem bind_own_map {C : Type} {f : C → Call} (hf : ∀ c, (f c).own = none) (o : Option C) :
    (o.map f).bind own = none := by
  cases o with
  | none => rfl
  | some c => exact hf c

theorem hub_move_of_lift {C A : Type} {f : C → Call} {g : A → Answer} {c : C} {s : Service}
    {x : Step C A × Service} (hf : ∀ c, (f c).own = none) (hx : x.2.hub = s.hub)
    (hd : ∀ h m, (f c).did (Step.lift f g x).1 s ≠ some (h, .told m)) :
    Hub.Move s.hub (f c).own ((f c).told? (Step.lift f g x).1 s)
      (((Step.lift f g x).1.rest (f c)).bind own) (Step.lift f g x).2.hub := by
  rw [told?_eq_none hd, Step.rest_lift, bind_own_map hf, hf, Step.lift_service, hx]
  exact .refl _ _

theorem hub_move {s : Service} (hh : s.hub.Sound) (elapsed : Nat) (c : Call) :
    Hub.Move s.hub c.own (c.told? (c.step elapsed s).1 s)
      (((c.step elapsed s).1.rest c).bind own) (c.step elapsed s).2.hub := by
  cases c with
  | issue ip agent h nonce =>
    have hd : ∀ k m, (issue ip agent h nonce).did ((issue ip agent h nonce).step elapsed s).1 s ≠
        some (k, .told m) := by
      intro k m hd
      dsimp only [did] at hd
      split at hd <;> cases hd
    rw [told?_eq_none hd]
    exact .of_eq (Qr.issue_hub ..) none
  | status token =>
    have hd : ∀ k m, (status token).did ((status token).step elapsed s).1 s ≠
        some (k, .told m) := by
      intro k m hd
      dsimp only [did] at hd
      split at hd <;> cases hd
    rw [told?_eq_none hd]
    exact .of_eq (Qr.status_hub token) none
  | scan c =>
    cases c with
    | start token =>
      apply hub_move_of_lift (fun _ => rfl) (Qr.Scan.hub_start token s)
      intro k m hd
      dsimp only [did] at hd
      split at hd <;> cases hd
    | publishing h before => exact .of_publish hh h _
  | confirm c =>
    cases c with
    | start token session random =>
      apply hub_move_of_lift (fun _ => rfl) (Qr.Confirm.hub_step (by rintro _ _ _ ⟨⟩) s)
      intro k m hd
      cases hd
    | taking uid token random =>
      apply hub_move_of_lift (fun _ => rfl) (Qr.Confirm.hub_step (by rintro _ _ _ ⟨⟩) s)
      intro k m hd
      dsimp only [did] at hd
      split at hd <;> cases hd
    | minting uid h random =>
      apply hub_move_of_lift (fun _ => rfl) (Qr.Confirm.hub_step (by rintro _ _ _ ⟨⟩) s)
      intro k m hd
      dsimp only [did] at hd
      split at hd <;> cases hd
    | publishing h m answer => exact .of_publish hh h m
  | cancel c =>
    cases c with
    | start token =>
      apply hub_move_of_lift (fun _ => rfl) (Qr.Cancel.hub_start token s)
      intro k m hd
      dsimp only [did] at hd
      split at hd <;> cases hd
    | publishing h => exact .of_publish hh h _
  | wait c =>
    have hm := Qr.Wait.hub_move hh elapsed c
    rw [Call.step, Step.rest_lift, Step.lift_service, Option.bind_map, told?_wait]
    exact hm
  | follow c =>
    have hm := Qr.Follow.hub_move hh c
    rw [Call.step, Step.rest_lift, Step.lift_service, Option.bind_map, told?_follow]
    exact hm
  | oauthBegin c =>
    exact hub_move_of_lift (fun _ => rfl) (c.access s).beside.hub (by rintro _ _ ⟨⟩)
  | oauthCallback c =>
    exact hub_move_of_lift (fun _ => rfl) (c.step_beside s).hub (by rintro _ _ ⟨⟩)
  | peek c =>
    exact hub_move_of_lift (fun _ => rfl) (c.access s).beside.hub (by rintro _ _ ⟨⟩)
  | confirmLink c =>
    exact hub_move_of_lift (fun _ => rfl) (c.step_beside s).hub (by rintro _ _ ⟨⟩)

end Call

end Handoff
