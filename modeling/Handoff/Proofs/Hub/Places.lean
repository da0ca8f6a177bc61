import Handoff.Proofs.Hub.Streams

namespace Handoff

def Qr.Watch.places : Watch → Nat
  | start _ => 0
  | _ => 1

def Qr.Watch.placesLeft (w : Watch) : Step Watch (Except Error Watching) → Nat
  | .more w => w.places
  | .done (.ok _) => 1
  | .done (.error _) => 0
  | .blocked => w.places

namespace Call

def places : Call → Nat
  | wait (.watching w _ _) => w.places
  | wait (.listening ..) => 1
  | follow (.watching w) => w.places
  | follow (.listening ..) => 1
  | _ => 0

def placesOf (o : Option Call) : Nat := o.elim 0 places

/-- The call has the place and the subscription that it goes by. -/
structure Placed (c : Call) (hub : Hub) : Prop where
  own : ∀ id, c.own = some id → ∃ t, hub.view id = some t
  places_le : c.places ≤ hub.active

end Call

namespace Hub

variable {hub hub' : Hub} {id : Nat} {t : Subscription}

theorem active_receive (id : Nat) (hub : Hub) : (hub.receive id).2.active = hub.active := by
  unfold receive
  split
  · rfl
  · split <;> rfl

theorem active_drop (ht : hub.view id = some t) (ha : 1 ≤ hub.active) :
    (hub.drop id).active + 1 = hub.active := by
  have hf : hub.find? id = some t := ht
  rw [drop, hf]
  exact Nat.sub_add_cancel ha

theorem view_receive (ht : hub.view id = some t) : ∃ t, (hub.receive id).2.view id = some t := by
  rw [(receive_of_view ht).2.1, Function.update_self]
  exact ⟨_, rfl⟩

theorem Move.alive {own own' : Option Nat} {told : Option (Handle × Qr.Message)}
    (hs : hub.Sound) (hm : Move hub own told own' hub')
    (ho : ∀ id, own = some id → ∃ t, hub.view id = some t) :
    ∀ id, own' = some id → ∃ t, hub'.view id = some t :=
  fun id hid => ((hm.touch hs id).1.alive (ho id) hid).1

end Hub

namespace Qr

variable {s s' : Service} {id : Nat}

theorem active_nextChange (id : Nat) (known : Status) (n : Nat) (hub : Hub) :
    (nextChange id known n hub).2.active = hub.active := by
  induction n generalizing hub with
  | zero => rfl
  | succ n ih =>
    have ha := Hub.active_receive id hub
    rw [nextChange]
    generalize hub.receive id = x at ha
    obtain ⟨r, hub'⟩ := x
    cases r with
    | message m =>
      dsimp only
      split
      · exact ha
      · exact (ih hub').trans ha
    | nothing | closed => exact ha

theorem active_advanceChange {known : Status} {c : Change}
    (hc : advanceChange id known s = (c, s')) : s'.hub.active = s.hub.active := by
  have ha : (advanceChange id known s).2.hub.active = s.hub.active := by
    unfold advanceChange
    exact active_nextChange ..
  rwa [hc] at ha

theorem active_unsubscribe {t : Subscription} (ht : s.hub.view id = some t)
    (ha : 1 ≤ s.hub.active) : (unsubscribe id s).hub.active + 1 = s.hub.active :=
  Hub.active_drop ht ha

namespace Watch

variable {w : Watch} (ho : ∀ id, w.own = some id → ∃ t, s.hub.view id = some t)
  (hl : w.places ≤ s.hub.active)
include ho hl

theorem places_step :
    (w.step s).2.hub.active + w.places = s.hub.active + w.placesLeft (w.step s).1 := by
  have hw := w.stepped s
  generalize w.step s = x at hw
  cases hw with
  | unresolved | busy | attached => rfl
  | reserved _ hr =>
    unfold Hub.reserve at hr
    split at hr
    · cases hr
      rfl
    · cases hr
  | read hr | missed hr =>
    have hh := get_hub_of hr
    exact hh ▸ rfl
  | @failed h id e s' hr =>
    have hh := get_hub_of hr
    obtain ⟨t, ht⟩ := ho id rfl
    rw [← hh] at ht hl ⊢
    exact active_unsubscribe ht hl
  | @caught id m hub hr =>
    have ha := Hub.active_receive id s.hub
    rw [hr] at ha
    exact congrArg (· + 1) ha
  | @lost id r hub hr =>
    obtain ⟨t, ht⟩ := ho id rfl
    have ha := Hub.active_receive id s.hub
    obtain ⟨t', ht'⟩ := Hub.view_receive ht
    rw [hr] at ha ht'
    rw [← ha] at hl ⊢
    exact active_unsubscribe (s := { s with hub }) ht' hl

theorem places_step_of {r : Step Watch (Except Error Watching)} (hw : w.step s = (r, s')) :
    s'.hub.active + w.places = s.hub.active + w.placesLeft r := by
  have hk := places_step ho hl
  rwa [hw] at hk

omit hl in
theorem alive_of_done (hh : s.hub.Sound) {v : Watching} (hw : w.step s = (.done (.ok v), s')) :
    ∃ t, s'.hub.view v.subscription = some t := by
  have hm := Watch.hub_move_of hh hw
  exact hm.alive hh ho _ rfl

theorem places_unsubscribe (hh : s.hub.Sound) {v : Watching}
    (hw : w.step s = (.done (.ok v), s')) :
    (unsubscribe v.subscription s').hub.active + w.places = s.hub.active := by
  have hst := places_step_of ho hl hw
  obtain ⟨t, ht⟩ := alive_of_done ho hh hw
  have hown := Watch.own_of_done hw
  have hone : w.places = 1 := by
    cases w with
    | start | attaching => cases hown
    | reading | draining => rfl
  rw [hone] at hst
  have ha : s'.hub.active = s.hub.active := Nat.succ.inj hst
  rw [hone] at hl ⊢
  rw [← ha] at hl ⊢
  exact active_unsubscribe ht hl

end Watch

theorem places_advanceChange {known : Status} {c : Change} {t : Subscription}
    (ht : s.hub.view id = some t) (ha : 1 ≤ s.hub.active)
    (hc : advanceChange id known s = (c, s')) :
    (unsubscribe id s').hub.active + 1 = s.hub.active := by
  obtain ⟨-, hv, -⟩ := advanceChange_of_view known ht
  have he := active_advanceChange hc
  rw [hc] at hv
  have ht' := congrFun hv id
  rw [Function.update_self] at ht'
  rw [← he] at ha ⊢
  exact active_unsubscribe ht' ha

section Waiting

variable (hh : s.hub.Sound)
include hh

theorem Wait.places_step {c : Wait} (hc : (Call.wait c).Placed s.hub) (elapsed : Nat) :
    (c.step elapsed s).2.hub.active + (Call.wait c).places =
      s.hub.active + Call.placesOf (((c.step elapsed s).1.rest c).map .wait) := by
  have hst := c.stepped elapsed s
  generalize c.step elapsed s = x at hst
  cases hst with
  | watching hw => exact Watch.places_step_of hc.own hc.places_le hw
  | failed hw => exact Watch.places_step_of hc.own hc.places_le hw
  | settled hw => exact Watch.places_step_of hc.own hc.places_le hw
  | answered hw => exact Watch.places_unsubscribe hc.own hc.places_le hh hw
  | waiting hx => exact congrArg (· + 1) (active_advanceChange hx)
  | changed hx | ended hx | late hx =>
    obtain ⟨t, ht⟩ := hc.own _ rfl
    exact places_advanceChange ht hc.places_le hx

theorem Follow.places_step {c : Follow} (hc : (Call.follow c).Placed s.hub) :
    (c.step s).2.hub.active + (Call.follow c).places =
      s.hub.active + Call.placesOf (((c.step s).1.rest c).map .follow) := by
  have hst := c.stepped s
  generalize c.step s = x at hst
  cases hst with
  | watching hw => exact Watch.places_step_of hc.own hc.places_le hw
  | failed hw => exact Watch.places_step_of hc.own hc.places_le hw
  | settled hw => exact Watch.places_step_of hc.own hc.places_le hw
  | answered hw => exact Watch.places_unsubscribe hc.own hc.places_le hh hw
  | changed hx => exact congrArg (· + 1) (active_advanceChange hx)
  | waiting hx => exact congrArg (· + 1) (active_advanceChange hx)
  | ended hx =>
    obtain ⟨t, ht⟩ := hc.own _ rfl
    exact places_advanceChange ht hc.places_le hx

end Waiting

end Qr

namespace Call

variable {s : Service}

theorem places_lift {C A : Type} {f : C → Call} {g : A → Answer} {c : C} {x : Step C A × Service}
    (hf : ∀ c, (f c).places = 0) (hx : x.2.hub.active = s.hub.active) :
    (Step.lift f g x).2.hub.active + (f c).places =
      s.hub.active + placesOf ((Step.lift f g x).1.rest (f c)) := by
  rw [Step.lift_service, Step.rest_lift, hf, hx]
  cases x.1.rest c with
  | none => rfl
  | some d => exact congrArg _ (hf d).symm

theorem places_step (hh : s.hub.Sound) {c : Call} (hc : c.Placed s.hub)
    (elapsed : Nat) : (c.step elapsed s).2.hub.active + c.places =
      s.hub.active + placesOf ((c.step elapsed s).1.rest c) := by
  cases c with
  | issue ip agent h nonce => exact congrArg Hub.active (Qr.issue_hub ip agent h nonce s)
  | status token => exact congrArg Hub.active (Qr.status_hub token)
  | scan c =>
    refine places_lift (fun _ => rfl) ?_
    cases c with
    | start token => exact congrArg Hub.active (Qr.Scan.hub_start token s)
    | publishing => exact Hub.publish_active ..
  | confirm c =>
    refine places_lift (fun _ => rfl) ?_
    cases c with
    | start | taking | minting =>
      exact congrArg Hub.active (Qr.Confirm.hub_step (by rintro _ _ _ ⟨⟩) s)
    | publishing => exact Hub.publish_active ..
  | cancel c =>
    refine places_lift (fun _ => rfl) ?_
    cases c with
    | start token => exact congrArg Hub.active (Qr.Cancel.hub_start token s)
    | publishing => exact Hub.publish_active ..
  | wait c =>
    rw [step, Step.rest_lift, Step.lift_service]
    exact Qr.Wait.places_step hh hc elapsed
  | follow c =>
    rw [step, Step.rest_lift, Step.lift_service]
    exact Qr.Follow.places_step hh hc
  | oauthBegin c => exact places_lift (fun _ => rfl) (congrArg Hub.active (c.access s).beside.hub)
  | oauthCallback c => exact places_lift (fun _ => rfl) (congrArg Hub.active (c.step_beside s).hub)
  | peek c => exact places_lift (fun _ => rfl) (congrArg Hub.active (c.access s).beside.hub)
  | confirmLink c => exact places_lift (fun _ => rfl) (congrArg Hub.active (c.step_beside s).hub)

theorem places_leave {c : Call} (hc : c.Placed s.hub) {s' : Service} (hl : c.leave? s = some s') :
    s'.hub.active + c.places = s.hub.active := by
  cases c with
  | wait c | follow c =>
    cases c with
    | watching w =>
      cases hl
      cases w with
      | start => rfl
      | attaching => exact Nat.sub_add_cancel hc.places_le
      | reading | draining =>
        obtain ⟨t, ht⟩ := hc.own _ rfl
        exact Qr.active_unsubscribe ht hc.places_le
    | listening =>
      cases hl
      obtain ⟨t, ht⟩ := hc.own _ rfl
      exact Qr.active_unsubscribe ht hc.places_le
  | issue | status | scan | confirm | cancel | oauthBegin | oauthCallback | peek | confirmLink =>
    cases hl

end Call

end Handoff
