import Handoff.Proofs.Qr.Lifecycle
import Handoff.Proofs.Run.Effect

namespace Handoff

open View

def Qr.Watch.did (before : Service) : Watch → Option (Handle × Deed)
  | reading h _ =>
    match (before.get (P := Session) h).1 with
    | .ok _ => some (h, .read)
    | .error _ => none
  | _ => none

namespace Call

def debt (h : Handle) : Call → Option Qr.Debt
  | scan (.publishing k _) => if k = h then some .scanned else none
  | confirm (.minting _ k _) => if k = h then some .minting else none
  | confirm (.publishing k m _) => if k = h then some (.ending m) else none
  | cancel (.publishing k) => if k = h then some (.ending (.ofStatus .cancelled)) else none
  | _ => none

def did (c : Call) (result : Step Call Answer) (before : Service) : Option (Handle × Qr.Deed) :=
  match c with
  | issue _ _ h _ =>
    match result with
    | .done (.issue (.ok _)) => some (h, .issued)
    | _ => none
  | status token =>
    match result, Qr.resolve token before with
    | .done (.status (.ok _)), .ok h => some (h, .read)
    | _, _ => none
  | scan (.start _) =>
    match result with
    | .more (.scan (.publishing h _)) => some (h, .scanned)
    | _ => none
  | scan (.publishing h _) => some (h, .told (.ofStatus .scanned))
  | confirm (.taking ..) =>
    match result with
    | .more (.confirm (.minting _ h _)) => some (h, .taken)
    | _ => none
  | confirm (.minting uid h random) =>
    match before.mint uid random with
    | some (.ok session) => some (h, .minted session)
    | some (.error _) => some (h, .unminted)
    | none => none
  | confirm (.publishing h m _) => some (h, .told m)
  | cancel (.start _) =>
    match result with
    | .more (.cancel (.publishing h)) => some (h, .deleted)
    | _ => none
  | cancel (.publishing h) => some (h, .told (.ofStatus .cancelled))
  | c => c.watch?.bind (·.did before)

end Call

def Record.did (r : Record) : Option (Handle × Qr.Deed) := r.call.did r.result r.before

def Record.act? (h : Handle) (r : Record) : Option Qr.Act :=
  r.did.bind fun (k, d) => if k = h then some ⟨r.id, r.before.now, d⟩ else none

def acts (h : Handle) (log : List Record) : List Qr.Act := log.filterMap (Record.act? h)

/-- How a step goes with the sign-in under `h`: it does nothing to it, or it is a move. -/
inductive Effect (h : Handle) (s s' : Service) :
    Option Qr.Debt → Option (Handle × Qr.Deed) → Option Qr.Debt → Prop
  | rest {debt : Option Qr.Debt} {did : Option (Handle × Qr.Deed)} :
    Fades s.now (s.view h) (s'.view h) → (∀ d, did ≠ some (h, d)) → Effect h s s' debt did debt
  | move {debt debt' : Option Qr.Debt} {d : Qr.Deed} :
    Qr.Move s.setup.qrTtl s.now (s.view h) debt d (s'.view h) debt' →
    Effect h s s' debt (some (h, d)) debt'

namespace Effect

variable {h k : Handle} {s s' : Service}

theorem elim {debt debt' : Option Qr.Debt} {did : Option (Handle × Qr.Deed)}
    (he : Effect h s s' debt did debt') :
    Fades s.now (s.view h) (s'.view h) ∧ (∀ d, did ≠ some (h, d)) ∧ debt' = debt ∨
    ∃ d, did = some (h, d) ∧
      Qr.Move s.setup.qrTtl s.now (s.view h) debt d (s'.view h) debt' := by
  cases he with
  | rest hf hn => exact .inl ⟨hf, hn, rfl⟩
  | move hm => exact .inr ⟨_, rfl, hm⟩

theorem none {debt : Option Qr.Debt} (hv : Swept s.now s.view s'.view) :
    Effect h s s' debt none debt :=
  .rest (hv h) fun _ hd => by cases hd

theorem at_handle {debt debt' : Option Qr.Debt} {d : Qr.Deed} {o : Option (Entry Qr.Session)}
    (hv : s'.view = Function.update s.view k o)
    (hm : Qr.Move s.setup.qrTtl s.now (s.view k) debt d o debt') :
    Effect h s s' (if k = h then debt else .none) (some (k, d)) (if k = h then debt' else .none) := by
  by_cases hk : k = h
  · subst hk
    rw [if_pos rfl, if_pos rfl]
    apply Effect.move
    rwa [hv, Function.update_self]
  · rw [if_neg hk, if_neg hk]
    apply Effect.rest
    · rw [hv, Function.update_of_ne (Ne.symm hk)]
      exact .refl _ _
    · intro d hd
      cases hd
      exact hk rfl

theorem at_same {debt debt' : Option Qr.Debt} {d : Qr.Deed} (hv : s'.view = s.view)
    (hm : Qr.Move s.setup.qrTtl s.now (s.view k) debt d (s.view k) debt') :
    Effect h s s' (if k = h then debt else .none) (some (k, d)) (if k = h then debt' else .none) :=
  at_handle (hv.trans (Function.update_eq_self k s.view).symm) hm

theorem at_publish {debt : Option Qr.Debt} {d : Qr.Deed} (m : Qr.Message)
    (hm : Qr.Move s.setup.qrTtl s.now (s.view k) debt d (s.view k) .none) :
    Effect h s (s.publish k m) (if k = h then debt else .none) (some (k, d)) .none := by
  have he : Effect h s (s.publish k m) _ (some (k, d)) _ := at_same rfl hm
  rwa [ite_self] at he

theorem at_read {e : Entry Qr.Session} (hv : s'.view = s.view) (he : s.view k = some e)
    (hx : e.isExpired s.now = false) : Effect h s s' .none (some (k, .read)) .none := by
  have hm := at_same (h := h) hv (he ▸ Qr.Move.read hx)
  rwa [ite_self] at hm

theorem lift {C A : Type} {f : C → Call} {g : A → Answer} {x : Step C A × Service}
    {did : Option (Handle × Qr.Deed)} (he : Effect h s x.2 .none did .none)
    (hf : ∀ c, (f c).debt h = .none) (c : C) :
    Effect h s (Step.lift f g x).2 ((f c).debt h) did
      (((Step.lift f g x).1.rest (f c)).bind (Call.debt h)) := by
  have hd : ((x.1.rest c).map f).bind (Call.debt h) = .none := by
    cases x.1.rest c with
    | none => rfl
    | some c => exact hf c
  rw [Step.lift_service, Step.rest_lift, hd, hf]
  exact he

end Effect

def Call.HasEffect (h : Handle) (elapsed : Nat) (c : Call) (s : Service) : Prop :=
  Effect h s (c.step elapsed s).2 (c.debt h) (c.did (c.step elapsed s).1 s)
    (((c.step elapsed s).1.rest c).bind (Call.debt h))

namespace Qr

open Service

variable {h : Handle} {elapsed : Nat} {s : Service} (hs : s.Sound)
include hs

theorem Scan.effect (c : Scan) : (Call.scan c).HasEffect h elapsed s := by
  rw [Call.HasEffect, Call.step]
  have hc := c.stepped s
  generalize c.step s = x at hc
  cases hc with
  | unresolved => exact .none (.refl _ _)
  | untaken _ ht => exact .none (take_error hs.storage hs.now_le ht)
  | taken _ ht =>
    obtain ⟨he, hx, hst, hv⟩ := take_ok hs.storage hs.now_le ht
    have hm := Effect.at_handle (h := h) hv (he ▸ Move.scan hx hst)
    rwa [ite_self] at hm
  | published => exact .at_publish _ .tellScan

theorem Confirm.effect (c : Confirm) : (Call.confirm c).HasEffect h elapsed s := by
  rw [Call.HasEffect, Call.step]
  have hc := c.stepped s
  generalize c.step s = x at hc
  cases hc with
  | rejected | signedIn | unresolved => exact .none (.refl _ _)
  | untaken _ ht => exact .none (take_error hs.storage hs.now_le ht)
  | taken _ ht =>
    obtain ⟨he, hx, hst, hv⟩ := take_ok hs.storage hs.now_le ht
    have hm := Effect.at_handle (h := h) hv (he ▸ Move.take hx hst)
    rwa [ite_self] at hm
  | stalled hm =>
    rw [Call.did, hm]
    exact .none (.refl _ _)
  | unminted hm =>
    rw [Call.did, hm]
    exact .at_same rfl .unmint
  | @minted _ _ _ session hm =>
    rw [Call.did, hm]
    exact .at_same rfl (.mint session)
  | published h m answer => exact .at_publish m .tell

theorem Cancel.effect (c : Cancel) : (Call.cancel c).HasEffect h elapsed s := by
  rw [Call.HasEffect, Call.step]
  have hc := c.stepped s
  generalize c.step s = x at hc
  cases hc with
  | unresolved => exact .none (.refl _ _)
  | deleted _ hd =>
    obtain ⟨hb, hv⟩ := delete_ok hs.storage hd
    obtain ⟨e, he⟩ := Option.isSome_iff_exists.1 hb.symm
    have hm := Effect.at_handle (h := h) hv (he ▸ Move.delete)
    rwa [ite_self] at hm
  | @gone _ k s' _ hd =>
    obtain ⟨hb, hv⟩ := delete_ok hs.storage hd
    have hn : s.storage.view Session k = none := by simpa using hb.symm
    rw [← hn, Function.update_eq_self] at hv
    have hv : s'.view = s.view := hv
    exact .none (hv ▸ .refl _ _)
  | @failed _ _ _ s' _ hd =>
    have hv : s'.view = s.view := delete_error hs.storage hd
    exact .none (hv ▸ .refl _ _)
  | published => exact .at_publish _ .tell

theorem issue_effect (ip agent : String) (k : Handle) (nonce : List UInt8) :
    (Call.issue ip agent k nonce).HasEffect h elapsed s := by
  rw [Call.HasEffect, Call.step]
  generalize hr : Qr.issue ip agent k nonce s = x
  obtain ⟨r, s'⟩ := x
  have hp := Session.fits_pending ip (Text.clip maxAgent (Text.trim agent))
  unfold Qr.issue at hr
  split at hr
  · cases hr
    exact .none (.refl _ _)
  · dsimp only at hr
    split at hr
    · next hr' =>
      cases hr
      have hv : s'.view = s.view := put_error hs.storage hp hr'
      exact .none (hv ▸ .refl _ _)
    · next e _ hr' =>
      cases hr
      obtain ⟨he, ho, hv⟩ := put_ok hs.storage hp hr'
      have hst : (s.storage.kept e).payload.status = .pending := by
        rw [Storage.payload_kept, he]
        rfl
      have hx : (s.storage.kept e).expireAt ≤ Text.addTime s.now s.setup.qrTtl := by
        have hle := Storage.expireAt_kept_le s.storage e
        rwa [he] at hle ⊢
      have hm := Effect.at_handle (h := h) hv (Move.issue ho hst hx)
      rwa [ite_self] at hm

theorem status_effect (token : String) : (Call.status token).HasEffect h elapsed s := by
  rw [Call.HasEffect, Call.step]
  generalize hr : Qr.status token s = x
  obtain ⟨r, s'⟩ := x
  unfold Qr.status at hr
  split at hr
  · cases hr
    exact .none (.refl _ _)
  · next k hk =>
    split at hr
    · next hr' =>
      cases hr
      exact .none (get_error hs.storage hr')
    · next hr' =>
      cases hr
      obtain ⟨he, hx, hv⟩ := get_ok hs.storage hr'
      dsimp only [Call.did]
      rw [hk]
      exact .at_read hv he hx

theorem Watch.effect (w : Watch) {s' : Service} (hv : s'.view = (w.step s).2.view) :
    Effect h s s' none (w.did s) none := by
  have hw := w.stepped s
  generalize w.step s = x at hw hv
  cases hw with
  | unresolved | busy | reserved | attached | caught | lost => exact .none (hv ▸ .refl _ _)
  | @read k id e s'' hr =>
    rw [Watch.did, hr]
    obtain ⟨he, hx, hv'⟩ := get_ok hs.storage hr
    exact .at_read (hv.trans hv') he hx
  | missed hr =>
    rw [Watch.did, hr]
    exact .none (hv ▸ get_error hs.storage hr)
  | @failed k id e s'' hr =>
    rw [Watch.did, hr]
    have hv' : s'.view = s''.view := hv
    exact .none (hv' ▸ get_error hs.storage hr)

omit hs in
theorem advanceChange_view {id : Nat} {known : Status} {c : Change} {s' : Service}
    (hc : advanceChange id known s = (c, s')) : s'.view = s.view := by
  cases hc
  rfl

omit hs in
theorem Wait.view_step (c : Wait) :
    (c.step elapsed s).2.view = ((Call.wait c).watch?.elim s fun w => (w.step s).2).view := by
  have hc := c.stepped elapsed s
  generalize c.step elapsed s = x at hc
  cases hc with
  | watching hw | failed hw | settled hw => rw [Call.watch?, Option.elim_some, hw]
  | answered hw =>
    rw [Call.watch?, Option.elim_some, hw]
    rfl
  | changed ha | ended ha | late ha | waiting ha => exact (advanceChange_view ha :)

omit hs in
theorem Follow.view_step (c : Follow) :
    (c.step s).2.view = ((Call.follow c).watch?.elim s fun w => (w.step s).2).view := by
  have hc := c.stepped s
  generalize c.step s = x at hc
  cases hc with
  | watching hw | failed hw | settled hw => rw [Call.watch?, Option.elim_some, hw]
  | answered hw =>
    rw [Call.watch?, Option.elim_some, hw]
    rfl
  | changed ha | ended ha | waiting ha => exact (advanceChange_view ha :)

theorem waiting_effect {c : Call} {s' : Service}
    (hv : s'.view = (c.watch?.elim s fun w => (w.step s).2).view) :
    Effect h s s' none (c.watch?.bind (·.did s)) none := by
  cases hw : c.watch? with
  | none =>
    rw [hw] at hv
    exact .none (hv ▸ .refl _ _)
  | some w =>
    rw [hw] at hv
    exact Watch.effect hs w hv

theorem Wait.effect (c : Wait) : (Call.wait c).HasEffect h elapsed s :=
  (waiting_effect hs c.view_step).lift (fun _ => rfl) c

theorem Follow.effect (c : Follow) : (Call.follow c).HasEffect h elapsed s :=
  (waiting_effect hs c.view_step).lift (fun _ => rfl) c

end Qr

theorem Service.Beside.effect {h : Handle} {s s' : Service} (hb : s.Beside s') :
    Effect h s s' none none none :=
  .none (hb.view ▸ .refl _ _)

/-- Every step of every call is a move in the life of one sign-in at most. -/
theorem Call.effect {s : Service} (hs : s.Sound) (h : Handle) (elapsed : Nat) (c : Call) :
    c.HasEffect h elapsed s := by
  cases c with
  | issue ip agent k nonce => exact Qr.issue_effect hs ip agent k nonce
  | status token => exact Qr.status_effect hs token
  | scan c => exact c.effect hs
  | confirm c => exact c.effect hs
  | cancel c => exact c.effect hs
  | wait c => exact c.effect hs
  | follow c => exact c.effect hs
  | oauthBegin c => exact (c.access s).beside.effect.lift (fun _ => rfl) c
  | oauthCallback c => exact (c.step_beside s).effect.lift (fun _ => rfl) c
  | peek c => exact (c.access s).beside.effect.lift (fun _ => rfl) c
  | confirmLink c => exact (c.step_beside s).effect.lift (fun _ => rfl) c

end Handoff
