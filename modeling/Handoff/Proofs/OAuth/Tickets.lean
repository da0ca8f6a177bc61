import Handoff.Proofs.Rendezvous.Ticket
import Handoff.Proofs.Run.History

namespace Handoff

open View

namespace Ticket

class Issuing (P : Type) where
  Bears : Handle → Call → Prop
  did : Call → Step Call Answer → Service → Option (Handle × Deed P)

structure Rests (P : Type) {S : Type} [Stage S] [Staged P S] [Shelved P] [Staged.Lawful P]
    (s s' : Service) : Prop where
  swept : Swept s.now (s.storage.view P) (s'.storage.view P)
  sound : s.storage.Sound P → s'.storage.Sound P

section Rests

variable {P Q S T : Type} [Stage S] [Staged P S] [Shelved P] [Stage T] [Staged Q T] [Shelved Q]
  [Staged.Lawful Q] {s s' : Service}

theorem Rests.of_aside [Apart P Q] (ha : s.storage.Aside P s'.storage) : Rests Q s s' :=
  ⟨ha.view Q ▸ .refl _ _, ha.sound Q⟩

theorem Rests.of_storage (hs : s'.storage = s.storage) : Rests Q s s' :=
  ⟨hs ▸ .refl _ _, fun h => hs ▸ h⟩

end Rests

/-- How a step goes with the entry under the handle: whether the call was to store it, what it did,
and whether it still is to store it. -/
inductive Effect (P : Type) [Staged P OneShot] [Shelved P] (h : Handle) (s s' : Service)
    (b : Prop) : Option (Handle × Deed P) → Prop → Prop
  | rest {did : Option (Handle × Deed P)} {b' : Prop} :
    Fades s.now (s.storage.view P h) (s'.storage.view P h) → (∀ d, did ≠ some (h, d)) →
    (b' → b) → Effect P h s s' b did b'
  | store {kept : Entry P} {b' : Prop} : b → s'.storage.view P h = some kept → ¬b' →
    Effect P h s s' b (some (h, .stored kept)) b'
  | use {e : Entry P} {b' : Prop} : s.storage.view P h = some e → e.isExpired s.now = false →
    s'.storage.view P h = none → (b' → b) → Effect P h s s' b (some (h, .used s.now)) b'

variable {P : Type} [Staged P OneShot] [Shelved P] {h k : Handle} {s s' : Service}

theorem Effect.of_swept {b b' : Prop} (hv : Swept s.now (s.storage.view P) (s'.storage.view P))
    (hb : b' → b) : Effect P h s s' b none b' :=
  .rest (hv h) (by rintro d ⟨⟩) hb

theorem Effect.of_stored {kept : Entry P} {b' : Prop}
    (hv : s'.storage.view P = Function.update (s.storage.view P) k (some kept)) (hb : ¬b') :
    Effect P h s s' (k = h) (some (k, .stored kept)) b' := by
  by_cases hk : k = h
  · subst hk
    exact .store rfl (by rw [hv, Function.update_self]) hb
  · refine .rest ?_ ?_ (fun hb' => absurd hb' hb)
    · rw [hv, Function.update_of_ne (Ne.symm hk)]
      exact .refl _ _
    · rintro d ⟨⟩
      exact hk rfl

theorem Effect.of_used {e : Entry P} {b b' : Prop} (he : s.storage.view P k = some e)
    (hx : e.isExpired s.now = false)
    (hv : s'.storage.view P = Function.update (s.storage.view P) k none) (hb : b' → b) :
    Effect P h s s' b (some (k, .used s.now)) b' := by
  by_cases hk : k = h
  · subst hk
    exact .use he hx (by rw [hv, Function.update_self]) hb
  · refine .rest ?_ ?_ hb
    · rw [hv, Function.update_of_ne (Ne.symm hk)]
      exact .refl _ _
    · rintro d ⟨⟩
      exact hk rfl

def HasEffect (P : Type) [Staged P OneShot] [Shelved P] [Issuing P] (h : Handle) (elapsed : Nat)
    (c : Call) (s : Service) : Prop :=
  Effect P h s (c.step elapsed s).2 (Issuing.Bears P h c)
    (Issuing.did c (c.step elapsed s).1 s)
    (∃ c' ∈ (c.step elapsed s).1.rest c, Issuing.Bears P h c')

class Lawful (P : Type) [Staged P OneShot] [Shelved P] [Staged.Lawful P] [Issuing P] : Prop where
  drawn {h : Handle} {c : Call} : c.isStart = true → Issuing.Bears P h c → h ∈ c.handles
  effect {s : Service} : s.storage.Sound P → s.now ≤ Text.maxWord →
    ∀ (h : Handle) (elapsed : Nat) (c : Call), HasEffect P h elapsed c s
  sound {s : Service} : s.storage.Sound P → s.now ≤ Text.maxWord →
    ∀ (elapsed : Nat) (c : Call), (c.step elapsed s).2.storage.Sound P
  sweep {s : Service} : s.storage.Sound P →
    ∀ t : Service.Target, Rests P s (s.sweepTarget t).2

omit [Staged P OneShot] [Shelved P] in
theorem not_bears_rest [Issuing P] {C A : Type} {f : C → Call} {g : A → Answer}
    (hf : ∀ c, ¬Issuing.Bears P h (f c)) (c : C) (x : Step C A × Service) :
    ¬∃ c' ∈ (Step.lift f g x).1.rest (f c), Issuing.Bears P h c' := by
  rintro ⟨c', hc, hb⟩
  rw [Step.rest_lift, Option.mem_map] at hc
  obtain ⟨d, -, rfl⟩ := hc
  exact hf d hb

theorem Effect.of_rests [Staged.Lawful P] {did : Option (Handle × Deed P)} {b b' : Prop}
    (hr : Rests P s s') (hd : did = none) (hb : b' → b) : Effect P h s s' b did b' :=
  hd ▸ .of_swept hr.swept hb

section Aside

/-! Calls that work on the entries of another payload. -/

variable [Staged.Lawful P] [Issuing P] {Q T : Type} [Stage T] [Staged Q T] [Shelved Q] [Apart Q P]
  {elapsed : Nat}

theorem effect_of_aside {C A : Type} {f : C → Call} {g : A → Answer} {c : C}
    {x : Step C A × Service} (ha : s.storage.Aside Q x.2.storage)
    (hc : (f c).step elapsed s = Step.lift f g x) (hf : ∀ c, ¬Issuing.Bears P h (f c))
    (hd : ∀ r, Issuing.did (P := P) (f c) r s = none) : HasEffect P h elapsed (f c) s := by
  have hb := not_bears_rest (g := g) hf c x
  rw [← Step.lift_service f g, ← hc] at ha
  rw [HasEffect]
  refine .of_rests (.of_aside ha) (hd _) fun h => absurd h ?_
  rwa [hc]

theorem effect_of_isQr [Apart Qr.Session P] {c : Call} (hc : c.isQr = true)
    (hb : ∀ c, c.isQr = true → ¬Issuing.Bears P h c)
    (hd : ∀ r, Issuing.did (P := P) c r s = none) : HasEffect P h elapsed c s := by
  refine .of_rests (.of_aside (Call.within hc elapsed s).aside) (hd _) ?_
  rintro ⟨c', hc', hb'⟩
  exact absurd hb' (hb c' ((Call.isQr_rest hc').trans hc))

end Aside

end Ticket

namespace OAuth

open Ticket Service

variable {s : Service} {h : Handle} {elapsed : Nat}

section State

instance : Issuing State where
  Bears h
    | .oauthBegin (.start _ _ k) => k = h
    | .oauthBegin (.storing _ _ k) => k = h
    | _ => False
  did c result before :=
    match c with
    | .oauthBegin (.storing action uid h) =>
      match result with
      | .done (.oauthBegin (.ok _)) => some (h, .stored
          (before.storage.kept ⟨h, before.now, before.setup.oauthTtl, ⟨.issued, action, uid⟩⟩))
      | _ => none
    | .oauthCallback (.start state ..) =>
      match result with
      | .more (.oauthCallback (.exchanging ..)) =>
        (Handle.parse state stateBytes).map (·, .used before.now)
      | _ => none
    | _ => none

theorem storage_linkUser {s' : Service} {uid : Int64} {i : Identity}
    (hl : s.linkUser uid i = (.ok (), s')) : s'.storage = s.storage := by
  rw [(linkUser_ok hl).2]

theorem precheck_ok {state code code' : String} {denied : Option String}
    (hp : precheck state code denied s = .ok (h, code')) :
    Handle.parse state stateBytes = some h ∧ s.setup.oauth.isSome = true := by
  unfold precheck at hp
  split at hp
  · cases hp
  · next ho =>
    split at hp
    · cases hp
    · split at hp
      · next hh =>
        cases hp
        exact ⟨hh, by simpa [Option.isSome_iff_ne_none] using ho⟩
      · cases hp

theorem Begin.state_effect (hs : s.storage.Sound State) (c : Begin) :
    HasEffect State h elapsed (.oauthBegin c) s := by
  rw [HasEffect, Call.step]
  have hc := c.stepped s
  generalize c.step s = x at hc
  cases hc with
  | failed =>
    refine .of_rests (.of_storage rfl) (by cases c <;> rfl) ?_
    rintro ⟨c', ⟨⟩, -⟩
  | login | link =>
    refine .of_rests (.of_storage rfl) rfl ?_
    rintro ⟨c', ⟨⟩, hb⟩
    exact hb
  | stored hr =>
    obtain ⟨rfl, -, hv⟩ := put_ok hs trivial hr
    refine .of_stored hv ?_
    rintro ⟨c', ⟨⟩, -⟩
  | unstored hr =>
    have hv := put_error hs trivial hr
    refine .of_swept (hv ▸ .refl _ _) ?_
    rintro ⟨c', ⟨⟩, -⟩

theorem Callback.state_effect (hs : s.storage.Sound State) (hn : s.now ≤ Text.maxWord)
    (c : Callback) : HasEffect State h elapsed (.oauthCallback c) s := by
  rw [HasEffect, Call.step]
  have hb := not_bears_rest (P := State) (h := h) (f := Call.oauthCallback)
    (g := Answer.oauthCallback) (fun _ => id) c (c.step s)
  have hc := c.stepped s
  generalize c.step s = x at hb hc
  have hb' {b : Prop} := fun h => absurd (b := b) h hb
  cases hc with
  | taken hp ht =>
    obtain ⟨he, hx, -, hv⟩ := take_ok hs hn ht
    dsimp only [Issuing.did, Step.lift]
    rw [(precheck_ok hp).1]
    exact .of_used he hx hv hb'
  | untaken _ ht => exact .of_swept (take_error hs hn ht) hb'
  | stored hr => exact .of_rests (.of_aside (access_put hr).aside) rfl hb'
  | unstored hr => exact .of_rests (.of_aside (access_put hr).aside) rfl hb'
  | linked hl => exact .of_rests (.of_storage (storage_linkUser hl)) rfl hb'
  | failed => exact .of_rests (.of_storage rfl) (by cases c <;> rfl) hb'
  | rejected | unconfigured | linking | searching | found | unknown | stalled | minted | matched =>
    exact .of_rests (.of_storage rfl) rfl hb'

theorem Begin.state_sound (hs : s.storage.Sound State) (c : Begin) :
    (c.step s).2.storage.Sound State := by
  have hc := c.stepped s
  generalize c.step s = x at hc
  cases hc with
  | failed | login | link => exact hs
  | stored hr => exact sound_put hs trivial hr
  | unstored hr => exact sound_put hs trivial hr

theorem Callback.state_sound (hs : s.storage.Sound State) (hn : s.now ≤ Text.maxWord)
    (c : Callback) : (c.step s).2.storage.Sound State := by
  have hc := c.stepped s
  generalize c.step s = x at hc
  cases hc with
  | taken _ ht => exact sound_take hs hn ht
  | untaken _ ht => exact sound_take hs hn ht
  | stored hr => exact (access_put hr).aside.sound State hs
  | unstored hr => exact (access_put hr).aside.sound State hs
  | linked hl => exact storage_linkUser hl ▸ hs
  | rejected | unconfigured | failed | linking | searching | found | unknown | stalled | minted
  | matched => exact hs

theorem ConfirmLink.aside_step (c : ConfirmLink) (s : Service) :
    s.storage.Aside PendingLink (c.step s).2.storage := by
  have hc := c.stepped s
  generalize c.step s = x at hc
  cases hc with
  | taken _ ht => exact (access_take ht).aside
  | untaken _ ht => exact (access_take ht).aside
  | linked hl => exact storage_linkUser hl ▸ .refl _
  | failed | stalled | minted => exact .refl _

instance : Lawful State where
  drawn {h c} hc hb := by
    cases c with
    | oauthBegin c =>
      cases c with
      | start action session k => exact List.mem_singleton.2 (Eq.symm hb)
      | storing => cases hc
    | issue | status | scan | confirm | cancel | wait | follow | oauthCallback | peek
    | confirmLink => cases hb
  effect {s} hs hn h elapsed c := by
    have hq (c : Call) (hc : c.isQr = true) (hb : Issuing.Bears State h c) : False := by
      cases c with
      | oauthBegin | oauthCallback | peek | confirmLink => cases hc
      | issue | status | scan | confirm | cancel | wait | follow => exact hb
    cases c with
    | issue | status | scan | confirm | cancel | wait | follow =>
      exact effect_of_isQr rfl hq fun _ => rfl
    | oauthBegin c => exact c.state_effect hs
    | oauthCallback c => exact c.state_effect hs hn
    | peek c => exact effect_of_aside (c.access s).aside rfl (fun _ => id) fun _ => rfl
    | confirmLink c => exact effect_of_aside (c.aside_step s) rfl (fun _ => id) fun _ => rfl
  sound {s} hs hn elapsed c := by
    cases c with
    | issue | status | scan | confirm | cancel | wait | follow =>
      exact (Call.within rfl elapsed s).aside.sound State hs
    | oauthBegin c => exact Step.lift_service _ _ (c.step s) ▸ c.state_sound hs
    | oauthCallback c => exact Step.lift_service _ _ (c.step s) ▸ c.state_sound hs hn
    | peek c => exact Step.lift_service _ _ (c.step s) ▸ (c.access s).aside.sound State hs
    | confirmLink c => exact Step.lift_service _ _ (c.step s) ▸ (c.aside_step s).sound State hs
  sweep {s} hs t := by
    cases t with
    | topics => exact .of_storage rfl
    | store kind =>
      cases kind with
      | qrSession => exact .of_aside (access_sweep Qr.Session s).aside
      | oauthState => exact ⟨swept hs, fun _ => sound_sweep hs⟩
      | pendingLink => exact .of_aside (access_sweep PendingLink s).aside

end State

section PendingLink

instance : Issuing PendingLink where
  Bears h
    | .oauthCallback (.start _ _ _ chance) => chance.link = h
    | .oauthCallback (.exchanging _ _ chance) => chance.link = h
    | .oauthCallback (.searching _ chance) => chance.link = h
    | .oauthCallback (.matching _ chance) => chance.link = h
    | .oauthCallback (.storing _ _ k) => k = h
    | _ => False
  did c result before :=
    match c with
    | .oauthCallback (.storing uid i h) =>
      match result with
      | .done (.oauthCallback (.ok _)) => some (h, .stored
          (before.storage.kept ⟨h, before.now, before.setup.oauthTtl, ⟨.issued, uid, i⟩⟩))
      | _ => none
    | .confirmLink (.start token _) =>
      match result with
      | .more (.confirmLink (.linking ..)) =>
        (Handle.parse token linkBytes).map (·, .used before.now)
      | _ => none
    | _ => none

theorem Callback.link_effect (hs : s.storage.Sound PendingLink) (c : Callback) :
    HasEffect PendingLink h elapsed (.oauthCallback c) s := by
  rw [HasEffect, Call.step]
  have hc := c.stepped s
  generalize c.step s = x at hc
  cases hc with
  | taken _ ht =>
    refine .of_rests (.of_aside (access_take ht).aside) rfl ?_
    rintro ⟨c', ⟨⟩, hb⟩
    exact hb
  | untaken _ ht =>
    refine .of_rests (.of_aside (access_take ht).aside) rfl ?_
    rintro ⟨c', ⟨⟩, -⟩
  | stored hr =>
    obtain ⟨rfl, -, hv⟩ := put_ok hs trivial hr
    refine .of_stored hv ?_
    rintro ⟨c', ⟨⟩, -⟩
  | unstored hr =>
    have hv := put_error hs trivial hr
    refine .of_swept (hv ▸ .refl _ _) ?_
    rintro ⟨c', ⟨⟩, -⟩
  | linked hl =>
    refine .of_rests (.of_storage (storage_linkUser hl)) rfl ?_
    rintro ⟨c', ⟨⟩, -⟩
  | failed =>
    refine .of_rests (.of_storage rfl) (by cases c <;> rfl) ?_
    rintro ⟨c', ⟨⟩, -⟩
  | rejected | unconfigured | minted =>
    refine .of_rests (.of_storage rfl) rfl ?_
    rintro ⟨c', ⟨⟩, -⟩
  | linking | found =>
    refine .of_rests (.of_storage rfl) rfl ?_
    rintro ⟨c', ⟨⟩, ⟨⟩⟩
  | searching | unknown | stalled | matched =>
    refine .of_rests (.of_storage rfl) rfl ?_
    rintro ⟨c', ⟨⟩, hb⟩
    exact hb

theorem Peek.swept (hs : s.storage.Sound PendingLink) (c : Peek) :
    Swept s.now (s.storage.view PendingLink) ((c.step s).2.storage.view PendingLink) := by
  have hc := c.stepped s
  generalize c.step s = x at hc
  cases hc with
  | failed | shown => exact .refl _ _
  | missed _ hr => exact get_error hs hr
  | seen _ hr =>
    rw [(get_ok hs hr).2.2]
    exact .refl _ _

theorem Peek.link_effect (hs : s.storage.Sound PendingLink) (c : Peek) :
    HasEffect PendingLink h elapsed (.peek c) s := by
  have hb := not_bears_rest (P := PendingLink) (h := h) (f := Call.peek) (g := Answer.peek)
    (fun _ => id) c (c.step s)
  rw [HasEffect, Call.step, Step.lift_service]
  exact .of_swept (c.swept hs) fun h => absurd h hb

theorem ConfirmLink.link_effect (hs : s.storage.Sound PendingLink) (hn : s.now ≤ Text.maxWord)
    (c : ConfirmLink) : HasEffect PendingLink h elapsed (.confirmLink c) s := by
  rw [HasEffect, Call.step]
  have hb := not_bears_rest (P := PendingLink) (h := h) (f := Call.confirmLink)
    (g := Answer.confirmLink) (fun _ => id) c (c.step s)
  have hc := c.stepped s
  generalize c.step s = x at hb hc
  have hb' {b : Prop} := fun h => absurd (b := b) h hb
  cases hc with
  | taken hh ht =>
    obtain ⟨he, hx, -, hv⟩ := take_ok hs hn ht
    dsimp only [Issuing.did, Step.lift]
    rw [hh]
    exact .of_used he hx hv hb'
  | untaken _ ht => exact .of_swept (take_error hs hn ht) hb'
  | linked hl => exact .of_rests (.of_storage (storage_linkUser hl)) rfl hb'
  | failed => exact .of_rests (.of_storage rfl) (by cases c <;> rfl) hb'
  | stalled | minted => exact .of_rests (.of_storage rfl) rfl hb'

theorem Callback.link_sound (hs : s.storage.Sound PendingLink) (c : Callback) :
    (c.step s).2.storage.Sound PendingLink := by
  have hc := c.stepped s
  generalize c.step s = x at hc
  cases hc with
  | taken _ ht => exact (access_take ht).aside.sound PendingLink hs
  | untaken _ ht => exact (access_take ht).aside.sound PendingLink hs
  | stored hr => exact sound_put hs trivial hr
  | unstored hr => exact sound_put hs trivial hr
  | linked hl => exact storage_linkUser hl ▸ hs
  | rejected | unconfigured | failed | linking | searching | found | unknown | stalled | minted
  | matched => exact hs

theorem Peek.link_sound (hs : s.storage.Sound PendingLink) (c : Peek) :
    (c.step s).2.storage.Sound PendingLink := by
  have hc := c.stepped s
  generalize c.step s = x at hc
  cases hc with
  | failed | shown => exact hs
  | missed _ hr => exact sound_get hs hr
  | seen _ hr => exact sound_get hs hr

theorem ConfirmLink.link_sound (hs : s.storage.Sound PendingLink) (hn : s.now ≤ Text.maxWord)
    (c : ConfirmLink) : (c.step s).2.storage.Sound PendingLink := by
  have hc := c.stepped s
  generalize c.step s = x at hc
  cases hc with
  | taken _ ht => exact sound_take hs hn ht
  | untaken _ ht => exact sound_take hs hn ht
  | linked hl => exact storage_linkUser hl ▸ hs
  | failed | stalled | minted => exact hs

instance : Lawful PendingLink where
  drawn {h c} hc hb := by
    cases c with
    | oauthCallback c =>
      cases c with
      | start state code denied chance => exact List.mem_singleton.2 (Eq.symm hb)
      | exchanging | linking | searching | minting | matching | storing => cases hc
    | issue | status | scan | confirm | cancel | wait | follow | oauthBegin | peek
    | confirmLink => cases hb
  effect {s} hs hn h elapsed c := by
    have hq (c : Call) (hc : c.isQr = true) (hb : Issuing.Bears PendingLink h c) : False := by
      cases c with
      | oauthBegin | oauthCallback | peek | confirmLink => cases hc
      | issue | status | scan | confirm | cancel | wait | follow => exact hb
    cases c with
    | issue | status | scan | confirm | cancel | wait | follow =>
      exact effect_of_isQr rfl hq fun _ => rfl
    | oauthBegin c => exact effect_of_aside (c.access s).aside rfl (fun _ => id) fun _ => rfl
    | oauthCallback c => exact c.link_effect hs
    | peek c => exact c.link_effect hs
    | confirmLink c => exact c.link_effect hs hn
  sound {s} hs hn elapsed c := by
    cases c with
    | issue | status | scan | confirm | cancel | wait | follow =>
      exact (Call.within rfl elapsed s).aside.sound PendingLink hs
    | oauthBegin c =>
      exact Step.lift_service _ _ (c.step s) ▸ (c.access s).aside.sound PendingLink hs
    | oauthCallback c => exact Step.lift_service _ _ (c.step s) ▸ c.link_sound hs
    | peek c => exact Step.lift_service _ _ (c.step s) ▸ c.link_sound hs
    | confirmLink c => exact Step.lift_service _ _ (c.step s) ▸ c.link_sound hs hn
  sweep {s} hs t := by
    cases t with
    | topics => exact .of_storage rfl
    | store kind =>
      cases kind with
      | qrSession => exact .of_aside (access_sweep Qr.Session s).aside
      | oauthState => exact .of_aside (access_sweep State s).aside
      | pendingLink => exact ⟨swept hs, fun _ => sound_sweep hs⟩

end PendingLink

end OAuth

end Handoff
