import Handoff.Proofs.OAuth.SingleUse
import Handoff.Proofs.Run.Alone
import Handoff.Proofs.Run.Sessions
import Handoff.Proofs.Run.Working
import Handoff.Proofs.Users.Linking

namespace Handoff

open View Ticket OAuth

def User.shares (i : Identity) (u : User) : Bool :=
  i.email.any fun email => u.email.any (Text.sameIgnoringCase · email)

namespace Users

variable {i : Identity} {t t' : Users} {u v : User}

def sharing (i : Identity) (t : Users) : List User := t.records.filter (User.shares i)

def candidate? (i : Identity) (t : Users) : Option User :=
  (i.email.bind t.findByEmail).filter (·.providerId.isNone)

/-- Of those who share the address all have an identity, or none has. -/
def Uniform (i : Identity) (t : Users) : Prop :=
  ∀ u ∈ t.sharing i, ∀ v ∈ t.sharing i, u.providerId = none → v.providerId = none

instance (i : Identity) (t : Users) : Decidable (t.Uniform i) :=
  inferInstanceAs (Decidable (∀ u ∈ t.sharing i, ∀ v ∈ t.sharing i, _ → _))

theorem candidate?_eq (i : Identity) (t : Users) :
    t.candidate? i = (t.sharing i).head?.filter (·.providerId.isNone) := by
  unfold candidate? sharing User.shares
  cases i.email with
  | none => simp
  | some email => simp [findByEmail]

theorem candidate?_eq_some (h : t.candidate? i = some u) :
    u ∈ t.sharing i ∧ u.providerId = none := by
  rw [candidate?_eq, Option.filter_eq_some_iff] at h
  exact ⟨List.mem_of_mem_head? h.1, Option.isNone_iff_eq_none.1 h.2⟩

theorem Uniform.candidate?_eq_none (ht : t.Uniform i) (h : t.candidate? i = none) :
    ∀ u ∈ t.sharing i, u.providerId ≠ none := by
  rw [candidate?_eq] at h
  intro u hu hn
  cases hs : t.sharing i with
  | nil =>
    rw [hs] at hu
    cases hu
  | cons v vs =>
    -- The first one is like `u`, so he would have been found.
    have hv : v ∈ t.sharing i := hs ▸ List.mem_cons_self
    rw [hs, List.head?_cons, Option.filter_some, ht u hu v hv hn] at h
    cases h

theorem mem_sharing_of_perm (h : t'.records.Perm t.records) :
    u ∈ t'.sharing i ↔ u ∈ t.sharing i := (h.filter _).mem_iff

theorem Uniform.perm (ht : t.Uniform i) (h : t'.records.Perm t.records) : t'.Uniform i :=
  fun u hu v hv => ht u ((mem_sharing_of_perm h).1 hu) v ((mem_sharing_of_perm h).1 hv)

theorem Uniform.candidate?_perm (ht : t.Uniform i) (h : t'.records.Perm t.records)
    (hc : t.candidate? i = some u) : ∃ v, t'.candidate? i = some v := by
  cases hc' : t'.candidate? i with
  | some v => exact ⟨v, rfl⟩
  | none =>
    obtain ⟨hu, hn⟩ := candidate?_eq_some hc
    exact absurd hn ((ht.perm h).candidate?_eq_none hc' u ((mem_sharing_of_perm h).2 hu))

theorem findByProvider_of_perm {p : String} (h : t'.records.Perm t.records)
    (hn : t.findByProvider p = none) : t'.findByProvider p = none :=
  findByProvider_eq_none_iff.2 fun v hv => findByProvider_eq_none_iff.1 hn v (h.mem_iff.1 hv)

theorem exists_perm_candidate?_eq_none (hv : v ∈ t.sharing i) (hn : v.providerId ≠ none) :
    ∃ t' : Users, t'.records.Perm t.records ∧ t'.candidate? i = none := by
  obtain ⟨hv, hp⟩ := List.mem_filter.1 hv
  refine ⟨⟨v :: t.records.erase v⟩, (List.perm_cons_erase hv).symm, ?_⟩
  rw [candidate?_eq, sharing, List.filter_cons_of_pos hp, List.head?_cons, Option.filter_some,
    if_neg (by simpa using hn)]

end Users

namespace OAuth

variable {s s' : Service} {i : Identity} {link h : Handle} {t : Users}

structure Awaits (link : Handle) (s : Service) : Prop extends s.Working where
  states : s.storage.Sound State
  links : s.storage.Sound PendingLink
  vacant : s.storage.view PendingLink link = none
  finds (op : UserOp) : s.faults.users op = none

inductive Obtains (i : Identity) (s : Service) : Handle → Callback → Prop
  | intro {state code code' : String} {denied : Option String} {chance : Chance} {h : Handle}
    {e : Entry State} {o : OAuthSettings} {provider : Provider} :
    precheck state code denied s = .ok (h, code') → s.storage.view State h = some e →
    e.isExpired s.now = false → e.payload.stage = .issued → e.payload.action = .login →
    s.setup.oauth = some (o, provider) → provider code' = .ok i →
    Obtains i s chance.link (.start state code denied chance)

section Steps

variable (chance : Chance)

theorem Awaits.step_searching (hs : Awaits link s)
    (hn : s.users.findByProvider i.providerId = none) :
    (Callback.searching i chance).step s = (.more (.matching i chance), s) := by
  have hf : s.findByProvider i.providerId = .ok none := by
    rw [Service.findByProvider, Service.userFailure, hs.finds, hn]
    rfl
  rw [Callback.step, hf]

theorem Awaits.step_matching (hs : Awaits link s) :
    (Callback.matching i chance).step s = match s.users.candidate? i with
      | some u => (.more (.storing u.id i chance.link), s)
      | none => (.done (.error .noLinkedAccount), s) := by
  rw [Callback.step, Users.candidate?]
  cases i.email with
  | none => rfl
  | some email =>
    have hf : s.findByEmail email = .ok (s.users.findByEmail email) := by
      rw [Service.findByEmail, Service.userFailure, hs.finds]
      rfl
    dsimp only
    rw [hf]
    rfl

end Steps

theorem Awaits.take {e : Entry State} (hs : Awaits link s)
    (ht : s.takeOnce h = (.ok e, s')) : Awaits link s' ∧ s' = { s with storage := s'.storage } ∧
      s.storage.Aside State s'.storage := by
  have ha := Service.access_take ht
  have hv := ha.aside.view PendingLink
  have hf : s'.faults = s.faults := by rw [ha.rest]
  refine ⟨⟨⟨ha.beside.toKeeps.sound hs.toSound, ha.aside.isOpen hs.isOpen, fun kind op => ?_⟩,
    Service.sound_take hs.states hs.now_le ht, ha.aside.sound PendingLink hs.links,
    hv ▸ hs.vacant, fun op => hf ▸ hs.finds op⟩, ha.rest, ha.aside⟩
  rw [Service.failure, hf]
  exact hs.failure kind op

theorem Obtains.reaches {c : Callback} (ho : Obtains i s link c) (hs : Awaits link s)
    (hn : s.users.findByProvider i.providerId = none) : ∃ s' chance, chance.link = link ∧
      Awaits link s' ∧ s' = { s with storage := s'.storage } ∧
      s.storage.Aside State s'.storage ∧
      ∀ a u, Finishes Callback.step 2 (.matching i chance) s' a u →
        Finishes Callback.step 5 c s a u := by
  cases ho with
  | @intro state code code' denied chance h e o provider hp he hx hst hact ho hi =>
    obtain ⟨s', ht⟩ := takeOnce_live hs.isOpen hs.now_le hs.states (hs.failure _ _) he hx hst
    obtain ⟨hs', hr, ha⟩ := hs.take ht
    have h₁ : (Callback.start state code denied chance).step s =
        (.more (.exchanging e.payload code' chance), s') := by
      rw [Callback.step, hp]
      dsimp only
      rw [ht]
    have h₂ : (Callback.exchanging e.payload code' chance).step s' =
        (.more (.searching i chance), s') := by
      rw [Callback.step, hr]
      dsimp only
      rw [ho]
      dsimp only
      rw [hi, hact]
    have h₃ := hs'.step_searching chance (by rw [hr]; exact hn)
    exact ⟨s', chance, rfl, hs', hr, ha, fun a u hf => .more h₁ (.more h₂ (.more h₃ hf))⟩

section Matching

variable {c : Callback} (ho : Obtains i s link c) (hs : Awaits link s)
  (hn : s.users.findByProvider i.providerId = none)
include ho hs hn

theorem Obtains.offers {u : User} (hc : s.users.candidate? i = some u) :
    ∃ s', Finishes Callback.step 5 c s
        (.ok (.pendingLink link.text (Text.addTime s.now s.setup.oauthTtl))) s' ∧
      s'.storage.view PendingLink = Function.update (s.storage.view PendingLink) link
        (some (s.storage.kept ⟨link, s.now, s.setup.oauthTtl, ⟨.issued, u.id, i⟩⟩)) := by
  obtain ⟨s', chance, rfl, hs', hr, ha, hf⟩ := ho.reaches hs hn
  obtain ⟨s'', hp, hv⟩ := hs'.exists_put hs'.links (p := ⟨.issued, u.id, i⟩) trivial hs'.vacant
    s.setup.oauthTtl
  rw [ha.view PendingLink, ha.kept] at hv
  have hm := hs'.step_matching chance (i := i)
  have hu : s'.users = s.users := by rw [hr]
  rw [hu, hc] at hm
  refine ⟨s'', hf _ _ (.more hm (.done ?_)), by rw [hv, hr]⟩
  have hsetup : s'.setup = s.setup := by rw [hr]
  have hnow : s'.now = s.now := by rw [hr]
  rw [Callback.step, hsetup, hp, hnow]
  rfl

theorem Obtains.refuses (hc : s.users.candidate? i = none) :
    ∃ s', Finishes Callback.step 5 c s (.error .noLinkedAccount) s' ∧
      s'.storage.view PendingLink = s.storage.view PendingLink := by
  obtain ⟨s', chance, rfl, hs', hr, ha, hf⟩ := ho.reaches hs hn
  have hm := hs'.step_matching chance (i := i)
  have hu : s'.users = s.users := by rw [hr]
  rw [hu, hc] at hm
  exact ⟨s', hf _ _ (.done hm), ha.view PendingLink⟩

end Matching

/-- What comes of a callback that brings an identity nobody has, with these users. -/
structure Callback.Decides (i : Identity) (link : Handle) (c : Callback) (s : Service) (t : Users) :
    Prop where
  offered : (∃ u ∈ t.sharing i, u.providerId = none) → ∃ u ∈ t.sharing i, u.providerId = none ∧
    ∃ s', Finishes Callback.step 5 c { s with users := t }
        (.ok (.pendingLink link.text (Text.addTime s.now s.setup.oauthTtl))) s' ∧
      s'.storage.view PendingLink = Function.update (s.storage.view PendingLink) link
        (some (s.storage.kept ⟨link, s.now, s.setup.oauthTtl, ⟨.issued, u.id, i⟩⟩))
  refused : (∀ u ∈ t.sharing i, u.providerId ≠ none) →
    ∃ s', Finishes Callback.step 5 c { s with users := t } (.error .noLinkedAccount) s' ∧
      s'.storage.view PendingLink = s.storage.view PendingLink
  order {t' : Users} : t'.records.Perm t.records →
    ∃ a u u', Finishes Callback.step 5 c { s with users := t } a u ∧
      Finishes Callback.step 5 c { s with users := t' } a u'

theorem Awaits.setUsers (hs : Awaits link s) (t : Users) : Awaits link { s with users := t } :=
  ⟨⟨⟨hs.now_le, hs.storage⟩, hs.isOpen, hs.failure⟩, hs.states, hs.links, hs.vacant, hs.finds⟩

theorem Obtains.setUsers {c : Callback} (ho : Obtains i s link c) (t : Users) :
    Obtains i { s with users := t } link c := by
  cases ho with
  | intro hp he hx hst hact ho hi => exact .intro hp he hx hst hact ho hi

section Decides

variable {c : Callback} (ho : Obtains i s link c) (hs : Awaits link s)
  (hn : t.findByProvider i.providerId = none)
include ho hs hn

theorem Obtains.decides_of_uniform (ht : t.Uniform i) : c.Decides i link s t := by
  have hoff {t : Users} {u : User} (hn : t.findByProvider i.providerId = none)
      (hc : t.candidate? i = some u) := (ho.setUsers t).offers (hs.setUsers t) hn hc
  have href {t : Users} (hn : t.findByProvider i.providerId = none)
      (hc : t.candidate? i = none) := (ho.setUsers t).refuses (hs.setUsers t) hn hc
  refine ⟨fun ⟨u, hu, hp⟩ => ?_, fun hall => ?_, fun {t'} hperm => ?_⟩
  · cases hc : t.candidate? i with
    | none => exact absurd hp (ht.candidate?_eq_none hc u hu)
    | some v =>
      obtain ⟨hv, hvp⟩ := Users.candidate?_eq_some hc
      exact ⟨v, hv, hvp, hoff hn hc⟩
  · cases hc : t.candidate? i with
    | none => exact href hn hc
    | some v =>
      obtain ⟨hv, hvp⟩ := Users.candidate?_eq_some hc
      exact absurd hvp (hall v hv)
  · have hn' := Users.findByProvider_of_perm hperm hn
    cases hc : t.candidate? i with
    | none =>
      cases hc' : t'.candidate? i with
      | none =>
        obtain ⟨s', hf, -⟩ := href hn hc
        obtain ⟨s'', hf', -⟩ := href hn' hc'
        exact ⟨_, s', s'', hf, hf'⟩
      | some v =>
        obtain ⟨u, hu⟩ := (ht.perm hperm).candidate?_perm hperm.symm hc'
        cases hc.symm.trans hu
    | some u =>
      obtain ⟨v, hc'⟩ := ht.candidate?_perm hperm hc
      obtain ⟨s', hf, -⟩ := hoff hn hc
      obtain ⟨s'', hf', -⟩ := hoff hn' hc'
      exact ⟨_, s', s'', hf, hf'⟩

/-- Where some who share the address have an identity and others have none, it matters who is met
first. -/
theorem Obtains.not_decides (ht : ¬t.Uniform i) : ¬c.Decides i link s t := by
  intro hd
  simp only [Users.Uniform, not_forall] at ht
  -- With `u` met first the link is offered, with `v` met first it is refused.
  obtain ⟨u, hu, v, hv, hun, hvn⟩ := ht
  obtain ⟨t', hperm, hc⟩ := Users.exists_perm_candidate?_eq_none hv hvn
  obtain ⟨-, -, -, s₁, hoff, -⟩ := hd.offered ⟨u, hu, hun⟩
  obtain ⟨s₂, href, -⟩ := (ho.setUsers t').refuses (hs.setUsers t')
    (Users.findByProvider_of_perm hperm hn) hc
  obtain ⟨a, _, _, ha, ha'⟩ := hd.order hperm
  cases (hoff.unique ha).1.trans (href.unique ha').1.symm

end Decides

end OAuth

namespace World

variable {w : World} {setup : Setup} {i : Identity} {link : Handle}

theorem Reached.awaits (hw : w.Reached setup)
    (hf : ∀ kind op, w.service.faults.store kind op = none)
    (hu : ∀ op, w.service.faults.users op = none) (hd : link ∉ w.drawn) :
    Awaits link w.service where
  toWorking := hw.working hf
  states := hw.ticketed.sound
  links := hw.ticketed.sound
  vacant := by
    cases hv : w.service.storage.view PendingLink link with
    | none => rfl
    | some e => exact absurd ((hw.ticketed.lives link).of_held hv).2.2 hd
  finds := hu

/-- In every state that the service comes to, whatever users there are: a callback that brings an
identity nobody has decides by the address as it should, exactly as long as of those who share the
address all have an identity or none has. -/
theorem callback_decides_iff (hw : w.Reached setup)
    (hf : ∀ kind op, w.service.faults.store kind op = none)
    (hu : ∀ op, w.service.faults.users op = none) (hd : link ∉ w.drawn) {c : Callback}
    (ho : Obtains i w.service link c) (t : Users) (hn : t.findByProvider i.providerId = none) :
    c.Decides i link w.service t ↔ t.Uniform i := by
  have hs := hw.awaits hf hu hd
  refine ⟨fun hc => ?_, ho.decides_of_uniform hs hn⟩
  by_contra ht
  exact ho.not_decides hs hn ht hc

section Example

open OAuth.Visit

def shared : Users :=
  ⟨[⟨1, "ada", some "zero@x.io", none, some "ext-1"⟩, ⟨2, "bea", some "Zero@x.io", none, none⟩]⟩

def away : World := (start zero .memory 1 shared 0).run leaving

theorem reached_away : away.Reached zero := .run ..

def back : Callback := .start "0123456789abcdef0123456789abcdef" "code" none ⟨[], zeroLink⟩

theorem obtains_back :
    Obtains ⟨"ext-0", "Zero", none, some "zero@x.io"⟩ away.service zeroLink back := by
  have hv : away.service.storage.view State handle =
      some ⟨handle, 0, 600000, ⟨.issued, .login, none⟩⟩ := by decide +kernel
  have hp : precheck "0123456789abcdef0123456789abcdef" "code" none away.service =
      .ok (handle, "code") := by decide +kernel
  change Obtains _ _ (Chance.mk [] zeroLink).link back
  exact .intro hp hv (by decide +kernel) rfl rfl rfl rfl

theorem undrawn_back : zeroLink ∉ away.drawn := by decide +kernel

theorem callback_decides_away :
    let i : Identity := ⟨"ext-0", "Zero", none, some "zero@x.io"⟩
    back.Decides i zeroLink away.service (shared.remove 1) ∧
      ¬back.Decides i zeroLink away.service shared := by
  refine ⟨?_, fun hd => ?_⟩
  · exact (callback_decides_iff reached_away (fun _ _ => rfl) (fun _ => rfl) undrawn_back
      obtains_back _ (by decide +kernel)).2 (by decide +kernel)
  · exact absurd ((callback_decides_iff reached_away (fun _ _ => rfl) (fun _ => rfl) undrawn_back
      obtains_back _ (by decide +kernel)).1 hd) (by decide +kernel)

/-- A user without an identity is not always found. -/
theorem not_forall_decides : ¬∀ (setup : Setup) (w : World) (i : Identity) (link : Handle)
    (c : Callback) (t : Users), w.Reached setup →
    (∀ kind op, w.service.faults.store kind op = none) →
    (∀ op, w.service.faults.users op = none) → link ∉ w.drawn → Obtains i w.service link c →
    t.Keyed → t.Exclusive → t.findByProvider i.providerId = none →
    c.Decides i link w.service t := by
  intro hall
  have hs := reached_away.awaits (fun _ _ => rfl) (fun _ => rfl) undrawn_back
  exact obtains_back.not_decides hs (t := shared) (by decide +kernel) (by decide +kernel)
    (hall zero away _ zeroLink back shared reached_away (fun _ _ => rfl) (fun _ => rfl)
      undrawn_back obtains_back (by unfold Users.Keyed; decide +kernel) (by decide +kernel)
      (by decide +kernel))

end Example

end World

end Handoff
