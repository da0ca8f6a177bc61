import Handoff.Proofs.OAuth.Matching
import Handoff.Proofs.Run.Trail

namespace Handoff.OAuth

open Service

/-- The callback was turned away before it used up its state. -/
def Error.isEarly : Error → Bool
  | notConfigured => true
  | denied _ => true
  | stateInvalid => true
  | _ => false

def Error.isLate : Error → Bool
  | provider _ => true
  | alreadyLinked => true
  | userNotFound => true
  | noLinkedAccount => true
  | unauthorized _ => true
  | sessionMint _ => true
  | _ => false

def LinkError.isLate : LinkError → Bool
  | userNotFound => true
  | alreadyLinked => true
  | _ => false

def KeepsLinks (l : Pieces) : Prop :=
  ∀ x ∈ l, x.2.storage.view PendingLink = x.1.storage.view PendingLink

/-- The entry that the text stands for is used up, once, and nothing else is done. -/
def SpendsFor (κ : Kind) (bytes : Nat) (text : String) (l : Pieces) : Prop :=
  ∃ h, Handle.parse text bytes = some h ∧ Once (Spends κ h) Untouched l

/-- What a call that fails has used up, and what a look at a link uses up. -/
structure Frugal (c : Call) (a : Answer) (l : Pieces) : Prop where
  begin {d : Begin} {e : Error} : c = .oauthBegin d → a = .oauthBegin (.error e) →
    ∀ x ∈ l, x.1.Untouched x.2
  early {d : Callback} {e : Error} : c = .oauthCallback d → a = .oauthCallback (.error e) →
    e.isEarly = true → (∀ x ∈ l, x.1.Untouched x.2) ∧ KeepsLinks l
  late {state code : String} {denied : Option String} {chance : Chance} {e : Error} :
    c = .oauthCallback (.start state code denied chance) → a = .oauthCallback (.error e) →
    e.isLate = true → SpendsFor .oauthState stateBytes state l ∧ KeepsLinks l
  invalid {d : ConfirmLink} : c = .confirmLink d → a = .confirmLink (.error .invalid) →
    ∀ x ∈ l, x.1.Untouched x.2
  unlinked {token : String} {random : List UInt8} {e : LinkError} :
    c = .confirmLink (.start token random) → a = .confirmLink (.error e) → e.isLate = true →
    SpendsFor .pendingLink linkBytes token l
  peek {d : Peek} : c = .peek d → ∀ x ∈ l, x.1.Untouched x.2

theorem SpendsFor.join {κ : Kind} {bytes : Nat} {text : String} {l : Pieces} {s s' : Service}
    (hl : SpendsFor κ bytes text l) (hj : Joined s l s') : SpendsFor κ bytes text [(s, s')] :=
  hl.imp fun _ h => ⟨h.1, hj.spends h.2⟩

theorem Frugal.join {c : Call} {a : Answer} {l : Pieces} {s s' : Service} (hf : Frugal c a l)
    (hj : Joined s l s') : Frugal c a [(s, s')] := by
  have links (hl : KeepsLinks l) : KeepsLinks [(s, s')] :=
    List.forall_mem_singleton.2 <| hj.all
      (q := fun s s' => s'.storage.view PendingLink = s.storage.view PendingLink)
      rfl (fun h h' => h'.trans h) hl
  exact ⟨fun hc ha => hj.untouched (hf.begin hc ha),
    fun hc ha he => (hf.early hc ha he).imp hj.untouched links,
    fun hc ha he => (hf.late hc ha he).imp (·.join hj) links,
    fun hc ha => hj.untouched (hf.invalid hc ha),
    fun hc ha he => (hf.unlinked hc ha he).join hj,
    fun hc => hj.untouched (hf.peek hc)⟩

section Errors

variable {s : Service}

theorem precheck_error {state code : String} {denied : Option String} {e : Error}
    (hp : precheck state code denied s = .error e) : e.isLate = false := by
  unfold precheck at hp
  split at hp
  · cases hp
    rfl
  · split at hp
    · cases hp
      rfl
    · split at hp <;> cases hp
      rfl

theorem Error.isLate_ofTake (e : StoreError) : (ofTake e).isLate = false := by
  cases e <;> rfl

theorem Error.not_isEarly_ofLink (e : UserError) : ¬(ofLink e).isEarly = true := by
  cases e <;> rintro ⟨⟩

theorem LinkError.isLate_ofStore (e : StoreError) : (ofStore e).isLate = false := by
  cases e <;> rfl

theorem LinkError.ofLink_ne_invalid (e : UserError) : ofLink e ≠ invalid := by
  cases e <;> rintro ⟨⟩

def Callback.MayFail (setup : Setup) : Callback → Error → Prop
  | start .., e => e.isLate = false
  | _, e => e.isEarly = true → setup.oauth = none

theorem Callback.mayFail {c : Callback} {e : Error} (h : (c.step s).1 = .done (.error e)) :
    c.MayFail s.setup e := by
  cases c with
  | start state code denied chance =>
    rw [step] at h
    split at h
    · next hp =>
      cases h
      exact precheck_error hp
    · split at h <;> cases h
      exact Error.isLate_ofTake _
  | exchanging =>
    rw [step] at h
    split at h
    · next ho => exact fun _ => ho
    · split at h
      · cases h
        rintro ⟨⟩
      · split at h <;> cases h
        rintro ⟨⟩
  | linking =>
    rw [step] at h
    split at h <;> cases h
    exact fun he => absurd he (Error.not_isEarly_ofLink _)
  | searching | minting | storing =>
    rw [step] at h
    split at h <;> cases h
    rintro ⟨⟩
  | matching =>
    rw [step] at h
    split at h
    · cases h
      rintro ⟨⟩
    · split at h
      · cases h
        rintro ⟨⟩
      · split at h <;> cases h
        rintro ⟨⟩

def ConfirmLink.MayFail : ConfirmLink → LinkError → Prop
  | start .., e => e.isLate = false
  | linking .., e => e ≠ .invalid
  | minting .., e => e ≠ .invalid ∧ e.isLate = false

theorem ConfirmLink.mayFail {c : ConfirmLink} {e : LinkError}
    (h : (c.step s).1 = .done (.error e)) : c.MayFail e := by
  cases c with
  | start =>
    rw [step] at h
    split at h
    · cases h
      rfl
    · split at h <;> cases h
      exact LinkError.isLate_ofStore _
  | linking =>
    rw [step] at h
    split at h <;> cases h
    exact LinkError.ofLink_ne_invalid _
  | minting =>
    rw [step] at h
    split at h <;> cases h
    refine ⟨?_, rfl⟩
    rintro ⟨⟩

end Errors

section Steps

variable {setup : Setup} {s s' : Service} {l : Pieces}

def Begin.Trace : Step Begin (Except Error Begun) → Pieces → Prop
  | .done (.ok _), _ => True
  | _, l => ∀ x ∈ l, x.1.Untouched x.2

theorem Begin.trace_step {c : Begin} (hl : Trace (.more c) l) (hs : s.storage.Sound State) :
    Trace ((c.step s).1.onto c) (l ++ [(s, (c.step s).2)]) := by
  have hc := c.stepped s
  generalize c.step s = x at hc
  cases hc with
  | failed | login | link => exact Pieces.forall_concat hl (.refl s)
  | unstored hr => exact Pieces.forall_concat hl (put_untouched hs trivial hr)
  | stored => trivial

structure Callback.Taken (setup : Setup) (state : String) (l : Pieces) : Prop where
  configured : setup.oauth ≠ none
  spent : SpendsFor .oauthState stateBytes state l
  links : KeepsLinks l

def Callback.Trace (setup : Setup) (state : String) :
    Step Callback (Except Error Outcome) → Pieces → Prop
  | .more (.start st _ _ _), l => st = state ∧ l = []
  | .more _, l => Taken setup state l
  | .done (.error e), l =>
    (e.isEarly = true → (∀ x ∈ l, x.1.Untouched x.2) ∧ KeepsLinks l) ∧
    (e.isLate = true → SpendsFor .oauthState stateBytes state l ∧ KeepsLinks l)
  | _, _ => True

theorem Callback.Taken.onward {state : String} (hl : Taken setup state l) (hu : s.Untouched s')
    (hk : s'.storage.view PendingLink = s.storage.view PendingLink) :
    Taken setup state (l ++ [(s, s')]) where
  configured := hl.configured
  spent := hl.spent.imp fun _ h => ⟨h.1, h.2.before hu⟩
  links := List.forall_mem_append.2 ⟨hl.links, List.forall_mem_singleton.2 hk⟩

theorem Callback.Taken.failed {state : String} {e : Error} (hl : Taken setup state l)
    (he : e.isEarly = true → setup.oauth = none) : Trace setup state (.done (.error e)) l :=
  ⟨fun h => absurd (he h) hl.configured, fun _ => ⟨hl.spent, hl.links⟩⟩

theorem Callback.trace_of_isLate {state : String} {e : Error} (hu : s.Untouched s')
    (hk : s'.storage.view PendingLink = s.storage.view PendingLink) (he : e.isLate = false) :
    Trace setup state (.done (.error e)) [(s, s')] := by
  refine ⟨fun _ => ⟨List.forall_mem_singleton.2 hu, List.forall_mem_singleton.2 hk⟩, fun h => ?_⟩
  cases he.symm.trans h

theorem Callback.trace_step {state : String} {c : Callback}
    (hl : Trace setup state (.more c) l) (hs : (Call.oauthCallback c).Ready setup s) :
    Trace setup state ((c.step s).1.onto c) (l ++ [(s, (c.step s).2)]) := by
  have hc := c.stepped s
  have he (e : Error) : (c.step s).1 = .done (.error e) → c.MayFail setup e :=
    hs.setup ▸ mayFail
  generalize c.step s = x at hc he
  cases hc with
  | rejected =>
    obtain ⟨rfl, rfl⟩ := hl
    exact trace_of_isLate (.refl s) rfl (he _ rfl)
  | untaken _ ht =>
    obtain ⟨rfl, rfl⟩ := hl
    exact trace_of_isLate (take_untouched hs.states hs.sound.now_le ht)
      ((access_take ht).aside.view PendingLink) (he _ rfl)
  | taken hp ht =>
    obtain ⟨rfl, rfl⟩ := hl
    obtain ⟨hh, ho⟩ := precheck_ok hp
    refine ⟨?_, ⟨_, hh, .singleton (take_spends hs.states hs.sound.now_le rfl ht)⟩,
      List.forall_mem_singleton.2 ((access_take ht).aside.view PendingLink)⟩
    rwa [← hs.setup, ← Option.isSome_iff_ne_none]
  | unconfigured ho => exact absurd (hs.setup ▸ ho) hl.configured
  | @failed c e =>
    cases c with
    | start =>
      obtain ⟨rfl, rfl⟩ := hl
      exact trace_of_isLate (.refl s) rfl (he _ rfl)
    | _ => exact (Taken.onward hl (.refl s) rfl).failed (he _ rfl)
  | linking | searching | found | unknown | matched | stalled =>
    exact Taken.onward hl (.refl s) rfl
  | linked | minted | stored => trivial
  | unstored hr =>
    exact (Taken.onward hl (put_untouched hs.links trivial hr)
      (put_error hs.links trivial hr)).failed (he _ rfl)

def ConfirmLink.Trace (token : String) :
    Step ConfirmLink (Except LinkError Linked) → Pieces → Prop
  | .more (.start t _), l => t = token ∧ l = []
  | .more (.linking ..), l => SpendsFor .pendingLink linkBytes token l
  | .done (.error e), l =>
    (e = .invalid → ∀ x ∈ l, x.1.Untouched x.2) ∧
    (e.isLate = true → SpendsFor .pendingLink linkBytes token l)
  | _, _ => True

theorem ConfirmLink.trace_step {token : String} {c : ConfirmLink}
    (hl : Trace token (.more c) l) (hs : (Call.confirmLink c).Ready setup s) :
    Trace token ((c.step s).1.onto c) (l ++ [(s, (c.step s).2)]) := by
  have hc := c.stepped s
  have he (e : LinkError) : (c.step s).1 = .done (.error e) → c.MayFail e := mayFail
  generalize c.step s = x at hc he
  cases hc with
  | @failed c e =>
    have he := he e rfl
    cases c with
    | start =>
      obtain ⟨rfl, rfl⟩ := hl
      refine ⟨fun _ => List.forall_mem_singleton.2 (.refl s), fun h => ?_⟩
      cases he.symm.trans h
    | linking =>
      exact ⟨fun h => absurd h he, fun _ => hl.imp fun _ h => ⟨h.1, h.2.before (.refl s)⟩⟩
    | minting =>
      refine ⟨fun h => absurd h he.1, fun h => ?_⟩
      cases he.2.symm.trans h
  | untaken _ ht =>
    obtain ⟨rfl, rfl⟩ := hl
    have hu := take_untouched hs.links hs.sound.now_le ht
    refine ⟨fun _ => List.forall_mem_singleton.2 hu, fun h => ?_⟩
    cases (he _ rfl).symm.trans h
  | taken hh ht =>
    obtain ⟨rfl, rfl⟩ := hl
    exact ⟨_, hh, .singleton (take_spends hs.links hs.sound.now_le rfl ht)⟩
  | linked | stalled | minted => trivial

theorem Peek.untouched (hs : s.storage.Sound PendingLink) (c : Peek) :
    s.Untouched (c.step s).2 := by
  have hc := c.stepped s
  generalize c.step s = x at hc
  cases hc with
  | failed | shown => exact .refl s
  | missed _ hr | seen _ hr => exact get_untouched hs hr

end Steps

section Trails

variable {setup : Setup} {l : Pieces} {r : Step Call Answer}

theorem Begin.trail {action : Action} {session : Option String} {h : Handle}
    (ht : (Call.oauthBegin (.start action session h)).Trail setup l r) :
    ∃ r', r = r'.map .oauthBegin .oauthBegin ∧ Trace r' l :=
  ht.lifted (c := .start action session h) (m := fun _ c s => c.step s) (fun _ _ _ => rfl)
    (List.forall_mem_nil _) fun _ hl hr => trace_step hl hr.states

theorem Callback.trail {state code : String} {denied : Option String} {chance : Chance}
    (ht : (Call.oauthCallback (.start state code denied chance)).Trail setup l r) :
    ∃ r', r = r'.map .oauthCallback .oauthCallback ∧ Trace setup state r' l :=
  ht.lifted (c := .start state code denied chance) (m := fun _ c s => c.step s)
    (fun _ _ _ => rfl) ⟨rfl, rfl⟩ fun _ hl hr => trace_step hl hr

theorem ConfirmLink.trail {token : String} {random : List UInt8}
    (ht : (Call.confirmLink (.start token random)).Trail setup l r) :
    ∃ r', r = r'.map .confirmLink .confirmLink ∧ Trace token r' l :=
  ht.lifted (c := .start token random) (m := fun _ c s => c.step s) (fun _ _ _ => rfl)
    ⟨rfl, rfl⟩ fun _ hl hr => trace_step hl hr

theorem frugal_of_trail {c : Call} {a : Answer} (hc : c.isStart = true)
    (ht : c.Trail setup l (.done a)) : Frugal c a l := by
  cases c with
  | oauthBegin c =>
    cases c with
    | storing => cases hc
    | start =>
      obtain ⟨r', hr, hl⟩ := Begin.trail ht
      cases r' <;> cases hr
      refine ⟨fun _ ha => ?_, nofun, nofun, nofun, nofun, nofun⟩
      cases ha
      exact hl
  | oauthCallback c =>
    cases c with
    | start state code denied chance =>
      obtain ⟨r', hr, hl⟩ := Callback.trail ht
      cases r' <;> cases hr
      refine ⟨nofun, fun _ ha => ?_, fun hc ha => ?_, nofun, nofun, nofun⟩ <;> cases ha
      · exact hl.1
      · cases hc
        exact hl.2
    | _ => cases hc
  | peek c =>
    have hl := ht.all_lifted (m := fun _ c s => c.step s) (fun _ _ _ => rfl)
      fun _ hr => Peek.untouched hr.links _
    exact ⟨nofun, nofun, nofun, nofun, nofun, fun _ => hl⟩
  | confirmLink c =>
    cases c with
    | linking | minting => cases hc
    | start token random =>
      obtain ⟨r', hr, hl⟩ := ConfirmLink.trail ht
      cases r' <;> cases hr
      refine ⟨nofun, nofun, nofun, fun _ ha => ?_, fun hc ha => ?_, nofun⟩ <;> cases ha
      · exact hl.1 rfl
      · cases hc
        exact hl.2
  | _ => exact ⟨nofun, nofun, nofun, nofun, nofun, nofun⟩

end Trails

end Handoff.OAuth

namespace Handoff

namespace World

open OAuth.Visit (leaving)

/-- Whatever a failing call of a sign-in through the identity provider has found, and whenever
others came in between, it uses up what it has to and no more. -/
theorem run_frugal (setup : Setup) (backend : Backend) (limit : Nat) (users : Users)
    (now : UInt64) (es : List Event) :
    ((start setup backend limit users now).run es).Observes OAuth.Frugal :=
  (Reached.run setup backend limit users now es).observes OAuth.frugal_of_trail fun hf hj =>
    hf.join hj

/-- A visitor who comes back, and to whom no account can be linked, has used up his state. -/
theorem run_frugal_back : ∃ s',
    Finishes (Call.step 0) 5 (.oauthCallback back) away.service
      (.oauthCallback (.error .noLinkedAccount)) s' ∧
    OAuth.SpendsFor .oauthState OAuth.stateBytes "0123456789abcdef0123456789abcdef"
      [(away.service, s')] := by
  have hs := reached_away.awaits (fun _ _ => rfl) (fun _ => rfl) undrawn_back
  obtain ⟨s', hf, -⟩ := obtains_back.refuses hs (by decide +kernel) (by decide +kernel)
  have hc : Finishes (Call.step 0) 5 (.oauthCallback back) away.service
      (.oauthCallback (.error .noLinkedAccount)) s' := hf.lift fun _ _ => rfl
  exact ⟨s', hc, (((run_frugal zero .memory 1 shared 0 leaving).alone rfl hc).late rfl rfl rfl).1⟩

end World

end Handoff
