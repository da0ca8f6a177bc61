import Handoff.Proofs.Hub.Places
import Handoff.Proofs.OAuth.Lives
import Handoff.Proofs.Run.Orderly
import Handoff.Proofs.Run.Alone
import Handoff.Proofs.Run.Stock
import Mathlib.Algebra.BigOperators.Intervals
import Mathlib.Algebra.Order.BigOperators.Group.Finset
/-!
The trail of a call: the pieces of work that it does one after another, whatever others do in
between. What each step keeps of a trail, every call keeps that the service comes to, whether it has
the service to itself or is one of many.
-/

namespace Handoff

namespace Step

variable {C C' A A' : Type}

/-- Where the step of the call `c` leads: a call that has to wait stays where it is. -/
def onto (c : C) : Step C A → Step C A
  | .more d => .more d
  | .done a => .done a
  | .blocked => .more c

def map (f : C → C') (g : A → A') : Step C A → Step C' A'
  | .more c => .more (f c)
  | .done a => .done (g a)
  | .blocked => .blocked

theorem onto_lift (f : C → C') (g : A → A') (c : C) (x : Step C A × Service) :
    (Step.lift f g x).1.onto (f c) = (x.1.onto c).map f g := by
  obtain ⟨r, s⟩ := x
  cases r <;> rfl

end Step

theorem Finishes.lift {C A : Type} {f : C → Call} {g : A → Answer} {elapsed n : Nat}
    {m : C → Service → Step C A × Service} {c : C} {a : A} {s s' : Service}
    (hf : Finishes m n c s a s')
    (hm : ∀ c s, (f c).step elapsed s = Step.lift f g (m c s)) :
    Finishes (Call.step elapsed) n (f c) s (g a) s' := by
  induction hf with
  | done h => exact .done (by rw [hm, h]; rfl)
  | more h _ ih => exact .more (by rw [hm, h]; rfl) ih

namespace Call

structure Ready (setup : Setup) (c : Call) (s : Service) : Prop where
  sound : s.Sound
  setup : s.setup = setup
  hub : s.hub.Sound
  placed : c.Placed s.hub
  states : s.storage.Sound OAuth.State
  links : s.storage.Sound OAuth.PendingLink

variable {setup : Setup} {c : Call} {s : Service}

theorem Ready.step (hc : c.Ready setup s) {d : Call} (elapsed : Nat)
    (hd : (c.step elapsed s).1.rest c = some d) : d.Ready setup (c.step elapsed s).2 := by
  have hk := Call.keeps elapsed c s
  have hm := Call.hub_move hc.hub elapsed c
  have hp := Call.places_step hc.hub hc.placed elapsed
  rw [hd] at hm hp
  refine ⟨hk.sound hc.sound, hk.setup.trans hc.setup, hm.sound hc.hub,
    ⟨hm.alive hc.hub hc.placed.own, ?_⟩, ?_, ?_⟩
  · have hle := hc.placed.places_le
    change _ = s.hub.active + d.places at hp
    omega
  · exact Ticket.Lawful.sound hc.states hc.sound.now_le elapsed c
  · exact Ticket.Lawful.sound hc.links hc.sound.now_le elapsed c

/-- The call has done these pieces of work since it began, and has come to where the step is. -/
inductive Trail (setup : Setup) (c : Call) : Pieces → Step Call Answer → Prop
  | nil : Trail setup c [] (.more c)
  | snoc {l : Pieces} {d : Call} {s : Service} (elapsed : Nat) : Trail setup c l (.more d) →
    d.Ready setup s →
    Trail setup c (l ++ [(s, (d.step elapsed s).2)]) ((d.step elapsed s).1.onto d)

theorem places_of_isStart (hc : c.isStart = true) : c.places = 0 := by
  cases c with
  | wait c | follow c =>
    cases c with
    | watching w => cases w <;> first | rfl | cases hc
    | listening => cases hc
  | _ => rfl

theorem placed_of_isStart (hc : c.isStart = true) (hub : Hub) : c.Placed hub where
  own id ho := by
    rw [own_of_isStart hc] at ho
    cases ho
  places_le := by
    rw [places_of_isStart hc]
    exact Nat.zero_le _

def placesAt : Step Call Answer → Nat
  | .more d => d.places
  | _ => 0

namespace Trail

variable {l : Pieces} {r : Step Call Answer}

theorem gained (ht : Trail setup c l r) : l.gained = (placesAt r : Int) - c.places := by
  induction ht with
  | nil => simp [Pieces.gained, placesAt]
  | @snoc l d s elapsed ht hr ih =>
    have hp := Call.places_step hr.hub hr.placed elapsed
    have ho : placesAt ((d.step elapsed s).1.onto d) = placesOf ((d.step elapsed s).1.rest d) := by
      cases (d.step elapsed s).1 <;> rfl
    rw [Pieces.gained_concat, ih, ho, placesAt]
    omega

theorem lifted {C A : Type} {f : C → Call} {g : A → Answer}
    {m : Nat → C → Service → Step C A × Service}
    (hstep : ∀ elapsed c s, (f c).step elapsed s = Step.lift f g (m elapsed c s))
    {I : Step C A → Pieces → Prop} {c : C} (nil : I (.more c) [])
    (snoc : ∀ {l d s} elapsed, I (.more d) l → (f d).Ready setup s →
      I ((m elapsed d s).1.onto d) (l ++ [(s, (m elapsed d s).2)]))
    (ht : Trail setup (f c) l r) : ∃ r', r = r'.map f g ∧ I r' l := by
  induction ht with
  | nil => exact ⟨.more c, rfl, nil⟩
  | @snoc l d s elapsed ht hr ih =>
    obtain ⟨r', he, hi⟩ := ih
    cases r' with
    | more d' =>
      cases he
      rw [hstep, Step.lift_service, Step.onto_lift]
      exact ⟨_, rfl, snoc elapsed hi hr⟩
    | done | blocked => cases he

theorem all_lifted {C A : Type} {f : C → Call} {g : A → Answer}
    {m : Nat → C → Service → Step C A × Service}
    (hstep : ∀ elapsed c s, (f c).step elapsed s = Step.lift f g (m elapsed c s))
    {q : Service → Service → Prop} {c : C}
    (hq : ∀ {d s} elapsed, (f d).Ready setup s → q s (m elapsed d s).2)
    (ht : Trail setup (f c) l r) : ∀ x ∈ l, q x.1 x.2 := by
  obtain ⟨-, -, hl⟩ := ht.lifted hstep (I := fun _ l => ∀ x ∈ l, q x.1 x.2) (by simp)
    fun elapsed hl hr => Pieces.forall_concat hl (hq elapsed hr)
  exact hl

theorem of_finishes {elapsed n : Nat} {d : Call} {s₀ s s' : Service} {a : Answer}
    (hf : Finishes (Call.step elapsed) n d s a s') (hr : d.Ready setup s)
    (ht : Trail setup c l (.more d)) (hj : Joined s₀ l s) :
    ∃ l, Trail setup c l (.done a) ∧ Joined s₀ l s' := by
  induction hf generalizing l with
  | @done n d a s s' hs =>
    have ht' := ht.snoc elapsed hr
    rw [hs] at ht'
    exact ⟨_, ht', hj.snoc⟩
  | @more n d e a s t u hs hf ih =>
    have ht' := ht.snoc elapsed hr
    have hr' := hr.step (d := e) elapsed (by rw [hs]; rfl)
    rw [hs] at ht' hr'
    exact ih hr' ht' hj.snoc

end Trail

end Call

namespace World

variable {setup : Setup} {w w' : World}

/-- The places of the hub are taken by the calls under way, of which the numbers are below `n`. -/
def Filled (n : Nat) (w : World) : Prop :=
  w.service.hub.active = ∑ i ∈ Finset.range n, Call.placesOf (w.calls i)

theorem sum_update {n id : Nat} (hid : id < n) (calls : Nat → Option Call) (o : Option Call) :
    ∑ i ∈ Finset.range n, Call.placesOf (Function.update calls id o i) + Call.placesOf (calls id) =
      ∑ i ∈ Finset.range n, Call.placesOf (calls i) + Call.placesOf o := by
  have hm := Finset.mem_range.2 hid
  have hr : ∑ i ∈ (Finset.range n).erase id, Call.placesOf (Function.update calls id o i) =
      ∑ i ∈ (Finset.range n).erase id, Call.placesOf (calls i) := by
    refine Finset.sum_congr rfl fun i hi => ?_
    rw [Function.update_of_ne (Finset.ne_of_mem_erase hi)]
  rw [← Finset.sum_erase_add _ _ hm, ← Finset.sum_erase_add _ _ hm, hr, Function.update_self]
  omega

theorem Filled.places_le {n id : Nat} (hf : w.Filled n) (hid : id < n) :
    Call.placesOf (w.calls id) ≤ w.service.hub.active := by
  rw [hf]
  exact Finset.single_le_sum (f := fun i => Call.placesOf (w.calls i)) (fun _ _ => Nat.zero_le _)
    (Finset.mem_range.2 hid)

theorem Filled.update {n id : Nat} (hf : w.Filled n) (hid : id < n) {o : Option Call}
    (hc : w'.calls = Function.update w.calls id o)
    (ha : w'.service.hub.active + Call.placesOf (w.calls id) =
      w.service.hub.active + Call.placesOf o) : w'.Filled n := by
  have hs := sum_update hid w.calls o
  unfold Filled at hf ⊢
  rw [hc]
  omega

theorem Orderly.placed (o : w.Orderly setup) {n id : Nat} (hf : w.Filled n) (hid : id < n)
    {c : Call} (hc : w.calls id = some c) : c.Placed w.service.hub where
  own k hk := by
    refine o.owned.alive id k ?_
    rw [owns, hc]
    exact hk
  places_le := by
    have hle := hf.places_le hid
    rwa [hc] at hle

theorem Orderly.filled_perform (o : w.Orderly setup) {n id : Nat} (hf : w.Filled n) (hid : id < n)
    {c : Call} (hp : c.Placed w.service.hub)
    (hc : Call.placesOf (w.calls id) = c.places) (elapsed : Nat) :
    (w.perform id elapsed c).Filled n := by
  refine hf.update hid (rfl : (w.perform id elapsed c).calls = _) ?_
  rw [hc]
  exact Call.places_step o.owned.sound hp elapsed

theorem Orderly.filled_next (o : w.Orderly setup) (hf : w.Filled w.fresh) (e : Event) :
    (w.next e).Filled (w.next e).fresh := by
  cases e with
  | begin c elapsed =>
    rw [World.next]
    split
    · next ha =>
      have hst := (Bool.and_eq_true_iff.1 ha).1
      have hn := o.sound.unused _ (Nat.le_refl _)
      have hf' : w.Filled (w.fresh + 1) := by
        unfold Filled at hf ⊢
        rw [Finset.sum_range_succ, hn]
        exact hf
      have hp := Call.placed_of_isStart hst w.service.hub
      refine o.filled_perform hf' (Nat.lt_succ_self _) hp ?_ elapsed
      rw [hn]
      exact (Call.places_of_isStart hst).symm
    · exact hf
  | step id elapsed =>
    rw [World.next]
    cases hc : w.calls id with
    | none => exact hf
    | some c =>
      have hid : id < w.fresh := o.sound.lt_fresh hc
      exact o.filled_perform hf hid (o.placed hf hid hc) (congrArg Call.placesOf hc) elapsed
  | leave id =>
    rw [World.next]
    cases hl : (w.calls id).bind (·.leave? w.service) with
    | none => exact hf
    | some s =>
      obtain ⟨c, hc, hs⟩ := Option.bind_eq_some_iff.1 hl
      have hid : id < w.fresh := o.sound.lt_fresh hc
      refine hf.update hid rfl ?_
      rw [hc]
      exact Call.places_leave (o.placed hf hid hc) hs
  | sweep t =>
    have ha : (w.service.sweepTarget t).2.hub.active = w.service.hub.active := by
      obtain he | he := Service.hub_sweepTarget t w.service <;> rw [he]
      rfl
    exact ha.trans hf
  | pass | fail | removeUser => exact hf

theorem Reached.orderly (hw : w.Reached setup) : w.Orderly setup := by
  obtain ⟨backend, limit, users, now, es, rfl⟩ := hw
  exact (Orderly.start setup backend limit users now).run es

theorem Reached.filled (hw : w.Reached setup) : w.Filled w.fresh := by
  obtain ⟨backend, limit, users, now, es, rfl⟩ := hw
  exact (run_induction (P := fun w => w.Orderly setup ∧ w.Filled w.fresh)
    ⟨.start setup backend limit users now, rfl⟩
    (fun _ e h => ⟨h.1.next e, h.1.filled_next h.2 e⟩) es).2

theorem Reached.ready (hw : w.Reached setup) {c : Call} (hc : c.Placed w.service.hub) :
    c.Ready setup w.service :=
  ⟨hw.sound.service, hw.sound.setup, hw.orderly.owned.sound, hc, hw.ticketed.sound,
    hw.ticketed.sound⟩

theorem Reached.ready_of_stepped (hw : w.Reached setup) {r : Record} (hs : Stepped w r w') :
    r.call.Ready setup w.service := by
  refine hw.ready ?_
  obtain hc | ⟨-, hst⟩ := hs.call
  · exact hw.orderly.placed hw.filled (hw.sound.lt_fresh hc) hc
  · exact Call.placed_of_isStart hst _

def pieces (id : Nat) (log : List Record) : Pieces :=
  (steps id log).map fun r => (r.before, r.after)

theorem steps_concat_self (log : List Record) (r : Record) :
    steps r.id (log ++ [r]) = steps r.id log ++ [r] := by
  simp [steps]

theorem steps_concat_of_ne {id : Nat} {r : Record} (hr : r.id ≠ id) (log : List Record) :
    steps id (log ++ [r]) = steps id log := by
  simp [steps, hr]

/-- The log holds the trail of each call up to where the call is now. -/
structure Tracked (setup : Setup) (w : World) (b : Record) (r : Step Call Answer) : Prop where
  trail : b.call.Trail setup (pieces b.id w.log) r
  stands : ∀ c, w.calls b.id = some c → r = .more c
  answered : ∀ x ∈ steps b.id w.log, ∀ a, x.result = .done a → r = .done a

theorem Tracked.step {b x : Record} (ht : w.Tracked setup b (.more x.call)) (hid : x.id = b.id)
    (hr : x.call.Ready setup w.service) (hs : Stepped w x w') :
    w'.Tracked setup b (x.result.onto x.call) := by
  obtain ⟨elapsed, hstep⟩ := hs.taken
  have hst : steps b.id w'.log = steps b.id w.log ++ [x] := by
    rw [hs.log, ← hid, steps_concat_self]
  refine ⟨?_, fun c hc => ?_, fun y hy a hd => ?_⟩
  · have htr := ht.trail.snoc elapsed hr
    rw [← hstep] at htr
    rwa [pieces, hst, List.map_append, List.map_singleton, hs.before]
  · rw [hs.calls, ← hid, Function.update_self] at hc
    cases hx : x.result <;> rw [hx] at hc <;> cases hc <;> rfl
  · rw [hst] at hy
    obtain hy | hy := List.mem_append.1 hy
    · cases ht.answered y hy a hd
    · rw [← List.mem_singleton.1 hy, hd]
      rfl

theorem Tracked.aside {b : Record} {r : Step Call Answer} (ht : w.Tracked setup b r)
    (hl : steps b.id w'.log = steps b.id w.log)
    (hc : w'.calls b.id = w.calls b.id ∨ w'.calls b.id = none) : w'.Tracked setup b r := by
  refine ⟨?_, fun c h => ?_, ?_⟩
  · rw [pieces, hl]
    exact ht.trail
  · obtain hc | hc := hc
    · exact ht.stands c (hc ▸ h)
    · cases hc.symm.trans h
  · rw [hl]
    exact ht.answered

theorem Reached.tracked_of_start (hw : w.Reached setup) {b : Record} (hs : Stepped w b w')
    (hw' : w'.Traced) (hst : b.call.isStart = true) :
    w'.Tracked setup b (b.result.onto b.call) := by
  have hp := hw'.apart
  rw [hs.log] at hp
  have hn : steps b.id w.log = [] := by
    refine List.filter_eq_nil_iff.2 fun a ha => ?_
    simpa using (List.pairwise_append.1 hp).2.2 a ha b (List.mem_singleton_self b) hst
  have hnone : w.calls b.id = none := by
    cases hc : w.calls b.id with
    | none => rfl
    | some c =>
      obtain ⟨-, a, ha, hid, -⟩ := hw.traced.cause _ c hc
      exact absurd (mem_steps.2 ⟨ha, hid⟩) (hn ▸ List.not_mem_nil)
  refine Tracked.step (b := b) ⟨?_, ?_, ?_⟩ rfl (hw.ready_of_stepped hs) hs
  · rw [pieces, hn]
    exact .nil
  · rw [hnone]
    rintro c ⟨⟩
  · rw [hn]
    rintro x ⟨⟩

theorem Reached.tracked (hw : w.Reached setup) {b : Record} (hb : b ∈ w.log)
    (hst : b.call.isStart = true) : ∃ r, w.Tracked setup b r := by
  obtain ⟨backend, limit, users, now, es, rfl⟩ := hw
  induction es using List.reverseRecOn with
  | nil => cases hb
  | append_singleton es e ih =>
    have hw := Reached.run setup backend limit users now es
    have hw' := Reached.run setup backend limit users now (es ++ [e])
    rw [run_concat] at hb hw' ⊢
    obtain ⟨x, hs⟩ | hl | hs := hw.sound.next_cases e
    · rw [hs.log, List.mem_append, List.mem_singleton] at hb
      obtain hb | rfl := hb
      · obtain ⟨r, ht⟩ := ih hb
        by_cases hid : x.id = b.id
        · have hx : x.call.isStart = false := by
            have hp := hw'.traced.apart
            rw [hs.log] at hp
            refine Bool.eq_false_iff.2 fun hsx => ?_
            exact (List.pairwise_append.1 hp).2.2 b hb x (List.mem_singleton_self x) hsx hid.symm
          obtain hc | ⟨-, hsx⟩ := hs.call
          · obtain rfl := ht.stands _ (hid ▸ hc)
            exact ⟨_, ht.step hid (hw.ready_of_stepped hs) hs⟩
          · cases hx.symm.trans hsx
        · refine ⟨r, ht.aside (by rw [hs.log, steps_concat_of_ne hid]) (.inl ?_)⟩
          rw [hs.calls, Function.update_of_ne (Ne.symm hid)]
      · exact ⟨_, hw.tracked_of_start hs hw'.traced hst⟩
    · obtain ⟨⟨i, c, -, -, hcalls⟩, hlog⟩ := hl
      rw [hlog] at hb
      obtain ⟨r, ht⟩ := ih hb
      refine ⟨r, ht.aside (by rw [hlog]) ?_⟩
      rw [hcalls]
      by_cases hi : b.id = i
      · exact .inr (by rw [hi, Function.update_self])
      · exact .inl (Function.update_of_ne hi ..)
    · rw [hs.log] at hb
      obtain ⟨r, ht⟩ := ih hb
      exact ⟨r, ht.aside (by rw [hs.log]) (.inl (by rw [hs.calls]))⟩

/-- All calls that come to an answer do what `P` says of their pieces of work: a call that has the
service to itself, and one among others that come in between its pieces. -/
structure Observes (w : World) (P : Call → Answer → Pieces → Prop) : Prop where
  alone {c : Call} {a : Answer} {n elapsed : Nat} {s : Service} : c.isStart = true →
    Finishes (Call.step elapsed) n c w.service a s → P c a [(w.service, s)]
  amid {b r : Record} {a : Answer} : b ∈ w.log → b.call.isStart = true →
    r ∈ steps b.id w.log → r.result = .done a → P b.call a (pieces b.id w.log)

theorem Reached.observes (hw : w.Reached setup) {P : Call → Answer → Pieces → Prop}
    (trail : ∀ {c a l}, c.isStart = true → c.Trail setup l (.done a) → P c a l)
    (join : ∀ {c a l s s'}, P c a l → Joined s l s' → P c a [(s, s')]) : w.Observes P where
  alone hst hf := by
    obtain ⟨l, ht, hj⟩ := Call.Trail.of_finishes hf (hw.ready (Call.placed_of_isStart hst _)) .nil
      .nil
    exact join (trail hst ht) hj
  amid hb hst hr hd := by
    obtain ⟨r', ht⟩ := hw.tracked hb hst
    have htr := ht.trail
    rw [ht.answered _ hr _ hd] at htr
    exact trail hst htr

end World

end Handoff
