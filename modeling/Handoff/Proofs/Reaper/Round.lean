import Handoff.Proofs.Qr.Turns
import Handoff.Proofs.Reaper.Targets
import Handoff.Proofs.Reaper.Visits

namespace Handoff

namespace Reaper

variable {ι : Type} [DecidableEq ι]

/-- What a round comes upon: the clock shows some time at each target, and a target may be down. -/
structure Round (ι : Type) where
  clock : ι × Service.Target → Nat
  down : ι × Service.Target → Option StoreError

namespace Round

variable (r : Round ι) {ts : List (ι × Service.Target)} {x : ι × Service.Target}
  {lobby : ι → Hub.Lobby} {F : ι → Service}

def visit (x : ι × Service.Target) (F : ι → Service) : Except StoreError Nat × (ι → Service) :=
  match r.down x with
  | some e => (.error e, F)
  | none =>
    let (a, s) := (F x.1).sweepAt (r.clock x) x.2
    (a, Function.update F x.1 s)

def Works (F : ι → Service) (x : ι × Service.Target) : Prop :=
  r.down x = none ∧ (F x.1).Answers x.2

instance : Decidable (r.Works F x) := inferInstanceAs (Decidable (_ ∧ _))

noncomputable def removable (lobby : ι → Hub.Lobby) (F : ι → Service) (x : ι × Service.Target) :
    Nat :=
  (F x.1).removable (r.clock x) (lobby x.1) x.2

theorem separate : Separate (fun x F F' => Service.Same x.2 (F x.1) (F' x.1)) r.visit where
  refl x F := .refl x.2 (F x.1)
  trans h h' := h.trans h'
  aside {x y} F hxy := by
    unfold visit
    split
    · exact .refl ..
    · by_cases hi : y.1 = x.1
      · have ht : x.2 ≠ y.2 := fun ht => hxy (Prod.ext hi.symm ht)
        dsimp only
        rw [hi, Function.update_self]
        exact Service.same_sweepAt ht _ _
      · dsimp only
        rw [Function.update_of_ne hi]
        exact .refl ..
  alone {x F F'} h := by
    unfold visit
    split
    · exact ⟨rfl, h⟩
    · dsimp only
      rw [Function.update_self, Function.update_self]
      exact h.sweepAt _

theorem visit_eq_ok (hs : (F x.1).Reached (lobby x.1)) (hw : r.Works F x)
    (hn : ∀ κ, x.2 = .store κ → r.clock x ≤ (F x.1).storage.latest) :
    (r.visit x F).1 = .ok (r.removable lobby F x) ∧
      Service.Cleaned (r.clock x) (lobby x.1) x.2 (F x.1) ((r.visit x F).2 x.1) := by
  unfold visit
  rw [hw.1]
  dsimp only
  rw [Function.update_self]
  exact hs.sweepAt_eq_ok hw.2 hn

theorem visit_eq_error (hw : ¬r.Works F x) :
    ∃ e, (r.visit x F).1 = .error e ∧ Service.Same x.2 (F x.1) ((r.visit x F).2 x.1) := by
  unfold visit
  split
  · next e _ => exact ⟨e, rfl, .refl ..⟩
  · next hd =>
    dsimp only
    rw [Function.update_self]
    exact Service.sweepAt_eq_error (fun ha => hw ⟨hd, ha⟩) _

/-- Where all targets are those of one service, none of them is down and the clock stands still, the
round is the pass of that service. -/
theorem visits_eq_sweepAll {i : ι} {us : List Service.Target}
    (hr : ∀ u ∈ us, r.down (i, u) = none ∧ r.clock (i, u) = (F i).now) :
    (F i).sweepAll us =
      (total (visits r.visit (us.map (Prod.mk i)) F).1,
        (visits r.visit (us.map (Prod.mk i)) F).2 i) := by
  rw [Service.sweepAll_eq]
  induction us generalizing F with
  | nil => rfl
  | cons u us ih =>
    obtain ⟨hd, hc⟩ := hr u List.mem_cons_self
    have hv : r.visit (i, u) F = (((F i).sweepTarget u).1,
        Function.update F i ((F i).sweepTarget u).2) := by
      unfold visit
      rw [hd, hc]
      rfl
    have ih := @ih (Function.update F i ((F i).sweepTarget u).2) fun v hv => by
      rw [Function.update_self, (Service.sweepTarget_keeps u (F i)).1.now]
      exact hr v (.tail u hv)
    rw [Function.update_self, Prod.mk.injEq] at ih
    rw [List.map_cons, visits_cons, visits_cons, hv, total_cons, total_cons, ih.1, ih.2]

/-- What a round through the targets `ts` does: every target answers once, those that work are rid of
what they had to remove and tell how much it was, and all else stays as it was. If they are the
targets of one service, this is what its own pass does. -/
structure Exact (ts : List (ι × Service.Target)) (lobby : ι → Hub.Lobby) (F : ι → Service)
    (as : List ((ι × Service.Target) × Except StoreError Nat)) (F' : ι → Service) : Prop where
  visited : as.map Prod.fst = ts
  counted : ∀ x ∈ ts, r.Works F x → (x, .ok (r.removable lobby F x)) ∈ as
  failed : ∀ x ∈ ts, ¬r.Works F x → ∃ e, (x, .error e) ∈ as
  total_eq : total as = ((ts.filter fun x => r.Works F x).map (r.removable lobby F)).sum
  cleaned : ∀ x ∈ ts, r.Works F x →
    Service.Cleaned (r.clock x) (lobby x.1) x.2 (F x.1) (F' x.1)
  spared : ∀ x, ¬(x ∈ ts ∧ r.Works F x) → Service.Same x.2 (F x.1) (F' x.1)
  own : ∀ i us, us.map (Prod.mk i) = ts →
    (∀ u ∈ us, r.down (i, u) = none ∧ r.clock (i, u) = (F i).now) →
      (F i).sweepAll us = (total as, F' i)

theorem visits_exact (hs : ∀ i, (F i).Reached (lobby i)) (hts : ts.Nodup)
    (hn : ∀ i κ, (i, .store κ) ∈ ts → r.clock (i, .store κ) ≤ (F i).storage.latest) :
    r.Exact ts lobby F (visits r.visit ts F).1 (visits r.visit ts F).2 := by
  have hok {x} (hx : x ∈ ts) (hw : r.Works F x) :=
    r.visit_eq_ok (hs x.1) hw fun κ hκ => by
      obtain ⟨i, t⟩ := x
      cases hκ
      exact hn i κ hx
  have has := r.separate.answers_eq hts F
  have hmem {x} (hx : x ∈ ts) : (x, (r.visit x F).1) ∈ (visits r.visit ts F).1 := by
    rw [has]
    exact List.mem_map_of_mem hx
  constructor
  case visited =>
    rw [has, List.map_map]
    exact List.map_id ts
  case counted =>
    intro x hx hw
    rw [← (hok hx hw).1]
    exact hmem hx
  case failed =>
    intro x hx hw
    obtain ⟨e, he, -⟩ := r.visit_eq_error hw
    exact ⟨e, he ▸ hmem hx⟩
  case total_eq =>
    rw [has]
    refine total_map (fun x hx hw => (hok hx hw).1) fun x hx hw => ?_
    obtain ⟨e, he, -⟩ := r.visit_eq_error hw
    exact ⟨e, he⟩
  case cleaned =>
    intro x hx hw
    exact (hok hx hw).2.same (r.separate.visits_of_mem hts hx F)
  case spared =>
    intro x hx
    by_cases hm : x ∈ ts
    · obtain ⟨e, -, hsame⟩ := r.visit_eq_error fun hw => hx ⟨hm, hw⟩
      exact hsame.trans (r.separate.visits_of_mem hts hm F)
    · exact r.separate.visits_of_notMem hm F
  case own =>
    rintro i us rfl hr
    exact r.visits_eq_sweepAll hr

section Example

def offered (backend : Backend) : Storage :=
  (offer "b" 9).onto ((offer "a" 8).onto (.fresh backend))
where
  offer (h : String) (ttl : Nat) : Shared :=
    .qr ⟨0, .put ⟨h⟩ (.pending "10.0.0.8" "Mozilla") ttl⟩

def waiting : Hub.Lobby :=
  (Hub.Lobby.start 2).run
    [.reserve ⟨"a"⟩, .attach ⟨"a"⟩, .reserve ⟨"b"⟩, .attach ⟨"b"⟩, .drop 0]

def serving (backend : Backend) (faults : Faults) : Service where
  setup := ⟨none, ⟨"session-secret", 3600⟩, 180000, 600000, none, false⟩
  now := 0
  storage := offered backend
  hub := waiting.hub
  users := .empty
  faults

/-- A service in memory, and one with a table whose sign-ins cannot be swept. -/
def pair : Bool → Service
  | false => serving .memory .none
  | true => serving .sqlite (Faults.none.setStore .qrSession .sweep (some (.backend "disk gone")))

def ninth : Round Bool where
  clock _ := 9
  down x := if x = (true, .topics) then some (.backend "gone") else none

def route : List (Bool × Service.Target) :=
  [(true, .store .qrSession), (false, .store .qrSession), (true, .topics), (false, .topics)]

theorem reached_pair (i : Bool) : (pair i).Reached waiting := by
  have ho (h : String) (ttl : Nat) : (offered.offer h ttl).Fits := by
    refine ⟨Nat.zero_le _, ?_⟩
    rintro _ _ _ ⟨⟩
    exact Qr.Session.fits_pending _ _
  have hσ (backend : Backend) : (offered backend).Reached :=
    .onto (ho "b" 9) (.onto (ho "a" 8) (.fresh backend))
  cases i with
  | false => exact ⟨hσ .memory, ⟨_, _, rfl⟩, rfl⟩
  | true => exact ⟨hσ .sqlite, ⟨_, _, rfl⟩, rfl⟩

theorem pair_cleaned : ∃ as F', visits ninth.visit route pair = (as, F') ∧
    (F' false).storage.view Qr.Session ⟨"a"⟩ = none ∧
    (F' false).storage.view Qr.Session ⟨"b"⟩ =
      some ⟨⟨"b"⟩, 0, 9, .pending "10.0.0.8" "Mozilla"⟩ ∧
    (F' false).hub.topics = [⟨"b"⟩] ∧
    (F' true).storage.view Qr.Session = (pair true).storage.view Qr.Session ∧
    (F' true).hub = (pair true).hub := by
  have hx : ninth.Exact route (fun _ => waiting) pair _ _ :=
    ninth.visits_exact reached_pair (by decide) fun i κ _ => by
      cases i <;> change 9 ≤ _ <;> decide
  have hv := hx.cleaned (false, .store .qrSession) (by decide) (by decide)
  have ht := hx.cleaned (false, .topics) (by decide) (by decide)
  refine ⟨_, _, rfl, ?_, ?_, ?_, ?_, ?_⟩
  · exact (congrFun hv _).trans (by decide)
  · exact (congrFun hv _).trans (by decide)
  · exact (congrArg Hub.topics ht).trans (by decide)
  · exact (hx.spared (true, .store .qrSession) (by decide)).view
  · exact hx.spared (true, .topics) (by decide)

end Example

end Round

end Reaper

end Handoff
