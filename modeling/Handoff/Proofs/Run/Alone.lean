import Handoff.Proofs.Run.Effect
import Handoff.Server

namespace Handoff

/-- From `c` on the call comes to its answer in at most so many steps, none of which has to wait. -/
inductive Finishes {C A : Type} (step : C → Service → Step C A × Service) :
    Nat → C → Service → A → Service → Prop
  | done {n : Nat} {c : C} {a : A} {s s' : Service} : step c s = (.done a, s') →
    Finishes step (n + 1) c s a s'
  | more {n : Nat} {c d : C} {a : A} {s t u : Service} : step c s = (.more d, t) →
    Finishes step n d t a u → Finishes step (n + 1) c s a u

theorem Finishes.unique {C A : Type} {step : C → Service → Step C A × Service} {m n : Nat} {c : C}
    {a b : A} {s t u : Service} (h : Finishes step m c s a t) (h' : Finishes step n c s b u) :
    a = b ∧ t = u := by
  induction h generalizing n with
  | done hs =>
    cases h' with
    | done hs' =>
      cases hs.symm.trans hs'
      exact ⟨rfl, rfl⟩
    | more hs' => cases hs.symm.trans hs'
  | more hs _ ih =>
    cases h' with
    | done hs' => cases hs.symm.trans hs'
    | more hs' hf =>
      cases hs.symm.trans hs'
      exact ih hf

namespace Server

variable {C A : Type} {server : Server}

section Await

variable {step : Nat → C → Service → Step C A × Service} {due : C → Option Nat} {c : C}

variable (server) in
theorem awaitFor_more {c' : C} {s : Service} {n : Nat}
    (hs : step server.elapsed c server.service = (.more c', s)) :
    server.awaitFor step due (n + 1) c = awaitFor step due n c' { server with service := s } := by
  rw [awaitFor, hs]

variable (server) in
/-- A call that does not have to wait runs to its end before all others. -/
theorem awaitFor_of_finishes {n k : Nat} {s' : Service} {a : A}
    (hf : Finishes (step server.elapsed) n c server.service a s') (hn : n ≤ k) :
    server.awaitFor step due k c = (some a, ({ server with service := s' } : Server).settle) := by
  generalize he : server.service = s at hf
  generalize ht : server.elapsed = t at hf
  induction hf generalizing server k with
  | done hs =>
    subst he ht
    cases k with
    | zero => exact absurd hn (Nat.not_succ_le_zero _)
    | succ k => rw [awaitFor, hs]
  | @more n c c' a s s' s'' hs hf ih =>
    subst he ht
    cases k with
    | zero => exact absurd hn (Nat.not_succ_le_zero _)
    | succ k =>
      rw [awaitFor_more _ hs]
      exact ih { server with service := s' } (Nat.le_of_succ_le_succ hn) rfl rfl

variable (server) in
theorem await_of_finishes {n : Nat} {s' : Service} {a : A}
    (hf : Finishes (step server.elapsed) n c server.service a s') (hn : n ≤ 16) :
    server.await step due c = (some a, ({ server with service := s' } : Server).settle) :=
  awaitFor_of_finishes server hf (Nat.le_add_right_of_le hn)

end Await

structure Idle (server : Server) : Prop where
  tasks : server.tasks = []
  sockets : server.sockets = []

namespace Idle

theorem pass (h : server.Idle) : server.pass = (false, server) := by
  obtain ⟨service, elapsed, entropy, tasks, responses, sockets⟩ := server
  obtain ⟨rfl, rfl⟩ := h
  rfl

theorem settle (h : server.Idle) : server.settle = server := by
  unfold Server.settle
  cases server.workload with
  | zero => rfl
  | succ n => rw [settleFor, h.pass]; rfl

theorem due (h : server.Idle) : server.due = none := by
  rw [Server.due, h.tasks, h.sockets]
  rfl

theorem setService (h : server.Idle) (s : Service) : ({ server with service := s } : Server).Idle :=
  ⟨h.tasks, h.sockets⟩

theorem act (h : server.Idle) (f : Service → A × Service) :
    server.act f = ((f server.service).1, { server with service := (f server.service).2 }) := by
  exact congrArg (Prod.mk _) (h.setService _).settle

theorem run_of_finishes (h : server.Idle) {step : C → Service → Step C A × Service} {c : C}
    {n : Nat} {s' : Service} {a : A} (hf : Finishes step n c server.service a s') (hn : n ≤ 16) :
    server.run step c = (some a, { server with service := s' }) := by
  rw [Server.run, await_of_finishes _ hf hn, (h.setService _).settle]

theorem awaitFor_blocked (h : server.Idle) {step : Nat → C → Service → Step C A × Service}
    {due : C → Option Nat} {c : C} {n : Nat}
    (hs : step server.elapsed c server.service = (.blocked, server.service)) :
    server.awaitFor step due (n + 1) c = (match due c with
      | some t => awaitFor step due n c (server.setTime (max t server.elapsed))
      | none => (none, server)) := by
  have he : ({ server with service := server.service } : Server) = server := rfl
  rw [awaitFor, hs]
  dsimp only
  rw [he, h.settle, hs]
  dsimp only
  rw [he, h.due]
  cases due c with
  | none => rfl
  | some t =>
    have ht : (server.setTime (max t server.elapsed)).Idle := ⟨h.tasks, h.sockets⟩
    exact congrArg _ ht.settle

end Idle

end Server

namespace Hub

variable {hub hub' : Hub} {id : Nat} {h : Handle}

theorem find?_subscribe (hg : ∀ t ∈ hub.subscriptions, t.id < hub.nextId)
    (hs : hub.subscribe h = .ok (id, hub')) :
    id = hub.nextId ∧ hub'.find? id = some ⟨id, h, [], true⟩ := by
  unfold subscribe reserve at hs
  split at hs
  · cases hs
    have hn : hub.find? hub.nextId = none :=
      List.find?_eq_none.2 fun t ht => by simpa using Nat.ne_of_lt (hg t ht)
    refine ⟨rfl, ?_⟩
    have hf : (hub.attach h).2.find? hub.nextId = (hub.find? hub.nextId).or
        ([⟨hub.nextId, h, [], true⟩].find? (·.id = hub.nextId)) := List.find?_append
    refine hf.trans ?_
    rw [hn]
    simp
  · cases hs

theorem receive_fresh (hf : hub.find? id = some ⟨id, h, [], true⟩) :
    hub.receive id = (.nothing, hub) := by
  rw [receive, hf]
  rfl

end Hub

namespace Service

variable {R A : Type}

/-- What is done with the result of an operation on a store: there is an answer, and maybe something
to tell about the handle. -/
def deal (h : Handle) (post : R → A × Option Qr.Message) (x : R × Service) : A × Service :=
  ((post x.1).1, (post x.1).2.elim x.2 fun m => x.2.publish h m)

end Service

namespace Qr

def Scan.ending : Except StoreError (Entry Session) → Except Error Scanned × Option Message
  | .error e => (.error (.ofStore e), none)
  | .ok before => (.ok ⟨Agent.describe before.payload.desktopIp before.payload.desktopAgent,
      before.expireAt⟩, some (.ofStatus .scanned))

def Scan.alone (token : String) (s : Service) : Except Error Scanned × Service :=
  match resolve token s with
  | .error e => (.error e, s)
  | .ok h => Service.deal h ending (s.take h Status.pending Status.scanned)

def Confirm.ending (session : Option (Except Session.Error String)) :
    Except StoreError (Entry Session) → Option (Except Error Unit) × Option Message
  | .error e => (some (.error (.ofStore e)), none)
  | .ok _ =>
    match session with
    | none => (none, none)
    | some (.error e) => (some (.error (.sessionMint e.message)), some (.ofStatus .cancelled))
    | some (.ok session) => (some (.ok ()), some (.confirmed session))

def Confirm.alone (token : String) (session : Option String) (random : List UInt8) (s : Service) :
    Option (Except Error Unit) × Service :=
  match s.authenticate session with
  | .error e => (some (.error (.ofAuth e)), s)
  | .ok uid =>
    match resolve token s with
    | .error e => (some (.error e), s)
    | .ok h =>
      Service.deal h (ending (s.mint uid random)) (s.take h Status.scanned Status.confirmed)

def Cancel.ending : Except StoreError Bool → Unit × Option Message
  | .ok true => ((), some (.ofStatus .cancelled))
  | _ => ((), none)

def Cancel.alone (token : String) (s : Service) : Unit × Service :=
  match resolve token s with
  | .error _ => ((), s)
  | .ok h => Service.deal h ending (s.delete Session h)

/-- The look at the entry, when nothing was told since the subscription began. -/
def Watch.look (h : Handle) (id : Nat) (s : Service) : Except Error Watching × Service :=
  match s.get (P := Session) h with
  | (.error e, s) => (.error (.ofStore e), unsubscribe id s)
  | (.ok e, s) => (.ok ⟨id, .ofStatus e.payload.status⟩, s)

def Watch.alone (token : String) (s : Service) : Except Error Watching × Service :=
  match resolve token s with
  | .error e => (.error e, s)
  | .ok h =>
    match s.hub.subscribe h with
    | .error _ => (.error .busy, s)
    | .ok (id, hub) => Watch.look h id { s with hub }

def Wait.alone (token : String) (known : Option Status) (s : Service) :
    Except Error (Option Message) × Service :=
  match Watch.alone token s with
  | (.error e, s) => (.error e, s)
  | (.ok v, s) =>
    (.ok (if known = some v.current.status ∧ ¬v.current.status.isTerminal then none
      else some v.current), unsubscribe v.subscription s)

end Qr

namespace Qr

theorem Scan.finishes (token : String) (s : Service) :
    Finishes Scan.step 2 (.start token) s (Scan.alone token s).1 (Scan.alone token s).2 := by
  unfold Scan.alone
  have hs := Scan.stepped (.start token) s
  generalize he : Scan.step (.start token) s = x at hs
  cases hs with
  | unresolved hr =>
    rw [hr]
    exact .done he
  | untaken hr ht =>
    rw [hr]
    dsimp only
    rw [ht]
    exact .done he
  | taken hr ht =>
    rw [hr]
    dsimp only
    rw [ht]
    exact .more he (.done rfl)

theorem Cancel.finishes (token : String) (s : Service) :
    Finishes Cancel.step 2 (.start token) s (Cancel.alone token s).1 (Cancel.alone token s).2 := by
  unfold Cancel.alone
  have hs := Cancel.stepped (.start token) s
  generalize he : Cancel.step (.start token) s = x at hs
  cases hs with
  | unresolved hr =>
    rw [hr]
    exact .done he
  | deleted hr hd =>
    rw [hr]
    dsimp only
    rw [hd]
    exact .more he (.done rfl)
  | gone hr hd =>
    rw [hr]
    dsimp only
    rw [hd]
    exact .done he
  | failed hr hd =>
    rw [hr]
    dsimp only
    rw [hd]
    exact .done he

theorem mint_of_take {h : Handle} {expected next : Status} {r : Except StoreError (Entry Session)}
    {s s' : Service} (ht : s.take h expected next = (r, s')) (uid : Int64) (random : List UInt8) :
    s'.mint uid random = s.mint uid random := by
  rw [(Service.access_take ht).rest]
  rfl

theorem Confirm.finishes {token : String} {session : Option String} {random : List UInt8}
    {s s' : Service} {a : Except Error Unit}
    (ha : Confirm.alone token session random s = (some a, s')) :
    Finishes Confirm.step 4 (.start token session random) s a s' := by
  unfold Confirm.alone at ha
  cases hu : s.authenticate session with
  | error e =>
    rw [hu] at ha
    cases ha
    exact .done (by rw [Confirm.step, hu])
  | ok uid =>
    rw [hu] at ha
    refine .more (d := .taking uid token random) (by rw [Confirm.step, hu]) ?_
    dsimp only at ha
    split at ha
    · next hr =>
      cases ha
      exact .done (by rw [Confirm.step, hr])
    · next h hr =>
      cases ht : s.take (P := Session) h Status.scanned Status.confirmed with
      | mk r s₁ =>
        rw [ht] at ha
        cases r with
        | error e =>
          cases ha
          exact .done (by rw [Confirm.step, hr]; dsimp only; rw [ht]; rfl)
        | ok e =>
          refine .more (d := .minting uid h random) (t := s₁)
            (by rw [Confirm.step, hr]; dsimp only; rw [ht]) ?_
          have hm := mint_of_take ht uid random
          cases hx : s.mint uid random with
          | none =>
            rw [hx] at ha
            cases ha
          | some x =>
            rw [hx] at ha hm
            cases x with
            | error e =>
              cases ha
              exact .more (by rw [Confirm.step, hm]) (.done rfl)
            | ok session =>
              cases ha
              exact .more (by rw [Confirm.step, hm]) (.done rfl)

/-- A confirmation that is never answered waits for the signing of its session. -/
theorem Confirm.stalls {token : String} {session : Option String} {random : List UInt8}
    {s s' : Service} (ha : Confirm.alone token session random s = (none, s')) :
    ∃ uid h, Confirm.step (.start token session random) s = (.more (.taking uid token random), s) ∧
      Confirm.step (.taking uid token random) s = (.more (.minting uid h random), s') ∧
      Confirm.step (.minting uid h random) s' = (.blocked, s') := by
  unfold Confirm.alone at ha
  split at ha
  · cases ha
  · next uid hu =>
    split at ha
    · cases ha
    · next h hr =>
      cases ht : s.take (P := Session) h Status.scanned Status.confirmed with
      | mk r s₁ =>
        rw [ht] at ha
        cases r with
        | error e => cases ha
        | ok e =>
          have hm := mint_of_take ht uid random
          cases hx : s.mint uid random with
          | none =>
            rw [hx] at ha hm
            obtain rfl : s₁ = s' := congrArg Prod.snd ha
            refine ⟨uid, h, by rw [Confirm.step, hu], ?_, by rw [Confirm.step, hm]⟩
            rw [Confirm.step, hr]
            dsimp only
            rw [ht]
          | some x =>
            rw [hx] at ha
            cases x <;> cases ha

theorem Confirm.run_alone {server : Server} (hi : server.Idle) (token : String)
    (session : Option String) (random : List UInt8) :
    server.run Confirm.step (.start token session random) =
      ((Confirm.alone token session random server.service).1,
        { server with service := (Confirm.alone token session random server.service).2 }) := by
  generalize ha : Confirm.alone token session random server.service = x
  obtain ⟨_ | a, s'⟩ := x
  · obtain ⟨uid, h, hu, ht, hm⟩ := Confirm.stalls ha
    obtain ⟨n, hn⟩ : ∃ n, 16 + server.timers = n + 3 := ⟨13 + server.timers, by omega⟩
    rw [Server.run, Server.await, hn, Server.awaitFor_more _ hu, Server.awaitFor_more _ ht]
    exact (hi.setService s').awaitFor_blocked hm
  · exact hi.run_of_finishes (Confirm.finishes ha) (by decide)

theorem Watch.finishes_look {h : Handle} {id : Nat} {s : Service}
    (hv : s.hub.find? id = some ⟨id, h, [], true⟩) :
    Finishes Watch.step 2 (.reading h id) s (Watch.look h id s).1 (Watch.look h id s).2 := by
  have hk : (s.get (P := Session) h).2.hub = s.hub := (Service.within_get h s).2
  unfold Watch.look
  generalize hq : s.get (P := Session) h = x at hk
  obtain ⟨r, s'⟩ := x
  cases r with
  | ok e => exact .done (by rw [Watch.step, hq])
  | error e =>
    cases e with
    | notFound =>
      refine .more (d := .draining id) (t := s') (by rw [Watch.step, hq]) (.done ?_)
      have hr : s'.hub.receive id = (.nothing, s'.hub) := Hub.receive_fresh (hk ▸ hv)
      rw [Watch.step, hr]
      rfl
    | _ => exact .done (by rw [Watch.step, hq])

theorem Watch.finishes (token : String) {s : Service}
    (hg : ∀ t ∈ s.hub.subscriptions, t.id < s.hub.nextId) :
    Finishes Watch.step 4 (.start token) s (Watch.alone token s).1 (Watch.alone token s).2 := by
  unfold Watch.alone
  cases hr : resolve token s with
  | error e => exact .done (by rw [Watch.step, hr])
  | ok h =>
    cases hp : s.hub.reserve with
    | error e =>
      have hs : s.hub.subscribe h = .error e := by
        rw [Hub.subscribe, hp]
        rfl
      dsimp only
      rw [hs]
      exact .done (by rw [Watch.step, hr]; dsimp only; rw [hp])
    | ok hub =>
      have hs : s.hub.subscribe h = .ok (hub.attach h) := by
        rw [Hub.subscribe, hp]
        rfl
      obtain ⟨hid, hv⟩ := Hub.find?_subscribe hg hs
      dsimp only
      rw [hs]
      refine .more (d := .attaching h) (t := { s with hub })
        (by rw [Watch.step, hr]; dsimp only; rw [hp]) (.more rfl ?_)
      exact Watch.finishes_look (s := { s with hub := (hub.attach h).2 }) hv

theorem Watch.find?_of_alone {token : String} {s s' : Service} {v : Watching}
    (hg : ∀ t ∈ s.hub.subscriptions, t.id < s.hub.nextId)
    (ha : Watch.alone token s = (.ok v, s')) :
    ∃ h, s'.hub.find? v.subscription = some ⟨v.subscription, h, [], true⟩ := by
  unfold Watch.alone at ha
  split at ha
  · cases ha
  · next h _ =>
    split at ha
    · cases ha
    · next id hub hs =>
      have hv := (Hub.find?_subscribe hg hs).2
      have hk : (Service.get (P := Session) h { s with hub }).2.hub = hub :=
        (Service.within_get h { s with hub }).2
      unfold Watch.look at ha
      split at ha
      · cases ha
      · next hx =>
        cases ha
        rw [hx] at hk
        exact ⟨h, hk ▸ hv⟩

theorem Wait.awaitFor_watching {server : Server} {n k : Nat} {w : Watch} (known : Option Status)
    (timeout : Nat) {r : Except Error Watching} {s' : Service}
    (hf : Finishes Watch.step n w server.service r s') (hn : n ≤ k) :
    ∃ j w' s'', k ≤ j + n ∧ w'.step s'' = (.done r, s') ∧
      server.awaitFor Wait.step Wait.due k (.watching w known timeout) =
        Server.awaitFor Wait.step Wait.due (j + 1) (.watching w' known timeout)
          { server with service := s'' } := by
  generalize he : server.service = s at hf
  induction hf generalizing server k with
  | @done n w r s s' hs =>
    subst he
    cases k with
    | zero => exact absurd hn (Nat.not_succ_le_zero _)
    | succ k => exact ⟨k, w, server.service, by omega, hs, rfl⟩
  | @more n w w₁ r s s₁ s' hs hf ih =>
    subst he
    cases k with
    | zero => exact absurd hn (Nat.not_succ_le_zero _)
    | succ k =>
      obtain ⟨j, w', s'', hj, hd, ha⟩ :=
        @ih { server with service := s₁ } _ (Nat.le_of_succ_le_succ hn) rfl
      refine ⟨j, w', s'', by omega, hd, ?_⟩
      have hm : Wait.step server.elapsed (.watching w known timeout) server.service =
          (.more (.watching w₁ known timeout), s₁) := by rw [Wait.step, hs]
      rw [Server.awaitFor_more _ hm, ha]

theorem Wait.awaitFor_listening {server : Server} (hi : server.Idle) {id : Nat} {h : Handle}
    (hv : server.service.hub.find? id = some ⟨id, h, [], true⟩) (known : Status)
    (deadline n : Nat) :
    ∃ elapsed, server.awaitFor Wait.step Wait.due (n + 2) (.listening id known deadline) =
      (some (.ok none), { server with service := unsubscribe id server.service, elapsed }) := by
  have hc : advanceChange id known server.service = (.unchanged, server.service) := by
    rw [advanceChange, hv]
    dsimp only [Option.map_some, Option.getD_some, List.length_nil]
    rw [nextChange, Hub.receive_fresh hv]
  have late (t k : Nat) (ht : deadline ≤ t) :
      (server.setTime t).awaitFor Wait.step Wait.due (k + 1) (.listening id known deadline) =
        (some (.ok none),
          { server with service := unsubscribe id server.service, elapsed := t }) := by
    have hf : Finishes (Wait.step t) 1 (.listening id known deadline) server.service (.ok none)
        (unsubscribe id server.service) :=
      .done (by rw [Wait.step, hc]; exact if_pos ht)
    have hi' : (server.setTime t).Idle := ⟨hi.tasks, hi.sockets⟩
    rw [Server.awaitFor_of_finishes (server.setTime t) hf (by omega),
      (hi'.setService _).settle]
    rfl
  by_cases ht : deadline ≤ server.elapsed
  · exact ⟨server.elapsed, late server.elapsed (n + 1) ht⟩
  · have hs : Wait.step server.elapsed (.listening id known deadline) server.service =
        (.blocked, server.service) := by rw [Wait.step, hc]; exact if_neg ht
    rw [hi.awaitFor_blocked hs]
    exact ⟨_, late _ n (Nat.le_max_left ..)⟩

section Watched

variable {w : Watch} {known : Option Status} {timeout elapsed : Nat} {s s' : Service} {v : Watching}
  (hw : w.step s = (.done (.ok v), s'))
include hw

theorem Wait.step_listens (ht : ¬v.current.status.isTerminal = true) :
    Wait.step elapsed (.watching w (some v.current.status) timeout) s =
      (.more (.listening v.subscription v.current.status (elapsed + timeout)), s') := by
  rw [Wait.step, hw]
  exact if_neg (by simp [ht])

theorem Wait.step_answers
    (hk : ¬(known = some v.current.status ∧ ¬v.current.status.isTerminal = true)) :
    Wait.step elapsed (.watching w known timeout) s =
      (.done (.ok (some v.current)), unsubscribe v.subscription s') := by
  rw [Wait.step, hw]
  cases known with
  | none => rfl
  | some k =>
    refine if_pos ?_
    by_cases hc : v.current.status = k
    · exact .inr (by simpa [hc] using hk)
    · exact .inl hc

end Watched

theorem Wait.await_alone {server : Server} (hi : server.Idle)
    (hg : ∀ t ∈ server.service.hub.subscriptions, t.id < server.service.hub.nextId)
    (token : String) (known : Option Status) (timeout : Nat) :
    ∃ elapsed, server.await Wait.step Wait.due (.watching (.start token) known timeout) =
      (some (Wait.alone token known server.service).1,
        { server with service := (Wait.alone token known server.service).2, elapsed }) := by
  obtain ⟨j, w, s, hj, hw, ha⟩ := Wait.awaitFor_watching known timeout
    (Watch.finishes token hg) (Nat.le_add_right_of_le (by decide) : 4 ≤ 16 + server.timers)
  have done {r : Except Error (Option Message)} {s' : Service}
      (hs : Wait.step server.elapsed (.watching w known timeout) s = (.done r, s')) :
      Server.awaitFor Wait.step Wait.due (j + 1) (.watching w known timeout)
        { server with service := s } = (some r, { server with service := s' }) := by
    rw [Server.awaitFor_of_finishes { server with service := s } (.done (n := 0) hs)
      (by omega), ((hi.setService s).setService s').settle]
  rw [Server.await, ha, Wait.alone]
  cases hx : Watch.alone token server.service with
  | mk r s' =>
    rw [hx] at hw
    cases r with
    | error e => exact ⟨server.elapsed, done (by rw [Wait.step, hw])⟩
    | ok v =>
      dsimp only
      by_cases hk : known = some v.current.status ∧ ¬v.current.status.isTerminal = true
      · rw [if_pos hk]
        obtain ⟨rfl, ht⟩ := hk
        obtain ⟨h, hv⟩ := Watch.find?_of_alone hg hx
        obtain ⟨n, rfl⟩ : ∃ n, j = n + 2 := ⟨j - 2, by omega⟩
        rw [Server.awaitFor_more { server with service := s } (Wait.step_listens hw ht)]
        exact Wait.awaitFor_listening (hi.setService s') hv _ _ n
      · rw [if_neg hk]
        exact ⟨server.elapsed, done (Wait.step_answers hw hk)⟩

end Qr

end Handoff
