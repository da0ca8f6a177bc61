import Handoff.Proofs.Http.Blind

namespace Handoff

variable {s s' : Service}

namespace Http

namespace Failure

theorem ofGenerate_akin (e e' : Qr.Error) (he : e.Akin e') : ofGenerate e = ofGenerate e' := by
  cases he <;> rfl

theorem ofScan_akin (e e' : Qr.Error) (he : e.Akin e') : ofScan e = ofScan e' := by
  cases he <;> rfl

theorem ofConfirm_akin (e e' : Qr.Error) (he : e.Akin e') : ofConfirm e = ofConfirm e' := by
  cases he <;> rfl

theorem ofWatch_akin (e e' : Qr.Error) (he : e.Akin e') : ofWatch e = ofWatch e' := by
  cases he <;> rfl

theorem ofOAuth_akin (e e' : OAuth.Error) (he : e.Akin e') : ofOAuth e = ofOAuth e' := by
  cases he <;> rfl

theorem ofLink_akin (e e' : OAuth.LinkError) (he : e.Akin e') : ofLink e = ofLink e' := by
  cases he <;> rfl

end Failure

inductive Job.Akin : Job → Job → Prop
  | same (job : Job) : Akin job job
  | confirm {c c' : Qr.Confirm} : c.Akin c' → Akin (.confirm c) (.confirm c')

theorem reply_akin {A E : Type} {R : E → E → Prop} {failure : E → Failure} (message : String)
    (data : A → Json) (hf : ∀ e e', R e e' → failure e = failure e') {a a' : Except E A}
    (ha : Agree R a a') : reply message data failure a = reply message data failure a' := by
  cases ha with
  | ok => rfl
  | error he => exact congrArg Failure.response (hf _ _ he)

theorem respond_akin {C A : Type} {Q : C → C → Prop} {R : A → A → Prop} {job : C → Job}
    {response response' : A → Response} {x x' : Step C A × Service} (hx : Step.Akin Q R x x')
    (hj : ∀ {c c' : C}, Q c c' → (job c).Akin (job c'))
    (hr : ∀ {a a' : A}, R a a' → response a = response' a') :
    Step.Akin Job.Akin Eq (Step.respond job response x) (Step.respond job response' x') := by
  cases hx with
  | more hc hs => exact .more (hj hc) hs
  | done ha hs => exact .done (hr ha) hs
  | blocked hs => exact .blocked hs

theorem Job.Akin.of_eq {C : Type} (job : C → Job) {c c' : C} (hc : c = c') :
    (job c).Akin (job c') :=
  hc ▸ .same (job c)

variable (h : s.Akin s')
include h

theorem Job.step_akin {job job' : Job} (hj : job.Akin job') (elapsed : Nat) :
    Step.Akin Job.Akin Eq (job.step elapsed s) (job'.step elapsed s') := by
  cases hj with
  | confirm hc =>
    refine respond_akin (Qr.Confirm.step_akin h hc) .confirm fun ha => ?_
    cases ha with
    | ok => rfl
    | error he => exact congrArg Failure.response (Failure.ofConfirm_akin _ _ he)
  | same =>
    cases job with
    | confirm c =>
      refine respond_akin (Qr.Confirm.step_akin h (.same c)) .confirm fun ha => ?_
      cases ha with
      | ok => rfl
      | error he => exact congrArg Failure.response (Failure.ofConfirm_akin _ _ he)
    | scan c =>
      exact respond_akin (c.step_akin h) (.of_eq .scan) (reply_akin _ _ Failure.ofScan_akin)
    | cancel c => exact respond_akin (c.step_akin h) (.of_eq .cancel) fun _ => rfl
    | wait c =>
      exact respond_akin (c.step_akin h elapsed) (.of_eq .wait)
        (reply_akin _ _ Failure.ofWatch_akin)
    | oauthBegin c =>
      exact respond_akin (c.step_akin h) (.of_eq .oauthBegin) (reply_akin _ _ Failure.ofOAuth_akin)
    | oauthCallback c =>
      refine respond_akin (c.step_akin h) (.of_eq .oauthCallback) fun ha => ?_
      simp only [reply_akin _ _ Failure.ofOAuth_akin ha, h.cookie]
      cases ha <;> rfl
    | peek c =>
      exact respond_akin (c.step_akin h) (.of_eq .peek) (reply_akin _ _ Failure.ofLink_akin)
    | confirmLink c =>
      refine respond_akin (c.step_akin h) (.of_eq .confirmLink) fun ha => ?_
      simp only [reply_akin _ _ Failure.ofLink_akin ha, h.cookie]
      cases ha <;> rfl

theorem keepSession_akin (token : String) : keepSession token s = keepSession token s' := by
  unfold keepSession
  cases Text.nonBlank token with
  | none => rfl
  | some token =>
    have hv := h.verify token
    dsimp only
    generalize s.verify token = v at hv
    generalize s'.verify token = v' at hv
    cases hv with
    | error => rfl
    | ok =>
      dsimp only
      rw [h.cookie]

theorem statsData_akin (serverTime : String) :
    statsData serverTime s = statsData serverTime s' := by
  have ho : s.setup.oauth.isSome = s'.setup.oauth.isSome := by
    have ho := h.setup.oauth
    generalize s.setup.oauth = o at ho
    generalize s'.setup.oauth = o' at ho
    cases ho <;> rfl
  unfold statsData
  rw [h.setup.qrKey, ho, h.count, h.count, h.count, h.hub]

theorem begin_akin (x : Step Job Response) : Step.Akin Job.Akin Eq (x, s) (x, s') := by
  cases x with
  | more job => exact .more (.same job) h
  | done r => exact .done rfl h
  | blocked => exact .blocked h

theorem Endpoint.start_akin (serverTime : String) (chance : Chance) (r : Request) (e : Endpoint) :
    Step.Akin Job.Akin Eq (e.start serverTime chance r s) (e.start serverTime chance r s') := by
  cases e with
  | health | socket | wait | oauthCallback | scan | confirm => exact begin_akin h _
  | stats => exact .done (congrArg (Response.json 200) (statsData_akin h serverTime)) h
  | generate =>
    have hi := Qr.issue_akin h (clientAddress r.headers) (userAgent r.headers) chance.qrHandle
      chance.nonce
    unfold Endpoint.start
    dsimp only
    generalize Qr.issue _ _ _ _ s = x at hi
    generalize Qr.issue _ _ _ _ s' = x' at hi
    cases hi with
    | ok a hs => exact .done rfl hs
    | error he hs => exact .done (congrArg Failure.response (Failure.ofGenerate_akin _ _ he)) hs
  | cancel | mobileCancel | confirmLink =>
    unfold Endpoint.start
    dsimp only
    split <;> exact begin_akin h _
  | setSession =>
    unfold Endpoint.start
    dsimp only
    split
    · exact .done rfl h
    · exact .done (keepSession_akin h _) h
  | status =>
    unfold Endpoint.start
    dsimp only
    split
    · exact .done rfl h
    · next token _ =>
      have hi := Qr.status_akin h (token.getD "")
      generalize Qr.status (token.getD "") s = x at hi
      generalize Qr.status (token.getD "") s' = x' at hi
      cases hi with
      | ok a hs => exact .done rfl hs
      | error he hs => exact .done (congrArg Failure.response (Failure.ofWatch_akin _ _ he)) hs
  | oauthBegin =>
    unfold Endpoint.start
    dsimp only
    split
    · exact .done rfl h
    · split <;> exact begin_akin h _
  | pendingLink =>
    unfold Endpoint.start
    dsimp only
    split <;> exact begin_akin h _

structure Task.Akin (t t' : Task) : Prop where
  job : t.job.Akin t'.job
  isHead : t.isHead = t'.isHead

omit h in
theorem toTask_akin (isHead : Bool) {x x' : Step Job Response × Service}
    (hx : Step.Akin Job.Akin Eq x x') :
    Step.Akin Task.Akin Eq (Step.toTask isHead x.1, x.2) (Step.toTask isHead x'.1, x'.2) := by
  cases hx with
  | more hj hs => exact .more ⟨hj, rfl⟩ hs
  | done hr hs => exact .done (congrArg (finish isHead) hr) hs
  | blocked hs => exact .blocked hs

theorem Task.step_akin {t t' : Task} (ht : t.Akin t') (elapsed : Nat) :
    Step.Akin Task.Akin Eq (t.step elapsed s) (t'.step elapsed s') := by
  have hx := toTask_akin t.isHead (Job.step_akin h ht.job elapsed)
  unfold Task.step
  rw [← ht.isHead]
  exact hx

theorem accept_akin (serverTime : String) (chance : Chance) (r : Request) :
    Step.Akin Task.Akin Eq (accept serverTime chance r s) (accept serverTime chance r s') := by
  unfold accept
  split
  · exact .done rfl h
  · split
    · exact .done rfl h
    · next reads e _ =>
      by_cases hm : r.method = (if reads then "GET" else "POST") ∨ reads ∧ r.method = "HEAD"
      · rw [if_pos hm, if_pos hm]
        exact toTask_akin _ (Endpoint.start_akin h serverTime chance r e)
      · rw [if_neg hm, if_neg hm]
        exact .done rfl h

namespace Socket

inductive Akin : Socket × Service → Socket × Service → Prop
  | intro (k : Socket) {s s' : Service} : s.Akin s' → Akin (k, s) (k, s')

theorem hangUp_akin (k : Socket) : Akin (k.hangUp s) (k.hangUp s') :=
  .intro _ (h.unsubscribe k.subscription)

theorem proceed_akin (k : Socket) : Akin (k.proceed s) (k.proceed s') := by
  unfold proceed
  split
  · exact hangUp_akin h k
  · exact .intro k h

theorem step_akin (elapsed : Nat) (k : Socket) :
    Option.Rel Akin (k.step elapsed s) (k.step elapsed s') := by
  unfold step
  split
  · exact .none
  · obtain ⟨hc, hs⟩ := Qr.advanceChange_akin h k.subscription k.known
    generalize Qr.advanceChange k.subscription k.known s = x at hc hs
    generalize Qr.advanceChange k.subscription k.known s' = x' at hc hs
    obtain ⟨c, t⟩ := x
    obtain ⟨c', t'⟩ := x'
    change c = c' at hc
    change t.Akin t' at hs
    subst hc
    cases c with
    | changed m => exact .some (proceed_akin hs _)
    | ended => exact .some (hangUp_akin hs k)
    | unchanged =>
      dsimp only
      split
      · exact .some (hangUp_akin hs _)
      · exact .some (.intro _ hs)
      · exact .some (.intro _ hs)
      · split
        · exact .some (hangUp_akin hs k)
        · split
          · exact .some (.intro _ hs)
          · exact .none

end Socket

end Http

open Http

namespace Server

def Named (a b : String × Task) : Prop := a.1 = b.1 ∧ a.2.Akin b.2

/-- The servers are the same but for texts of failures. -/
structure Akin (server server' : Server) : Prop where
  service : server.service.Akin server'.service
  elapsed : server.elapsed = server'.elapsed
  entropy : server.entropy = server'.entropy
  tasks : List.Forall₂ Named server.tasks server'.tasks
  responses : server.responses = server'.responses
  sockets : server.sockets = server'.sockets

variable {server server' : Server}

theorem Akin.setService (h : server.Akin server') {s s' : Service} (hs : s.Akin s') :
    Akin { server with service := s } { server' with service := s' } :=
  ⟨hs, h.elapsed, h.entropy, h.tasks, h.responses, h.sockets⟩

theorem Akin.setTime (h : server.Akin server') (t : Nat) :
    (server.setTime (max t server.elapsed)).Akin (server'.setTime (max t server'.elapsed)) :=
  ⟨h.service, congrArg (max t) h.elapsed, h.entropy, h.tasks, h.responses, h.sockets⟩

def turn (elapsed : Nat) (x : Bool × Service × List (String × Task) × List (String × Response))
    (task : String × Task) : Bool × Service × List (String × Task) × List (String × Response) :=
  match task.2.step elapsed x.2.1 with
  | (.more t, s) => (true, s, x.2.2.1 ++ [(task.1, t)], x.2.2.2)
  | (.done r, s) => (true, s, x.2.2.1, x.2.2.2 ++ [(task.1, r)])
  | (.blocked, s) => (x.1, s, x.2.2.1 ++ [(task.1, task.2)], x.2.2.2)

def socketTurn (elapsed : Nat) (x : Bool × Service × List (String × Socket))
    (socket : String × Socket) : Bool × Service × List (String × Socket) :=
  match socket.2.step elapsed x.2.1 with
  | some (k, s) => (true, s, x.2.2 ++ [(socket.1, k)])
  | none => (x.1, x.2.1, x.2.2 ++ [(socket.1, socket.2)])

theorem pass_eq : server.pass =
    let x := server.tasks.foldl (turn server.elapsed) (false, server.service, [], server.responses)
    let y := server.sockets.foldl (socketTurn server.elapsed) (x.1, x.2.1, [])
    (y.1, { server with
      service := y.2.1
      tasks := x.2.2.1
      responses := x.2.2.2
      sockets := y.2.2 }) := rfl

structure Midway (x x' : Bool × Service × List (String × Task) × List (String × Response)) :
    Prop where
  moved : x.1 = x'.1
  service : x.2.1.Akin x'.2.1
  tasks : List.Forall₂ Named x.2.2.1 x'.2.2.1
  responses : x.2.2.2 = x'.2.2.2

structure Nearly (x x' : Bool × Service × List (String × Socket)) : Prop where
  moved : x.1 = x'.1
  service : x.2.1.Akin x'.2.1
  sockets : x.2.2 = x'.2.2

theorem Midway.turn (elapsed : Nat)
    {x x' : Bool × Service × List (String × Task) × List (String × Response)} (hx : Midway x x')
    {task task' : String × Task} (ht : Named task task') :
    Midway (turn elapsed x task) (turn elapsed x' task') := by
  have hs := Task.step_akin hx.service ht.2 elapsed
  unfold Server.turn
  generalize task.2.step elapsed x.2.1 = y at hs
  generalize task'.2.step elapsed x'.2.1 = y' at hs
  cases hs with
  | more hj hs =>
    exact ⟨rfl, hs, List.rel_append hx.tasks (.cons ⟨ht.1, hj⟩ .nil), hx.responses⟩
  | done hr hs =>
    refine ⟨rfl, hs, hx.tasks, ?_⟩
    dsimp only
    rw [hx.responses, ht.1, hr]
  | blocked hs => exact ⟨hx.moved, hs, List.rel_append hx.tasks (.cons ht .nil), hx.responses⟩

theorem Nearly.turn (elapsed : Nat) {x x' : Bool × Service × List (String × Socket)}
    (hx : Nearly x x') (socket : String × Socket) :
    Nearly (socketTurn elapsed x socket) (socketTurn elapsed x' socket) := by
  have hs := Socket.step_akin hx.service elapsed socket.2
  unfold socketTurn
  generalize socket.2.step elapsed x.2.1 = y at hs
  generalize socket.2.step elapsed x'.2.1 = y' at hs
  cases hs with
  | none => exact ⟨hx.moved, hx.service, congrArg (· ++ [(socket.1, socket.2)]) hx.sockets⟩
  | some hk =>
    cases hk with
    | intro k hs => exact ⟨rfl, hs, congrArg (· ++ [(socket.1, k)]) hx.sockets⟩

variable (h : server.Akin server')
include h

theorem Akin.workload : server.workload = server'.workload := by
  unfold Server.workload
  rw [h.service.hub, h.sockets, h.tasks.length_eq]

omit h in
theorem dueOfTask_akin {t t' : Task} (ht : t.Akin t') : dueOfTask t = dueOfTask t' := by
  obtain ⟨job, isHead⟩ := t
  obtain ⟨job', isHead'⟩ := t'
  cases ht.job <;> rfl

theorem Akin.due : server.due = server'.due := by
  have hd : server.tasks.map (fun t => dueOfTask t.2) =
      server'.tasks.map fun t => dueOfTask t.2 := by
    have ht := h.tasks
    generalize server.tasks = ts at ht
    generalize server'.tasks = ts' at ht
    induction ht with
    | nil => rfl
    | cons hn _ ih => rw [List.map_cons, List.map_cons, ih, dueOfTask_akin hn.2]
  rw [Server.due, Server.due, hd, h.sockets]

theorem Akin.pass : server.pass.1 = server'.pass.1 ∧ server.pass.2.Akin server'.pass.2 := by
  have hx : Midway
      (server.tasks.foldl (turn server.elapsed) (false, server.service, [], server.responses))
      (server'.tasks.foldl (turn server'.elapsed)
        (false, server'.service, [], server'.responses)) :=
    h.elapsed ▸ List.rel_foldl (fun _ _ hx _ _ ht => hx.turn server.elapsed ht)
      ⟨rfl, h.service, .nil, h.responses⟩ h.tasks
  rw [pass_eq, pass_eq]
  generalize server.tasks.foldl _ _ = x at hx
  generalize server'.tasks.foldl _ _ = x' at hx
  have hy : Nearly (server.sockets.foldl (socketTurn server.elapsed) (x.1, x.2.1, []))
      (server'.sockets.foldl (socketTurn server'.elapsed) (x'.1, x'.2.1, [])) := by
    rw [← h.elapsed, ← h.sockets]
    generalize server.sockets = ks
    have hy : Nearly (x.1, x.2.1, []) (x'.1, x'.2.1, []) := ⟨hx.moved, hx.service, rfl⟩
    generalize (x.1, x.2.1, ([] : List (String × Socket))) = y at hy
    generalize (x'.1, x'.2.1, ([] : List (String × Socket))) = y' at hy
    induction ks generalizing y y' with
    | nil => exact hy
    | cons k ks ih => exact ih _ _ (hy.turn server.elapsed k)
  exact ⟨hy.moved, hy.service, h.elapsed, h.entropy, hx.tasks, hx.responses, hy.sockets⟩

theorem Akin.settleFor (n : Nat) : (server.settleFor n).Akin (server'.settleFor n) := by
  induction n generalizing server server' with
  | zero => exact h
  | succ n ih =>
    obtain ⟨hm, hp⟩ := h.pass
    rw [Server.settleFor, Server.settleFor]
    generalize server.pass = x at hm hp
    generalize server'.pass = x' at hm hp
    obtain ⟨moved, next⟩ := x
    obtain ⟨moved', next'⟩ := x'
    change moved = moved' at hm
    subst hm
    cases moved with
    | true => exact ih hp
    | false => exact hp

theorem Akin.settle : server.settle.Akin server'.settle := by
  unfold Server.settle
  rw [h.workload]
  exact h.settleFor _

theorem Akin.timers : server.timers = server'.timers := by
  unfold Server.timers
  rw [h.sockets, h.tasks.length_eq]

section Await

variable {C A : Type} {Q : C → C → Prop} {R : A → A → Prop}
  {step : Nat → C → Service → Step C A × Service} {due : C → Option Nat}

omit h in
theorem awaitFor_akin
    (hstep : ∀ {c c' : C} {s s' : Service}, Q c c' → s.Akin s' → ∀ elapsed,
      Step.Akin Q R (step elapsed c s) (step elapsed c' s'))
    (hdue : ∀ {c c' : C}, Q c c' → due c = due c') (n : Nat) {c c' : C} (hc : Q c c')
    (h : server.Akin server') :
    Option.Rel R (server.awaitFor step due n c).1 (server'.awaitFor step due n c').1 ∧
      (server.awaitFor step due n c).2.Akin (server'.awaitFor step due n c').2 := by
  induction n generalizing c c' server server' with
  | zero => exact ⟨.none, h⟩
  | succ n ih =>
    have hx : Step.Akin Q R (step server.elapsed c server.service)
        (step server'.elapsed c' server'.service) := h.elapsed ▸ hstep hc h.service server.elapsed
    rw [awaitFor, awaitFor]
    generalize step server.elapsed c server.service = x at hx
    generalize step server'.elapsed c' server'.service = x' at hx
    cases hx with
    | done ha hs => exact ⟨.some ha, (h.setService hs).settle⟩
    | more hc hs => exact ih hc (h.setService hs)
    | blocked hs =>
      have h := (h.setService hs).settle
      dsimp only
      generalize settle { server with service := _ } = next at h
      generalize settle { server' with service := _ } = next' at h
      have hy : Step.Akin Q R (step next.elapsed c next.service)
          (step next'.elapsed c' next'.service) := h.elapsed ▸ hstep hc h.service next.elapsed
      generalize step next.elapsed c next.service = y at hy
      generalize step next'.elapsed c' next'.service = y' at hy
      cases hy with
      | done ha hs => exact ⟨.some ha, (h.setService hs).settle⟩
      | more hc hs => exact ih hc (h.setService hs)
      | blocked hs =>
        have h := h.setService hs
        dsimp only
        rw [hdue hc, h.due]
        split
        · exact ih hc (h.setTime _).settle
        · exact ⟨.none, h⟩

variable (due) in
theorem await_akin
    (hstep : ∀ {c c' : C} {s s' : Service}, Q c c' → s.Akin s' → ∀ elapsed,
      Step.Akin Q R (step elapsed c s) (step elapsed c' s'))
    (hdue : ∀ {c c' : C}, Q c c' → due c = due c') {c c' : C} (hc : Q c c') :
    Option.Rel R (server.await step due c).1 (server'.await step due c').1 ∧
      (server.await step due c).2.Akin (server'.await step due c').2 := by
  unfold Server.await
  rw [h.timers]
  exact awaitFor_akin hstep hdue _ hc h

end Await

theorem Akin.draw : server.draw.1 = server'.draw.1 ∧ server.draw.2.Akin server'.draw.2 :=
  ⟨congrArg (fun e => (Chance.draw e).1) h.entropy,
    h.service, h.elapsed, congrArg (fun e => (Chance.draw e).2) h.entropy, h.tasks, h.responses,
    h.sockets⟩

theorem Akin.request (serverTime : String) (r : Request) :
    (server.request serverTime r).1 = (server'.request serverTime r).1 ∧
      (server.request serverTime r).2.Akin (server'.request serverTime r).2 := by
  obtain ⟨hc, hd⟩ := h.draw
  unfold Server.request
  generalize server.draw = x at hc hd
  generalize server'.draw = x' at hc hd
  obtain ⟨chance, next⟩ := x
  obtain ⟨chance', next'⟩ := x'
  change chance = chance' at hc
  change next.Akin next' at hd
  subst hc
  have ha := accept_akin hd.service serverTime chance r
  dsimp only
  generalize accept serverTime chance r next.service = y at ha
  generalize accept serverTime chance r next'.service = y' at ha
  cases ha with
  | done hx hs => exact ⟨congrArg some hx, (hd.setService hs).settle⟩
  | blocked hs => exact ⟨rfl, hd.setService hs⟩
  | more ht hs =>
    obtain ⟨hx, hn⟩ := await_akin (hd.setService hs) dueOfTask
      (fun hc hs elapsed => Task.step_akin hs hc elapsed) dueOfTask_akin ht
    refine ⟨?_, hn⟩
    dsimp only
    generalize (Server.await _ _ _ _).1 = y at hx
    generalize (Server.await _ _ _ _).1 = y' at hx
    cases hx with
    | none => rfl
    | some hx => exact congrArg some hx

theorem Akin.openSocket (name serverTime target : String) :
    (server.openSocket name serverTime target).1 =
      (server'.openSocket name serverTime target).1 := by
  unfold Server.openSocket
  dsimp only
  split
  · exact (h.request _ _).1
  split
  · rfl
  next token _ =>
  have hstep {c c' : Qr.Watch} {s s' : Service} (hc : c = c') (hs : s.Akin s') (_ : Nat) :
      Step.Akin Eq (Agree Qr.Error.Akin) (c.step s) (c'.step s') :=
    hc ▸ Qr.Watch.step_akin hs c
  have hx := (await_akin h (fun _ => none) hstep (fun _ => rfl)
    (Eq.refl (Qr.Watch.start token))).1
  unfold Server.run Server.connect
  generalize server.await _ _ _ = y at hx
  generalize server'.await _ _ _ = y' at hx
  obtain ⟨a, next⟩ := y
  obtain ⟨a', next'⟩ := y'
  cases hx with
  | none => rfl
  | some ha =>
    cases ha with
    | ok => rfl
    | error he => exact congrArg (fun f => some (shared f.response)) (Failure.ofWatch_akin _ _ he)

end Server

end Handoff
