import Handoff.Http.Job
import Handoff.Http.Socket
/-!
The service at work on many requests at once. Requests and sockets take their steps in turn until
none of them can go on; then only time can move them, from one timer to the next.
-/

namespace Handoff

structure Server where
  service : Service
  /-- The time of the timers, in milliseconds. It is not the time of the service. -/
  elapsed : Nat
  entropy : Entropy
  tasks : List (String × Http.Task)
  responses : List (String × Http.Response)
  sockets : List (String × Http.Socket)

namespace Server

def ofService (entropy : Entropy) (service : Service) : Server := ⟨service, 0, entropy, [], [], []⟩

def pass (server : Server) : Bool × Server :=
  let (moved, service, tasks, responses) := server.tasks.foldl
    (fun (moved, service, tasks, responses) (name, t) =>
      match t.step server.elapsed service with
      | (.more t, service) => (true, service, tasks ++ [(name, t)], responses)
      | (.done r, service) => (true, service, tasks, responses ++ [(name, r)])
      | (.blocked, service) => (moved, service, tasks ++ [(name, t)], responses))
    (false, server.service, [], server.responses)
  let (moved, service, sockets) := server.sockets.foldl
    (fun (moved, service, sockets) (name, k) =>
      match k.step server.elapsed service with
      | some (k, service) => (true, service, sockets ++ [(name, k)])
      | none => (moved, service, sockets ++ [(name, k)]))
    (moved, service, [])
  (moved, { server with service, tasks, responses, sockets })

def workload (server : Server) : Nat :=
  let unread := server.service.hub.subscriptions.foldl (fun n s => n + s.unread.length) 0
  let incoming := server.sockets.foldl (fun n k => n + k.2.incoming.length) 0
  16 * (server.tasks.length + 1) * (server.sockets.length + 1) + unread + incoming

def settleFor : Nat → Server → Server
  | 0, server => server
  | n + 1, server =>
    let (moved, server) := server.pass
    if moved then settleFor n server else server

def settle (server : Server) : Server := settleFor server.workload server

def dueOfTask (t : Http.Task) : Option Nat :=
  match t.job with
  | .wait c => c.due
  | _ => none

def earlier : Option Nat → Option Nat → Option Nat
  | some a, some b => some (min a b)
  | a, b => a.or b

def due (server : Server) : Option Nat :=
  ((server.tasks.map fun t => dueOfTask t.2) ++ (server.sockets.map (·.2.due))).foldl earlier none

def setTime (t : Nat) (server : Server) : Server := { server with elapsed := t }

def advanceFor : Nat → Nat → Server → Server
  | 0, t, server => (server.setTime t).settle
  | n + 1, t, server =>
    match server.due.filter (· ≤ t) with
    | some due => advanceFor n t (server.setTime (max due server.elapsed)).settle
    | none => (server.setTime t).settle

def timers (server : Server) : Nat := 16 * (server.sockets.length + server.tasks.length + 1)

def advanceTo (t : Nat) (server : Server) : Server := advanceFor server.timers t server

def awaitFor {C A : Type} (step : Nat → C → Service → Step C A × Service) (due : C → Option Nat) :
    Nat → C → Server → Option A × Server
  | 0, _, server => (none, server)
  | n + 1, c, server =>
    match step server.elapsed c server.service with
    | (.done a, service) => (some a, { server with service }.settle)
    | (.more c, service) => awaitFor step due n c { server with service }
    | (.blocked, service) =>
      let server := { server with service }.settle
      match step server.elapsed c server.service with
      | (.done a, service) => (some a, { server with service }.settle)
      | (.more c, service) => awaitFor step due n c { server with service }
      | (.blocked, service) =>
        let server := { server with service }
        match earlier (due c) server.due with
        | some t => awaitFor step due n c (server.setTime (max t server.elapsed)).settle
        | none => (none, server)

/-- Runs a call to its end; nothing if it waits for something that never happens. -/
def await {C A : Type} (step : Nat → C → Service → Step C A × Service) (due : C → Option Nat)
    (c : C) (server : Server) : Option A × Server :=
  awaitFor step due (16 + server.timers) c server

def run {C A : Type} (step : C → Service → Step C A × Service) (c : C) (server : Server) :
    Option A × Server :=
  server.await (fun _ => step) (fun _ => none) c

def act {A : Type} (f : Service → A × Service) (server : Server) : A × Server :=
  let (a, service) := f server.service
  (a, { server with service }.settle)

def draw (server : Server) : Http.Chance × Server :=
  let (chance, entropy) := Http.Chance.draw server.entropy
  (chance, { server with entropy })

def request (serverTime : String) (r : Http.Request) (server : Server) :
    Option Http.Response × Server :=
  let (chance, server) := server.draw
  match Http.accept serverTime chance r server.service with
  | (.done response, service) => (some response, { server with service }.settle)
  | (.more t, service) => { server with service }.await Http.Task.step dueOfTask t
  | (.blocked, service) => (none, { server with service })

def spawn (name serverTime : String) (r : Http.Request) (server : Server) : Server :=
  let (chance, server) := server.draw
  match Http.accept serverTime chance r server.service with
  | (.done response, service) =>
    { server with service, responses := server.responses ++ [(name, response)] }.settle
  | (.more t, service) => { server with service, tasks := server.tasks ++ [(name, t)] }.settle
  | (.blocked, service) => { server with service }

def collect (name : String) (server : Server) : Option (Http.Response × Server) :=
  (server.responses.find? (·.1 = name)).map fun p =>
    (p.2, { server with responses := server.responses.filter (·.1 ≠ name) })

def joinFor (name : String) : Nat → Server → Option Http.Response × Server
  | 0, server => (none, server)
  | n + 1, server =>
    match server.collect name with
    | some (r, server) => (some r, server)
    | none =>
      match server.due with
      | some t => joinFor name n (server.setTime (max t server.elapsed)).settle
      | none => (none, server)

def join (name : String) (server : Server) : Option Http.Response × Server :=
  joinFor name (server.timers + 1) server

def hasTask (name : String) (server : Server) : Bool :=
  server.tasks.any (·.1 = name) || server.responses.any (·.1 = name)

def findSocket (name : String) (server : Server) : Option Http.Socket :=
  (server.sockets.find? (·.1 = name)).map (·.2)

def setSocket (name : String) (k : Http.Socket) (server : Server) : Server :=
  { server with sockets := (server.sockets.filter (·.1 ≠ name)) ++ [(name, k)] }

def dropSocket (name : String) (server : Server) : Bool × Server :=
  match server.findSocket name with
  | none => (false, server)
  | some k =>
    let service := if k.isOpen then (k.hangUp server.service).2 else server.service
    (true, { server with service, sockets := server.sockets.filter (·.1 ≠ name) }.settle)

/-- The socket of what is watched, under a name, or the response where nothing is. -/
def connect (name : String) (v : Option (Except Qr.Error Qr.Watching)) (server : Server) :
    Option Http.Response × Server :=
  match v with
  | some (.ok w) =>
    let server := (server.dropSocket name).2
    let (k, service) := Http.Socket.start server.elapsed w server.service
    (none, ({ server with service }.setSocket name k).settle)
  | some (.error e) => (some (Http.shared (Http.Failure.ofWatch e).response), server)
  | none => (none, server)

def openSocket (name serverTime target : String) (server : Server) :
    Option Http.Response × Server :=
  let r : Http.Request := ⟨"GET", target, [], ""⟩
  if (Http.Endpoint.find? r.path).map (·.2) ≠ some .socket then server.request serverTime r
  else match Http.socketToken r with
    | .error response => (some (Http.shared response), server)
    | .ok token =>
      let (v, server) := server.run Qr.Watch.step (.start token)
      server.connect name v

def sendFrame (name : String) (f : Http.Frame) (server : Server) : Option Bool × Server :=
  match server.findSocket name with
  | none => (none, server)
  | some k =>
    let (taken, k) := k.receive f
    (some taken, (server.setSocket name k).settle)

def readFor (name : String) (skipPings : Bool) (deadline : Nat) :
    Nat → Server → Option Http.Frame × Server
  | 0, server => (none, server)
  | n + 1, server =>
    match server.findSocket name with
    | none => (none, server)
    | some k =>
      match k.read skipPings with
      | (some f, k) => (some f, server.setSocket name k)
      | (none, k) =>
        let server := server.setSocket name k
        match server.due.filter (· ≤ deadline) with
        | some t => readFor name skipPings deadline n (server.setTime (max t server.elapsed)).settle
        | none => (none, (server.setTime deadline).settle)

def readFrame (name : String) (skipPings : Bool) (within : Nat) (server : Server) :
    Option Http.Frame × Server :=
  readFor name skipPings (server.elapsed + within) (server.timers + 1) server

def sweep (server : Server) : Nat × Server := server.act Service.sweep

/-- Lets the time go on while the reaper makes a pass every `period` milliseconds, the next one at
`tick`. Between two timers one pass does what several would do. -/
def sleepFor (period : Nat) : Nat → Nat → Nat → Server → Nat × Server
  | 0, tick, t, server => (tick, server.advanceTo t)
  | n + 1, tick, t, server =>
    let stop := min t (server.due.getD t)
    if tick ≤ stop then
      let server := (server.advanceTo tick).sweep.2
      sleepFor period n (tick + period * ((stop - tick) / period + 1)) t server
    else if stop < t then sleepFor period n tick t (server.advanceTo stop)
    else (tick, server.advanceTo t)

def sleep (period tick ms : Nat) (server : Server) : Nat × Server :=
  sleepFor period (2 * server.timers + 2) tick (server.elapsed + ms) server

end Server

end Handoff
