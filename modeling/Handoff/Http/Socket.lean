import Handoff.Http.Answer

namespace Handoff.Http

inductive Frame
  | text (s : String)
  | binary
  | ping
  | pong
  | close
  deriving DecidableEq, Repr

structure Socket where
  subscription : Nat
  known : Qr.Status
  nextPing : Nat
  endsAt : Nat
  incoming : List Frame
  outgoing : List Frame
  isOpen : Bool
  deriving DecidableEq, Repr

namespace Socket

def pingPeriod : Nat := 30000

def lifetime : Nat := 300000

def send (f : Frame) (k : Socket) : Socket := { k with outgoing := k.outgoing ++ [f] }

def sendStatus (m : Qr.Message) (k : Socket) : Socket :=
  { k.send (.text m.encode) with known := m.status }

def hangUp (k : Socket) (s : Service) : Socket × Service :=
  ({ k.send .close with isOpen := false }, Qr.unsubscribe k.subscription s)

def proceed (k : Socket) (s : Service) : Socket × Service :=
  if k.known.isTerminal then k.hangUp s else (k, s)

def start (elapsed : Nat) (w : Qr.Watching) (s : Service) : Socket × Service :=
  let k : Socket := ⟨w.subscription, w.current.status, elapsed + pingPeriod, elapsed + lifetime,
    [], [], true⟩
  (k.sendStatus w.current).proceed s

def step (elapsed : Nat) (k : Socket) (s : Service) : Option (Socket × Service) :=
  if !k.isOpen then none
  else match Qr.advanceChange k.subscription k.known s with
    | (.changed m, s) => some ((k.sendStatus m).proceed s)
    | (.ended, s) => some (k.hangUp s)
    | (.unchanged, s) =>
      match k.incoming with
      | .close :: rest => some ({ k with incoming := rest }.hangUp s)
      | .ping :: rest => some ({ k with incoming := rest }.send .pong, s)
      | _ :: rest => some ({ k with incoming := rest }, s)
      | [] =>
        if k.endsAt ≤ elapsed then some (k.hangUp s)
        else if k.nextPing ≤ elapsed then
          some ({ k with nextPing := k.nextPing + pingPeriod }.send .ping, s)
        else none

def due (k : Socket) : Option Nat := if k.isOpen then some (min k.nextPing k.endsAt) else none

def receive (f : Frame) (k : Socket) : Bool × Socket :=
  if k.isOpen then (true, { k with incoming := k.incoming ++ [f] }) else (false, k)

def read (skipPings : Bool) (k : Socket) : Option Frame × Socket :=
  match if skipPings then k.outgoing.dropWhile (· = .ping) else k.outgoing with
  | [] => (none, { k with outgoing := [] })
  | .close :: _ => (some .close, { k with outgoing := [.close] })
  | f :: rest => (some f, { k with outgoing := rest })

end Socket

end Handoff.Http
