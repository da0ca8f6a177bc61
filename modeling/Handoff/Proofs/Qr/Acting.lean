import Handoff.Qr.Calls

namespace Handoff.Qr

theorem resolve_congr {s s' : Service} (hs : s.setup = s'.setup) (token : String) :
    resolve token s = resolve token s' := by
  rw [resolve, resolve, openToken, openToken, hs]

theorem resolve_ne_sessionMint {s : Service} {token : String} {e : Error}
    (hr : resolve token s = .error e) (text : String) : e ≠ .sessionMint text := by
  rintro rfl
  unfold resolve openToken at hr
  split at hr
  · cases hr
  · next key _ => cases hu : Token.unwrap key token <;> rw [hu] at hr <;> cases hr

inductive Scan.Stepped (s : Service) : Scan → Step Scan (Except Error Scanned) × Service → Prop
  | unresolved {token : String} {e : Error} : resolve token s = .error e →
    Stepped s (.start token) (.done (.error e), s)
  | untaken {token : String} {h : Handle} {e : StoreError} {s' : Service} :
    resolve token s = .ok h → s.take (P := Session) h .pending .scanned = (.error e, s') →
    Stepped s (.start token) (.done (.error (.ofStore e)), s')
  | taken {token : String} {h : Handle} {e : Entry Session} {s' : Service} :
    resolve token s = .ok h → s.take h Status.pending Status.scanned = (.ok e, s') →
    Stepped s (.start token) (.more (.publishing h e), s')
  | published (h : Handle) (e : Entry Session) : Stepped s (.publishing h e)
    (.done (.ok ⟨Agent.describe e.payload.desktopIp e.payload.desktopAgent, e.expireAt⟩),
      s.publish h (.ofStatus .scanned))

theorem Scan.stepped (c : Scan) (s : Service) : Stepped s c (c.step s) := by
  cases c with
  | start token =>
    rw [Scan.step]
    split
    · next hr => exact .unresolved hr
    · next hr =>
      split
      · next ht => exact .untaken hr ht
      · next ht => exact .taken hr ht
  | publishing h e => exact .published h e

/-- How a confirmation goes on. A session that cannot be made ends the sign-in as a cancellation
does. -/
inductive Confirm.Stepped (s : Service) :
    Confirm → Step Confirm (Except Error Unit) × Service → Prop
  | rejected {token : String} {session : Option String} {random : List UInt8} {e : AuthError} :
    s.authenticate session = .error e →
    Stepped s (.start token session random) (.done (.error (.ofAuth e)), s)
  | signedIn {token : String} {session : Option String} {random : List UInt8} {uid : Int64} :
    s.authenticate session = .ok uid →
    Stepped s (.start token session random) (.more (.taking uid token random), s)
  | unresolved {uid : Int64} {token : String} {random : List UInt8} {e : Error} :
    resolve token s = .error e → Stepped s (.taking uid token random) (.done (.error e), s)
  | untaken {uid : Int64} {token : String} {random : List UInt8} {h : Handle} {e : StoreError}
    {s' : Service} : resolve token s = .ok h →
    s.take (P := Session) h .scanned .confirmed = (.error e, s') →
    Stepped s (.taking uid token random) (.done (.error (.ofStore e)), s')
  | taken {uid : Int64} {token : String} {random : List UInt8} {h : Handle} {e : Entry Session}
    {s' : Service} : resolve token s = .ok h →
    s.take h Status.scanned Status.confirmed = (.ok e, s') →
    Stepped s (.taking uid token random) (.more (.minting uid h random), s')
  | stalled {uid : Int64} {h : Handle} {random : List UInt8} : s.mint uid random = none →
    Stepped s (.minting uid h random) (.blocked, s)
  | unminted {uid : Int64} {h : Handle} {random : List UInt8} {e : Session.Error} :
    s.mint uid random = some (.error e) → Stepped s (.minting uid h random)
      (.more (.publishing h (.ofStatus .cancelled) (.error (.sessionMint e.message))), s)
  | minted {uid : Int64} {h : Handle} {random : List UInt8} {session : String} :
    s.mint uid random = some (.ok session) →
    Stepped s (.minting uid h random) (.more (.publishing h (.confirmed session) (.ok ())), s)
  | published (h : Handle) (m : Message) (answer : Except Error Unit) :
    Stepped s (.publishing h m answer) (.done answer, s.publish h m)

theorem Confirm.stepped (c : Confirm) (s : Service) : Stepped s c (c.step s) := by
  cases c with
  | start token session random =>
    rw [Confirm.step]
    split
    · next ha => exact .rejected ha
    · next ha => exact .signedIn ha
  | taking uid token random =>
    rw [Confirm.step]
    split
    · next hr => exact .unresolved hr
    · next hr =>
      split
      · next ht => exact .untaken hr ht
      · next ht => exact .taken hr ht
  | minting uid h random =>
    rw [Confirm.step]
    split
    · next hm => exact .stalled hm
    · next hm => exact .unminted hm
    · next hm => exact .minted hm
  | publishing h m answer => exact .published h m answer

section Confirm

variable {s s' : Service} {c : Confirm}

theorem Confirm.of_taking {uid : Int64} {token : String} {random : List UInt8}
    (h : c.step s = (.more (.taking uid token random), s')) :
    ∃ session, c = .start token session random ∧ s.authenticate session = .ok uid := by
  have hc := c.stepped s
  rw [h] at hc
  cases hc with
  | signedIn ha => exact ⟨_, rfl, ha⟩

theorem Confirm.of_minting {uid : Int64} {k : Handle} {random : List UInt8}
    (h : c.step s = (.more (.minting uid k random), s')) :
    ∃ token e, c = .taking uid token random ∧ resolve token s = .ok k ∧
      s.take (P := Session) k Status.scanned Status.confirmed = (.ok e, s') := by
  have hc := c.stepped s
  rw [h] at hc
  cases hc with
  | taken hr ht => exact ⟨_, _, rfl, hr, ht⟩

end Confirm

inductive Cancel.Stepped (s : Service) : Cancel → Step Cancel Unit × Service → Prop
  | unresolved {token : String} {e : Error} : resolve token s = .error e →
    Stepped s (.start token) (.done (), s)
  | deleted {token : String} {h : Handle} {s' : Service} : resolve token s = .ok h →
    s.delete Session h = (.ok true, s') → Stepped s (.start token) (.more (.publishing h), s')
  | gone {token : String} {h : Handle} {s' : Service} : resolve token s = .ok h →
    s.delete Session h = (.ok false, s') → Stepped s (.start token) (.done (), s')
  | failed {token : String} {h : Handle} {e : StoreError} {s' : Service} :
    resolve token s = .ok h → s.delete Session h = (.error e, s') →
    Stepped s (.start token) (.done (), s')
  | published (h : Handle) :
    Stepped s (.publishing h) (.done (), s.publish h (.ofStatus .cancelled))

theorem Cancel.stepped (c : Cancel) (s : Service) : Stepped s c (c.step s) := by
  cases c with
  | start token =>
    rw [Cancel.step]
    split
    · next hr => exact .unresolved hr
    · next h hr =>
      cases hd : s.delete Session h with
      | mk r s' =>
        cases r with
        | error e => exact .failed hr hd
        | ok b =>
          cases b with
          | true => exact .deleted hr hd
          | false => exact .gone hr hd
  | publishing h => exact .published h

end Handoff.Qr
