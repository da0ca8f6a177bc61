import Handoff.Proofs.Rendezvous.View
import Handoff.Qr.Session
/-!
The life of one sign-in, apart from the machines that live it: the entry that is stored for it, what
the calls under way still owe it, and what was done to it so far. Whoever moves it on owes a message
to those who listen, and pays later; a confirmation first owes a session.
-/

namespace Handoff.Qr

open View

/-- What a call still has to do for a sign-in that it has moved on. -/
inductive Debt
  | scanned
  | minting
  | ending (m : Message)
  deriving DecidableEq, Repr

def Debt.isScan : Debt → Bool
  | scanned => true
  | _ => false

def Debt.isClosing (d : Debt) : Bool := !d.isScan

/-- What a step of a call does to a sign-in, if it succeeds. -/
inductive Deed
  | issued
  | read
  | scanned
  | taken
  | deleted
  | minted (session : String)
  | unminted
  | told (m : Message)
  deriving DecidableEq, Repr

namespace Deed

def needsEntry : Deed → Bool
  | read => true
  | scanned => true
  | taken => true
  | _ => false

def removes : Deed → Bool
  | taken => true
  | deleted => true
  | _ => false

def isScan : Deed → Bool
  | scanned => true
  | told m => !m.status.isTerminal
  | _ => false

def isClosing : Deed → Bool
  | taken => true
  | deleted => true
  | minted _ => true
  | unminted => true
  | told m => m.status.isTerminal
  | _ => false

end Deed

structure Act where
  id : Nat
  time : Nat
  deed : Deed
  deriving DecidableEq, Repr

def trace (p : Deed → Bool) (as : List Act) : List (Nat × Deed) :=
  (as.filter (p ·.deed)).map fun a => (a.id, a.deed)

@[simp] theorem trace_nil (p : Deed → Bool) : trace p [] = [] := rfl

theorem trace_concat_pos {p : Deed → Bool} {d : Deed} (hd : p d = true) (as : List Act)
    (id now : Nat) : trace p (as ++ [⟨id, now, d⟩]) = trace p as ++ [(id, d)] := by
  simp [trace, hd]

theorem trace_concat_neg {p : Deed → Bool} {d : Deed} (hd : p d = false) (as : List Act)
    (id now : Nat) : trace p (as ++ [⟨id, now, d⟩]) = trace p as := by
  simp [trace, hd]

section Owed

/-! Who owes what. -/

def nobody : Nat → Option Debt := fun _ => none

def only (id : Nat) (d : Debt) : Nat → Option Debt := Function.update nobody id (some d)

def owing (p : Debt → Bool) (owed : Nat → Option Debt) : Nat → Option Debt :=
  fun id => (owed id).filter p

@[simp] theorem owing_nobody (p : Debt → Bool) : owing p nobody = nobody := rfl

theorem owing_update (p : Debt → Bool) (owed : Nat → Option Debt) (id : Nat) (d : Option Debt) :
    owing p (Function.update owed id d) = Function.update (owing p owed) id (d.filter p) := by
  funext k
  by_cases hk : k = id
  · subst hk
    simp [owing]
  · simp [owing, hk]

theorem owing_update_of_none {p : Debt → Bool} {owed : Nat → Option Debt} {id : Nat}
    {d : Option Debt} (ho : (owed id).filter p = none) (hd : d.filter p = none) :
    owing p (Function.update owed id d) = owing p owed := by
  rw [owing_update, hd, ← ho]
  exact Function.update_eq_self id (owing p owed)

theorem only_eq_some {id k : Nat} {d e : Debt} (h : only id d k = some e) : k = id ∧ e = d := by
  unfold only at h
  by_cases hk : k = id
  · subst hk
    rw [Function.update_self] at h
    exact ⟨rfl, (Option.some.inj h).symm⟩
  · rw [Function.update_of_ne hk] at h
    cases h

@[simp] theorem update_only (id : Nat) (d : Debt) (e : Option Debt) :
    Function.update (only id d) id e = Function.update nobody id e := Function.update_idem ..

@[simp] theorem update_nobody_none (id : Nat) : Function.update nobody id none = nobody :=
  Function.update_eq_self id nobody

end Owed

/-- A scan: first the stage, then the message. -/
inductive Scanning : List (Nat × Deed) → (Nat → Option Debt) → Prop
  | idle : Scanning [] nobody
  | owed (i : Nat) : Scanning [(i, .scanned)] (only i .scanned)
  | told (i : Nat) : Scanning [(i, .scanned), (i, .told (.ofStatus .scanned))] nobody

inductive Ended (i : Nat) : Message → List (Nat × Deed) → Prop
  | confirmed (session : String) : Ended i (.confirmed session) [(i, .taken), (i, .minted session)]
  | failed : Ended i (.ofStatus .cancelled) [(i, .taken), (i, .unminted)]
  | cancelled : Ended i (.ofStatus .cancelled) [(i, .deleted)]

/-- The end: the entry is removed, perhaps a session is made, and one message is the last. -/
inductive Closing : List (Nat × Deed) → (Nat → Option Debt) → Prop
  | idle : Closing [] nobody
  | minting (i : Nat) : Closing [(i, .taken)] (only i .minting)
  | owed {i : Nat} {m : Message} {tr : List (Nat × Deed)} : Ended i m tr →
    Closing tr (only i (.ending m))
  | told {i : Nat} {m : Message} {tr : List (Nat × Deed)} : Ended i m tr →
    Closing (tr ++ [(i, .told m)]) nobody

theorem Ended.isTerminal {i : Nat} {m : Message} {tr : List (Nat × Deed)} (h : Ended i m tr) :
    m.status.isTerminal = true := by
  cases h <;> rfl

theorem Ended.ne_nil {i : Nat} {m : Message} {tr : List (Nat × Deed)} (h : Ended i m tr) :
    tr ≠ [] := by
  cases h <;> simp

theorem Scanning.of_nil {f : Nat → Option Debt} (h : Scanning [] f) : f = nobody := by
  cases h
  rfl

theorem Scanning.of_owed {tr : List (Nat × Deed)} {f : Nat → Option Debt} {i : Nat} {d : Debt}
    (h : Scanning tr f) (hi : f i = some d) :
    tr = [(i, .scanned)] ∧ f = only i .scanned ∧ d = .scanned := by
  cases h with
  | idle | told => cases hi
  | owed j =>
    obtain ⟨rfl, rfl⟩ := only_eq_some hi
    exact ⟨rfl, rfl, rfl⟩

theorem Closing.of_nil {f : Nat → Option Debt} (h : Closing [] f) : f = nobody := by
  generalize htr : ([] : List (Nat × Deed)) = tr at h
  cases h with
  | idle => rfl
  | minting i => cases htr
  | owed he => exact absurd htr.symm he.ne_nil
  | told he => simp at htr

theorem Closing.of_minting {tr : List (Nat × Deed)} {f : Nat → Option Debt} {i : Nat}
    (h : Closing tr f) (hi : f i = some .minting) : tr = [(i, .taken)] ∧ f = only i .minting := by
  cases h with
  | idle | told => cases hi
  | minting j =>
    obtain ⟨rfl, -⟩ := only_eq_some hi
    exact ⟨rfl, rfl⟩
  | owed he => cases (only_eq_some hi).2

theorem Closing.of_ending {tr : List (Nat × Deed)} {f : Nat → Option Debt} {i : Nat} {m : Message}
    (h : Closing tr f) (hi : f i = some (.ending m)) : Ended i m tr ∧ f = only i (.ending m) := by
  cases h with
  | idle | told => cases hi
  | minting j => cases (only_eq_some hi).2
  | owed he =>
    obtain ⟨rfl, hd⟩ := only_eq_some hi
    cases hd
    exact ⟨he, rfl⟩

/-- What one step of a call does to a sign-in: the entry and the debt of the call before, the deed,
and both after it. -/
inductive Move (ttl now : Nat) :
    Option (Entry Session) → Option Debt → Deed → Option (Entry Session) → Option Debt → Prop
  | issue {o : Option (Entry Session)} {e : Entry Session} : Vacant now o →
    e.payload.status = .pending → e.expireAt ≤ Text.addTime now ttl →
    Move ttl now o none .issued (some e) none
  | read {e : Entry Session} : e.isExpired now = false →
    Move ttl now (some e) none .read (some e) none
  | scan {e : Entry Session} : e.isExpired now = false → e.payload.status = .pending →
    Move ttl now (some e) none .scanned (moved now Status.scanned e) (some .scanned)
  | tellScan {o : Option (Entry Session)} :
    Move ttl now o (some .scanned) (.told (.ofStatus .scanned)) o none
  | take {e : Entry Session} : e.isExpired now = false → e.payload.status = .scanned →
    Move ttl now (some e) none .taken none (some .minting)
  | mint {o : Option (Entry Session)} (session : String) :
    Move ttl now o (some .minting) (.minted session) o (some (.ending (.confirmed session)))
  | unmint {o : Option (Entry Session)} :
    Move ttl now o (some .minting) .unminted o (some (.ending (.ofStatus .cancelled)))
  | delete {e : Entry Session} :
    Move ttl now (some e) none .deleted none (some (.ending (.ofStatus .cancelled)))
  | tell {o : Option (Entry Session)} {m : Message} :
    Move ttl now o (some (.ending m)) (.told m) o none

theorem Move.of_unborn {ttl now : Nat} {d : Deed} {o : Option (Entry Session)}
    {debt : Option Debt} (h : Move ttl now none none d o debt) : d = .issued := by
  cases h
  rfl

structure Life where
  held : Option (Entry Session)
  owed : Nat → Option Debt
  acts : List Act
  drawn : Bool

namespace Life

inductive Turn (ttl now : Nat) (l : Life) : Life → Prop
  | fade {o : Option (Entry Session)} {drawn : Bool} : Fades now l.held o →
    (l.drawn = true → drawn = true) → Turn ttl now l { l with held := o, drawn }
  | act {id : Nat} {d : Deed} {o : Option (Entry Session)} {debt : Option Debt} {drawn : Bool} :
    Move ttl now l.held (l.owed id) d o debt → (d = .issued → l.drawn = false ∧ drawn = true) →
    (l.drawn = true → drawn = true) →
    Turn ttl now l ⟨o, Function.update l.owed id debt, l.acts ++ [⟨id, now, d⟩], drawn⟩

end Life

end Handoff.Qr
