import Handoff.Server
import Mathlib.Data.List.Forall2
import Mathlib.Data.Option.Basic
/-!
What a failure is called does not get out. Two services are akin where they are the same but for the
texts of what fails, and a step of a request keeps them so.
-/

namespace Handoff

inductive Agree {E A : Type} (R : E → E → Prop) : Except E A → Except E A → Prop
  | ok (a : A) : Agree R (.ok a) (.ok a)
  | error {e e' : E} : R e e' → Agree R (.error e) (.error e')

abbrev Any {E : Type} (_ _ : E) : Prop := True

inductive StoreError.Akin : StoreError → StoreError → Prop
  | same (e : StoreError) : Akin e e
  | backend (text text' : String) : Akin (.backend text) (.backend text')

inductive UserError.Akin : UserError → UserError → Prop
  | same (e : UserError) : Akin e e
  | backend (text text' : String) : Akin (.backend text) (.backend text')

inductive AuthError.Akin : AuthError → AuthError → Prop
  | rejected (why : AuthFailure) : Akin (.rejected why) (.rejected why)
  | backend (text text' : String) : Akin (.backend text) (.backend text')

inductive Qr.Error.Akin : Qr.Error → Qr.Error → Prop
  | same (e : Error) : Akin e e
  | sessionMint (text text' : String) : Akin (.sessionMint text) (.sessionMint text')
  | internal (text text' : String) : Akin (.internal text) (.internal text')

inductive OAuth.Error.Akin : OAuth.Error → OAuth.Error → Prop
  | same (e : Error) : Akin e e
  | provider (e e' : IdentityError) : Akin (.provider e) (.provider e')
  | sessionMint (text text' : String) : Akin (.sessionMint text) (.sessionMint text')
  | internal (text text' : String) : Akin (.internal text) (.internal text')

inductive OAuth.LinkError.Akin : OAuth.LinkError → OAuth.LinkError → Prop
  | same (e : LinkError) : Akin e e
  | sessionMint (text text' : String) : Akin (.sessionMint text) (.sessionMint text')
  | internal (text text' : String) : Akin (.internal text) (.internal text')

inductive IssueFault.Akin : IssueFault → IssueFault → Prop
  | fails (text text' : String) : Akin (.fails text) (.fails text')
  | stalls : Akin .stalls .stalls

/-- The same fails, whatever it is called. -/
structure Faults.Akin (fs fs' : Faults) : Prop where
  store (kind : Kind) (op : StoreOp) :
    Option.Rel StoreError.Akin (fs.store kind op) (fs'.store kind op)
  issue : Option.Rel IssueFault.Akin fs.issue fs'.issue
  verify : Option.Rel Any fs.verify fs'.verify
  users (op : UserOp) : Option.Rel Any (fs.users op) (fs'.users op)

structure Setup.Akin (σ σ' : Setup) : Prop where
  qrKey : σ.qrKey = σ'.qrKey
  issuer : σ.issuer = σ'.issuer
  qrTtl : σ.qrTtl = σ'.qrTtl
  oauthTtl : σ.oauthTtl = σ'.oauthTtl
  oauth : Option.Rel (fun o o' => o.1 = o'.1 ∧ ∀ code, Agree Any (o.2 code) (o'.2 code))
    σ.oauth σ'.oauth
  cookieSecure : σ.cookieSecure = σ'.cookieSecure

structure Service.Akin (s s' : Service) : Prop where
  setup : s.setup.Akin s'.setup
  now : s.now = s'.now
  storage : s.storage = s'.storage
  hub : s.hub = s'.hub
  users : s.users = s'.users
  faults : s.faults.Akin s'.faults

inductive Outcomes {E A : Type} (R : E → E → Prop) :
    Except E A × Service → Except E A × Service → Prop
  | ok (a : A) {s s' : Service} : s.Akin s' → Outcomes R (.ok a, s) (.ok a, s')
  | error {e e' : E} {s s' : Service} : R e e' → s.Akin s' →
    Outcomes R (.error e, s) (.error e', s')

inductive Step.Akin {C A : Type} (Q : C → C → Prop) (R : A → A → Prop) :
    Step C A × Service → Step C A × Service → Prop
  | more {c c' : C} {s s' : Service} : Q c c' → s.Akin s' → Akin Q R (.more c, s) (.more c', s')
  | done {a a' : A} {s s' : Service} : R a a' → s.Akin s' → Akin Q R (.done a, s) (.done a', s')
  | blocked {s s' : Service} : s.Akin s' → Akin Q R (.blocked, s) (.blocked, s')

namespace Service

variable {s s' : Service} (h : s.Akin s')

theorem Akin.setHub (h : s.Akin s') (hub : Hub) :
    Akin { s with hub } { s' with hub } :=
  ⟨h.setup, h.now, h.storage, rfl, h.users, h.faults⟩

section Stores

variable {P S A : Type} [Stage S] [Staged P S] [Shelved P]

include h

theorem Akin.failure (kind : Kind) (op : StoreOp) :
    Option.Rel StoreError.Akin (s.failure kind op) (s'.failure kind op) :=
  h.faults.store kind op

theorem Akin.attempt (kind : Kind) (op : StoreOp) (f : Storage → Except StoreError A × Storage) :
    Outcomes StoreError.Akin
      (match s.failure kind op with
        | some e => (.error e, s)
        | none => ((f s.storage).1, { s with storage := (f s.storage).2 }))
      (match s'.failure kind op with
        | some e => (.error e, s')
        | none => ((f s'.storage).1, { s' with storage := (f s'.storage).2 })) := by
  have hf := h.failure kind op
  generalize s.failure kind op = f₁ at hf
  generalize s'.failure kind op = f₂ at hf
  cases hf with
  | some he => exact .error he h
  | none =>
    dsimp only
    rw [← h.storage]
    obtain ⟨r, storage⟩ := f s.storage
    cases r with
    | ok a => exact .ok a ⟨h.setup, h.now, rfl, h.hub, h.users, h.faults⟩
    | error e => exact .error (.same e) ⟨h.setup, h.now, rfl, h.hub, h.users, h.faults⟩

theorem Akin.put (k : Handle) (p : P) (ttl : Nat) :
    Outcomes StoreError.Akin (s.put k p ttl) (s'.put k p ttl) := by
  have ha := h.attempt (Staged.kind P) .put fun σ => σ.put s.now k p ttl
  unfold Service.put
  rwa [h.now] at ha ⊢

theorem Akin.get (k : Handle) : Outcomes StoreError.Akin (s.get (P := P) k) (s'.get k) := by
  have ha := h.attempt (Staged.kind P) .get fun σ => σ.get (P := P) s.now k
  unfold Service.get
  rwa [h.now] at ha ⊢

theorem Akin.take [DecidableEq S] (k : Handle) (expected next : S) :
    Outcomes StoreError.Akin (s.take (P := P) k expected next) (s'.take k expected next) := by
  have ha := h.attempt (Staged.kind P) .take fun σ => σ.take (P := P) s.now k expected next
  unfold Service.take
  rwa [h.now] at ha ⊢

theorem Akin.takeOnce [Staged P OneShot] (k : Handle) :
    Outcomes StoreError.Akin (s.takeOnce (P := P) k) (s'.takeOnce k) :=
  h.take k OneShot.issued OneShot.consumed

theorem Akin.delete (k : Handle) :
    Outcomes StoreError.Akin (s.delete P k) (s'.delete P k) :=
  h.attempt (Staged.kind P) .delete fun σ => σ.delete P k

variable (P) in
theorem Akin.count [DecidableEq S] : s.count P = s'.count P := by
  have hf := h.failure (Staged.kind P) .size
  unfold Service.count Service.size
  generalize s.failure (Staged.kind P) .size = f at hf
  generalize s'.failure (Staged.kind P) .size = f' at hf
  cases hf with
  | some => rfl
  | none => rw [h.storage]

end Stores

include h

theorem Akin.publish (k : Handle) (m : Qr.Message) : (s.publish k m).Akin (s'.publish k m) := by
  unfold Service.publish
  rw [h.hub]
  exact h.setHub _

theorem Akin.unsubscribe (id : Nat) : (Qr.unsubscribe id s).Akin (Qr.unsubscribe id s') := by
  unfold Qr.unsubscribe
  rw [h.hub]
  exact h.setHub _

theorem Akin.verify (token : String) : Agree Any (s.verify token) (s'.verify token) := by
  have hv := h.faults.verify
  unfold Service.verify
  generalize s.faults.verify = f at hv
  generalize s'.faults.verify = f' at hv
  cases hv with
  | some => exact .error trivial
  | none =>
    dsimp only
    rw [h.setup.issuer, h.now]
    cases s'.setup.issuer.verify s'.now token with
    | ok c => exact .ok c
    | error e => exact .error trivial

theorem Akin.mint (uid : Int64) (random : List UInt8) :
    Option.Rel (Agree Any) (s.mint uid random) (s'.mint uid random) := by
  have hi := h.faults.issue
  unfold Service.mint
  generalize s.faults.issue = f at hi
  generalize s'.faults.issue = f' at hi
  cases hi with
  | none =>
    dsimp only
    rw [h.setup.issuer, h.now]
    exact .some (.ok _)
  | some hi =>
    cases hi with
    | fails => exact .some (.error trivial)
    | stalls => exact .none

theorem Akin.userFailure (op : UserOp) :
    Agree UserError.Akin (s.userFailure op) (s'.userFailure op) := by
  have hu := h.faults.users op
  unfold Service.userFailure
  generalize s.faults.users op = f at hu
  generalize s'.faults.users op = f' at hu
  cases hu with
  | none => exact .ok ()
  | some => exact .error (.backend _ _)

theorem Akin.consult {A : Type} (op : UserOp) {f f' : Except UserError A} (hf : f = f') :
    Agree UserError.Akin (s.userFailure op >>= fun _ => f) (s'.userFailure op >>= fun _ => f') := by
  have hu := h.userFailure op
  subst hf
  generalize s.userFailure op = r at hu
  generalize s'.userFailure op = r' at hu
  cases hu with
  | error he => exact .error he
  | ok =>
    change Agree UserError.Akin f f
    cases f with
    | ok a => exact .ok a
    | error e => exact .error (.same e)

theorem Akin.findById (id : Int64) : Agree UserError.Akin (s.findById id) (s'.findById id) :=
  h.consult .byId (by rw [h.users])

theorem Akin.findByProvider (provider : String) :
    Agree UserError.Akin (s.findByProvider provider) (s'.findByProvider provider) :=
  h.consult .byProvider (by rw [h.users])

theorem Akin.findByEmail (email : String) :
    Agree UserError.Akin (s.findByEmail email) (s'.findByEmail email) :=
  h.consult .byEmail (by rw [h.users])

theorem Akin.linkUser (id : Int64) (i : Identity) :
    Outcomes UserError.Akin (s.linkUser id i) (s'.linkUser id i) := by
  have hu := h.consult .link (congrArg (Users.link id i) h.users)
  unfold Service.linkUser
  generalize (do s.userFailure .link; s.users.link id i) = r at hu
  generalize (do s'.userFailure .link; s'.users.link id i) = r' at hu
  cases hu with
  | ok users => exact .ok () ⟨h.setup, h.now, h.storage, h.hub, rfl, h.faults⟩
  | error he => exact .error he h

theorem Akin.authenticate (session : Option String) :
    Agree AuthError.Akin (s.authenticate session) (s'.authenticate session) := by
  unfold Service.authenticate
  cases session.bind Text.nonBlank with
  | none => exact .error (.rejected .missing)
  | some token =>
    have hv := h.verify token
    dsimp only
    generalize s.verify token = v at hv
    generalize s'.verify token = v' at hv
    cases hv with
    | error => exact .error (.rejected .invalid)
    | ok claims =>
      dsimp only
      split
      · exact .error (.rejected .invalid)
      · have hf := h.findById claims.uid
        generalize s.findById claims.uid = f at hf
        generalize s'.findById claims.uid = f' at hf
        cases hf with
        | error => exact .error (.backend _ _)
        | ok found =>
          cases found with
          | none => exact .error (.rejected .invalid)
          | some u => exact .ok claims.uid

theorem Akin.cookie (token : String) : s.cookie token = s'.cookie token := by
  unfold Service.cookie
  rw [h.setup.issuer, h.setup.cookieSecure]

end Service

end Handoff
