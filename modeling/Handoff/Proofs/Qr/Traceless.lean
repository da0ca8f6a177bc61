import Handoff.Proofs.Qr.Independence
import Handoff.Proofs.Run.Trail

namespace Handoff

open Service

namespace Service

variable {s s' : Service} {h : Handle}

theorem Spares.unsubscribe (hs : s.Spares s') (id : Nat) : s.Spares (Qr.unsubscribe id s') := hs

theorem Sound.get_spares (hs : s.Sound) {r : Except StoreError (Entry Qr.Session)}
    (hr : s.get h = (r, s')) : s.Spares s' :=
  (get_untouched hs.storage hr).stock

end Service

namespace Qr

/-- The sign-in of the token has come to its end without a session: its entry went, and then its end
was told, once each, and that is all. -/
structure Undone (h : Handle) (l : Pieces) : Prop where
  removed : Once (Removes .qrSession h) Spares l
  told : Once (fun s s' => s'.hub = (s.hub.publish h (.ofStatus .cancelled)).2)
    (fun s s' => s'.hub = s.hub) l
  users : ∀ x ∈ l, x.2.users = x.1.users

structure Traceless (setup : Setup) (c : Call) (a : Answer) (l : Pieces) : Prop where
  issue {ip agent : String} {h : Handle} {nonce : List UInt8} {e : Error} :
    c = .issue ip agent h nonce → a = .issue (.error e) → ∀ x ∈ l, x.1.Untouched x.2
  scan {d : Scan} {e : Error} : c = .scan d → a = .scan (.error e) → ∀ x ∈ l, x.1.Untouched x.2
  confirm {d : Confirm} {e : Error} : c = .confirm d → a = .confirm (.error e) →
    (∀ text, e ≠ .sessionMint text) → ∀ x ∈ l, x.1.Untouched x.2
  unminted {token text : String} {session : Option String} {random : List UInt8} :
    c = .confirm (.start token session random) → a = .confirm (.error (.sessionMint text)) →
    ∃ h, StandsFor setup token h ∧ Undone h l
  wait {d : Wait} {e : Error} : c = .wait d → a = .wait (.error e) →
    (∀ x ∈ l, x.1.Spares x.2) ∧ l.gained = 0
  follow {d : Follow} {e : Error} : c = .follow d → a = .follow (.error e) →
    (∀ x ∈ l, x.1.Spares x.2) ∧ l.gained = 0

theorem Undone.join {h : Handle} {l : Pieces} {s s' : Service} (hu : Undone h l)
    (hj : Joined s l s') : Undone h [(s, s')] where
  removed := .singleton <| hj.once (.refl s) .trans (fun hs hr => Spares.trans_removes hs hr)
    (fun hr hs => Removes.trans_spares hr hs) hu.removed
  told := .singleton <| hj.once (q := fun s s' => s'.hub = s.hub)
    (p := fun s s' => s'.hub = (s.hub.publish h (.ofStatus .cancelled)).2) rfl
    (fun h h' => h'.trans h) (fun h h' => by rw [h', h]) (fun h h' => h'.trans h) hu.told
  users := by
    rw [List.forall_mem_singleton]
    exact hj.all (q := fun s s' => s'.users = s.users) rfl (fun h h' => h'.trans h) hu.users

theorem Traceless.join {setup : Setup} {c : Call} {a : Answer} {l : Pieces} {s s' : Service}
    (ht : Traceless setup c a l) (hj : Joined s l s') : Traceless setup c a [(s, s')] := by
  have waited (hl : (∀ x ∈ l, x.1.Spares x.2) ∧ l.gained = 0) :
      (∀ x ∈ [(s, s')], x.1.Spares x.2) ∧ Pieces.gained [(s, s')] = 0 := by
    rw [List.forall_mem_singleton]
    refine ⟨hj.all (.refl s) .trans hl.1, ?_⟩
    rw [← hl.2, hj.gained]
    exact (Joined.nil (s := s)).snoc.gained
  exact ⟨fun hc ha => hj.untouched (ht.issue hc ha), fun hc ha => hj.untouched (ht.scan hc ha),
    fun hc ha hn => hj.untouched (ht.confirm hc ha hn),
    fun hc ha => (ht.unminted hc ha).imp fun _ h => ⟨h.1, h.2.join hj⟩,
    fun hc ha => waited (ht.wait hc ha), fun hc ha => waited (ht.follow hc ha)⟩

section Steps

variable {setup : Setup} {s : Service} {l : Pieces}

theorem issue_error (hs : s.Sound) {ip agent : String} {h : Handle} {nonce : List UInt8}
    {e : Error} {s' : Service} (hi : issue ip agent h nonce s = (.error e, s')) :
    s.Untouched s' := by
  unfold issue at hi
  split at hi
  · cases hi
    exact .refl s
  · dsimp only at hi
    split at hi
    · next hr =>
      cases hi
      exact put_untouched hs.storage
        (Session.fits_pending ip (Text.clip maxAgent (Text.trim agent))) hr
    · cases hi

def Scan.Trace : Step Scan (Except Error Scanned) → Pieces → Prop
  | .more (.start _), l => l = []
  | .done (.error _), l => ∀ x ∈ l, x.1.Untouched x.2
  | _, _ => True

theorem Scan.trace_step {c : Scan} (hl : Trace (.more c) l) (hs : s.Sound) :
    Trace ((c.step s).1.onto c) (l ++ [(s, (c.step s).2)]) := by
  have hc := c.stepped s
  generalize c.step s = x at hc
  cases hc with
  | unresolved =>
    subst hl
    exact List.forall_mem_singleton.2 (.refl s)
  | untaken _ ht =>
    subst hl
    exact List.forall_mem_singleton.2 (take_untouched hs.storage hs.now_le ht)
  | taken | published => trivial

structure Confirm.Taken (setup : Setup) (token : String) (h : Handle) (l : Pieces) : Prop where
  stands : StandsFor setup token h
  spent : Once (Spends .qrSession h) Untouched l

def Confirm.Trace (setup : Setup) (token : String) :
    Step Confirm (Except Error Unit) → Pieces → Prop
  | .more (.start t _ _), l => t = token ∧ l = []
  | .more (.taking _ t _), l => t = token ∧ ∀ x ∈ l, x.1.Untouched x.2
  | .more (.minting _ h _), l => Taken setup token h l
  | .more (.publishing h m (.error e)), l =>
    m = .ofStatus .cancelled ∧ (∃ text, e = .sessionMint text) ∧ Taken setup token h l
  | .done (.error e), l => (∀ text, e ≠ .sessionMint text) ∧ (∀ x ∈ l, x.1.Untouched x.2) ∨
    (∃ text, e = .sessionMint text) ∧ ∃ h, StandsFor setup token h ∧ Undone h l
  | _, _ => True

theorem Confirm.Taken.idle {token : String} {h : Handle} (ht : Taken setup token h l) :
    Taken setup token h (l ++ [(s, s)]) :=
  ⟨ht.stands, ht.spent.before (.refl s)⟩

theorem Confirm.Taken.undone {token : String} {h : Handle} (ht : Taken setup token h l) :
    Undone h (l ++ [(s, s.publish h (.ofStatus .cancelled))]) where
  removed := (ht.spent.mono (·.removes) (·.stock)).before (.refl s)
  told := .now (ht.spent.all (·.hub) (·.hub)) rfl
  users := Pieces.forall_concat (q := fun s s' => s'.users = s.users)
    (ht.spent.all (·.users) (·.users)) rfl

theorem Confirm.trace_step {token : String} {c : Confirm} (hl : Trace setup token (.more c) l)
    (hs : s.Sound) (hsetup : s.setup = setup) :
    Trace setup token ((c.step s).1.onto c) (l ++ [(s, (c.step s).2)]) := by
  have hc := c.stepped s
  generalize c.step s = x at hc
  cases hc with
  | @rejected t session random e =>
    obtain ⟨-, rfl⟩ := hl
    refine .inl ⟨?_, List.forall_mem_singleton.2 (.refl s)⟩
    cases e <;> rintro text ⟨⟩
  | signedIn =>
    obtain ⟨rfl, rfl⟩ := hl
    exact ⟨rfl, List.forall_mem_singleton.2 (.refl s)⟩
  | unresolved hr => exact .inl ⟨resolve_ne_sessionMint hr, Pieces.forall_concat hl.2 (.refl s)⟩
  | @untaken uid t random h e s' hr ht =>
    refine .inl ⟨?_, Pieces.forall_concat hl.2 (take_untouched hs.storage hs.now_le ht)⟩
    cases e <;> rintro text ⟨⟩
  | @taken uid t random h e s' hr ht =>
    obtain ⟨rfl, hl⟩ := hl
    refine ⟨fun s' hs' => ?_, .now hl (take_spends hs.storage hs.now_le rfl ht)⟩
    rw [← hr]
    exact resolve_congr (hs'.trans hsetup.symm) t
  | stalled => exact hl.idle
  | unminted => exact ⟨rfl, ⟨_, rfl⟩, hl.idle⟩
  | minted => trivial
  | published h m answer =>
    cases answer with
    | ok => trivial
    | error e =>
      obtain ⟨rfl, he, hl⟩ := hl
      exact .inr ⟨he, h, hl.stands, hl.undone⟩

theorem Watch.spares (hs : s.Sound) (w : Watch) : s.Spares (w.step s).2 := by
  have hw := w.stepped s
  generalize w.step s = x at hw
  cases hw with
  | unresolved | busy | reserved | attached | caught | lost => exact .refl s
  | read hr | missed hr => exact hs.get_spares hr
  | failed hr => exact (hs.get_spares hr).unsubscribe _

theorem Watch.spares_of (hs : s.Sound) {w : Watch} {r : Step Watch (Except Error Watching)}
    {s' : Service} (hw : w.step s = (r, s')) : s.Spares s' := by
  have hk := w.spares hs
  rwa [hw] at hk

theorem advanceChange_spares {id : Nat} {known : Status} {c : Change} {s' : Service}
    (hc : advanceChange id known s = (c, s')) : s.Spares s' := by
  cases hc
  exact .refl s

theorem Wait.spares (hs : s.Sound) (elapsed : Nat) (c : Wait) :
    s.Spares (c.step elapsed s).2 := by
  have hc := c.stepped elapsed s
  generalize c.step elapsed s = x at hc
  cases hc with
  | watching hw | failed hw | settled hw => exact Watch.spares_of hs hw
  | answered hw => exact (Watch.spares_of hs hw).unsubscribe _
  | waiting ha => exact advanceChange_spares ha
  | changed ha | ended ha | late ha => exact (advanceChange_spares ha).unsubscribe _

theorem Follow.spares (hs : s.Sound) (c : Follow) : s.Spares (c.step s).2 := by
  have hc := c.stepped s
  generalize c.step s = x at hc
  cases hc with
  | watching hw | failed hw | settled hw => exact Watch.spares_of hs hw
  | answered hw => exact (Watch.spares_of hs hw).unsubscribe _
  | changed ha | waiting ha => exact advanceChange_spares ha
  | ended ha => exact (advanceChange_spares ha).unsubscribe _

end Steps

section Trails

variable {setup : Setup} {l : Pieces} {r : Step Call Answer}

theorem Scan.trail {token : String} (ht : (Call.scan (.start token)).Trail setup l r) :
    ∃ r', r = r'.map .scan .scan ∧ Trace r' l :=
  ht.lifted (c := .start token) (m := fun _ c s => c.step s) (fun _ _ _ => rfl) rfl
    fun _ hl hr => trace_step hl hr.sound

theorem Confirm.trail {token : String} {session : Option String} {random : List UInt8}
    (ht : (Call.confirm (.start token session random)).Trail setup l r) :
    ∃ r', r = r'.map .confirm .confirm ∧ Trace setup token r' l :=
  ht.lifted (c := .start token session random) (m := fun _ c s => c.step s) (fun _ _ _ => rfl)
    ⟨rfl, rfl⟩ fun _ hl hr => trace_step hl hr.sound hr.setup

theorem issue_trail {ip agent : String} {h : Handle} {nonce : List UInt8}
    (ht : (Call.issue ip agent h nonce).Trail setup l r) :
    l = [] ∧ r = .more (.issue ip agent h nonce) ∨
    ∃ s s' a, s.Sound ∧ issue ip agent h nonce s = (a, s') ∧ l = [(s, s')] ∧
      r = .done (.issue a) := by
  induction ht with
  | nil => exact .inl ⟨rfl, rfl⟩
  | @snoc l d s elapsed ht hr ih =>
    obtain ⟨rfl, hd⟩ | ⟨s₀, s₁, a, -, -, -, hd⟩ := ih
    · cases hd
      exact .inr ⟨s, _, _, hr.sound, rfl, rfl, rfl⟩
    · cases hd

theorem traceless_of_trail {c : Call} {a : Answer} (hc : c.isStart = true)
    (ht : c.Trail setup l (.done a)) : Traceless setup c a l := by
  have hg : l.gained = 0 := by
    rw [ht.gained, Call.places_of_isStart hc]
    rfl
  cases c with
  | issue ip agent h nonce =>
    obtain ⟨-, hd⟩ | ⟨s, s', r, hs, hi, rfl, hd⟩ := issue_trail ht <;> cases hd
    refine ⟨fun _ ha => ?_, nofun, nofun, nofun, nofun, nofun⟩
    cases ha
    exact List.forall_mem_singleton.2 (issue_error hs hi)
  | scan c =>
    cases c with
    | publishing => cases hc
    | start token =>
      obtain ⟨r', hr, hl⟩ := Scan.trail ht
      cases r' <;> cases hr
      refine ⟨nofun, fun _ ha => ?_, nofun, nofun, nofun, nofun⟩
      cases ha
      exact hl
  | confirm c =>
    cases c with
    | taking | minting | publishing => cases hc
    | start token session random =>
      obtain ⟨r', hr, hl⟩ := Confirm.trail ht
      cases r' <;> cases hr
      refine ⟨nofun, nofun, fun _ ha hn => ?_, fun hc ha => ?_, nofun, nofun⟩ <;> cases ha
      · obtain ⟨-, hl⟩ | ⟨⟨text, rfl⟩, -⟩ := hl
        · exact hl
        · exact absurd rfl (hn text)
      · cases hc
        obtain ⟨hn, -⟩ | ⟨-, hl⟩ := hl
        · exact absurd rfl (hn _)
        · exact hl
  | wait c =>
    have hl := ht.all_lifted (fun _ _ _ => rfl) fun e hr => Wait.spares hr.sound e _
    exact ⟨nofun, nofun, nofun, nofun, fun _ _ => ⟨hl, hg⟩, nofun⟩
  | follow c =>
    have hl := ht.all_lifted (m := fun _ c s => c.step s) (fun _ _ _ => rfl)
      fun _ hr => Follow.spares hr.sound _
    exact ⟨nofun, nofun, nofun, nofun, nofun, fun _ _ => ⟨hl, hg⟩⟩
  | _ => exact ⟨nofun, nofun, nofun, nofun, nofun, nofun⟩

end Trails

end Qr

namespace World

/-- Whatever a failing call of a sign-in by QR code has found, and whenever others came in between,
it leaves no trace. -/
theorem run_traceless (setup : Setup) (backend : Backend) (limit : Nat) (users : Users)
    (now : UInt64) (es : List Event) :
    ((start setup backend limit users now).run es).Observes (Qr.Traceless setup) :=
  (Reached.run setup backend limit users now es).observes Qr.traceless_of_trail fun ht hj =>
    ht.join hj

section Example

open Race (handle nonce token serving offered)
open Desk (users phone standsFor_token)

def failing (h : Handle) (nonce : List UInt8) (token : String) (faults : Faults) : List Event :=
  [.begin (.issue "" "" h nonce) 0, .begin (.scan (.start token)) 0, .fail faults]

theorem service_failing {setup : Setup} {limit : Nat} {users : Users} {now : UInt64} {h : Handle}
    {key : Gcm.Key} {token : String} {nonce : List UInt8} {faults : Faults}
    (hk : setup.qrKey = some key) (ht : Qr.StandsFor setup token h) :
    ((start setup .memory limit users now).run (failing h nonce token faults)).service =
      { serving setup users now [offered setup now h .scanned] (.empty limit) with faults } := by
  obtain ⟨issued, hi⟩ := Race.issue_step users now h nonce hk (.empty limit)
  change (World.run ⟨serving setup users now [] (.empty limit), fun _ => none, 0, [], []⟩
    (failing h nonce token faults)).service = _
  simp [failing, World.next, World.admits, Call.isStart, Call.handles, World.perform, World.record,
    Step.rest, hi, Race.scan_step ht]

def keyless : Faults := { Faults.none with issue := some (.fails "no key") }

def unsigned : World := (start Race.setup .memory 1 users 0).run (failing handle nonce token keyless)

theorem service_unsigned : unsigned.service =
    { serving Race.setup users 0 [offered Race.setup 0 handle .scanned] (.empty 1) with
      faults := keyless } :=
  service_failing (rfl : Race.setup.qrKey = some Race.key) standsFor_token

theorem setup_unsigned : unsigned.service.setup = Race.setup := by
  rw [service_unsigned]
  rfl

theorem authenticate_unsigned : unsigned.service.authenticate (some phone) = .ok 7 := by
  have ha : unsigned.service.Attends 7 := by
    rw [service_unsigned]
    exact ⟨rfl, rfl, _, rfl⟩
  have hi := Service.authenticate_issue ha (Nat.zero_le _) []
  rw [service_unsigned] at hi ⊢
  exact hi.trans (if_pos (by decide +kernel))

theorem alone_unsigned : ∃ s', Qr.Confirm.alone token (some phone) [] unsigned.service =
    (some (.error (.sessionMint "session issuer failure: no key")), s') := by
  rw [Qr.Confirm.alone, authenticate_unsigned, standsFor_token _ setup_unsigned, service_unsigned]
  refine ⟨_, Prod.ext ?_ rfl⟩
  decide +kernel

/-- The user confirms, no session can be signed for him, and the sign-in ends without one. -/
theorem run_traceless_unsigned : ∃ s', Finishes (Call.step 0) 4
      (.confirm (.start token (some phone) [])) unsigned.service
      (.confirm (.error (.sessionMint "session issuer failure: no key"))) s' ∧
    Qr.Undone handle [(unsigned.service, s')] := by
  obtain ⟨s', ha⟩ := alone_unsigned
  have hf : Finishes (Call.step 0) 4 (.confirm (.start token (some phone) [])) unsigned.service
      (.confirm (.error (.sessionMint "session issuer failure: no key"))) s' :=
    (Qr.Confirm.finishes ha).lift fun _ _ => rfl
  obtain ⟨h, hh, hu⟩ := ((run_traceless Race.setup .memory 1 users 0
    (failing handle nonce token keyless)).alone rfl hf).unminted rfl rfl
  cases (hh _ setup_unsigned).symm.trans (standsFor_token _ setup_unsigned)
  exact ⟨s', hf, hu⟩

end Example

end World

end Handoff
