import Handoff.Proofs.Qr.Independence

namespace Handoff

namespace Race

abbrev abide (w : Qr.Watch) : Call := .wait (.watching w (some .pending) 0)

section Parts

variable (setup : Setup) (limit : Nat) (users : Users) (now : UInt64) (h : Handle) (uid : Int64)
  (random : List UInt8)

def signing (token : String) (session : Option String) (nonce : List UInt8) : List Event :=
  [.begin (.issue "" "" h nonce) 0, .begin (abide (.start token)) 0, .step 1 0, .step 1 0,
    .begin (.scan (.start token)) 0, .step 2 0, .begin (.confirm (.start token session random)) 0,
    .step 3 0, .step 3 0, .step 3 0]

def made : String := setup.issuer.issue now.toNat uid random

abbrev pending (hub : Hub) : Service := serving setup users now [offered setup now h .pending] hub

abbrev scanned (hub : Hub) : Service := serving setup users now [offered setup now h .scanned] hub

def ended (session : String) : Hub :=
  ⟨limit + 1, 1, [], [⟨0, h, [.ofStatus .scanned, .confirmed session], false⟩], 1⟩

def seeing : Record :=
  ⟨1, abide (.reading h 0), pending setup users now h (attended limit h []),
    .more (.wait (.listening 0 .pending 0)), pending setup users now h (attended limit h [])⟩

def scanning (token : String) (told : Qr.Scanned) : List Record :=
  [⟨2, .scan (.start token), pending setup users now h (attended limit h []),
      .more (.scan (.publishing h (offered setup now h .pending))),
      scanned setup users now h (attended limit h [])⟩,
    ⟨2, .scan (.publishing h (offered setup now h .pending)),
      scanned setup users now h (attended limit h []), .done (.scan (.ok told)),
      scanned setup users now h (attended limit h [.ofStatus .scanned])⟩]

def taking (token : String) (session : Option String) : List Record :=
  let hub := attended limit h [.ofStatus .scanned]
  let m := Qr.Message.confirmed (made setup now uid random)
  [⟨3, .confirm (.start token session random), scanned setup users now h hub,
      .more (.confirm (.taking uid token random)), scanned setup users now h hub⟩,
    ⟨3, .confirm (.taking uid token random), scanned setup users now h hub,
      .more (.confirm (.minting uid h random)), serving setup users now [] hub⟩,
    ⟨3, .confirm (.minting uid h random), serving setup users now [] hub,
      .more (.confirm (.publishing h m (.ok ()))), serving setup users now [] hub⟩]

def ending : Record :=
  ⟨3, .confirm (.publishing h (.confirmed (made setup now uid random)) (.ok ())),
    serving setup users now [] (attended limit h [.ofStatus .scanned]), .done (.confirm (.ok ())),
    serving setup users now [] (ended limit h (made setup now uid random))⟩

end Parts

section Run

variable {setup : Setup} {limit : Nat} {users : Users} {now : UInt64} {h : Handle}
  {key : Gcm.Key} {token : String} {nonce : List UInt8} {session : Option String} {uid : Int64}
  {random : List UInt8}

theorem take_scanned : Memory.take now.toNat h Qr.Status.scanned Qr.Status.confirmed
    ⟨[offered setup now h .scanned]⟩ = (.ok (offered setup now h .scanned), ⟨[]⟩) := by
  rw [Memory.take, get_offered]
  simp [Memory.remove, offered, Staged.stage, Stage.isTerminal, Qr.Session.advance,
    Qr.Session.pending, Qr.Status.isTerminal]

theorem attach_step : (abide (.attaching h)).step 0 (pending setup users now h (reserved limit)) =
    (.more (abide (.reading h 0)), pending setup users now h (attended limit h [])) := rfl

theorem read_step (hub : Hub) : (abide (.reading h 0)).step 0 (pending setup users now h hub) =
    (.more (.wait (.listening 0 .pending 0)), pending setup users now h hub) := by
  rw [abide, Call.step, Qr.Wait.step, Qr.Watch.step]
  simp [serving, Service.get, Service.failure, Faults.none, Storage.get, Storage.run, Shelved.get,
    get_offered, Shelved.set]
  rfl

theorem enter_step (ha : (serving setup users now [] (.empty 0)).authenticate session = .ok uid)
    (es : List (Entry Qr.Session)) (hub : Hub) :
    (Call.confirm (.start token session random)).step 0 (serving setup users now es hub) =
      (.more (.confirm (.taking uid token random)), serving setup users now es hub) := by
  have ha : (serving setup users now es hub).authenticate session = .ok uid := ha
  rw [Call.step, Qr.Confirm.step, ha]
  rfl

theorem mint_step (hub : Hub) :
    (Call.confirm (.minting uid h random)).step 0 (serving setup users now [] hub) =
      (.more (.confirm (.publishing h (.confirmed (made setup now uid random)) (.ok ()))),
        serving setup users now [] hub) := rfl

theorem end_step (session : String) :
    (Call.confirm (.publishing h (.confirmed session) (.ok ()))).step 0
        (serving setup users now [] (attended limit h [.ofStatus .scanned])) =
      (.done (.confirm (.ok ())), serving setup users now [] (ended limit h session)) := by
  simp [Call.step, Qr.Confirm.step, Step.lift, serving, Service.publish, Hub.publish, attended,
    Hub.hears, Hub.deliver, Hub.keepLast, Qr.Message.ofStatus, Hub.capacity, Qr.Status.isTerminal,
    Qr.Message.confirmed, ended]

section Log

variable (setup limit users now h uid random)

variable (token) in
theorem published_scanning (told : Qr.Scanned) :
    published h (scanning setup limit users now h token told) = [.ofStatus .scanned] := by
  simp [published, acts, scanning, Record.act?, Record.did, Call.did, Qr.tellings, Qr.Deed.told?]

variable (token session) in
theorem published_taking :
    published h (taking setup limit users now h uid random token session) = [] := by
  simp [published, acts, taking, Record.act?, Record.did, Call.did, Call.watch?, Service.mint,
    serving, Faults.none, Qr.tellings, Qr.Deed.told?]

theorem did_seeing : (seeing setup limit users now h).did = some (h, .read) := by
  simp [seeing, Record.did, Call.did, Call.watch?, Qr.Watch.did, serving, Service.get,
    Service.failure, Faults.none, Storage.get, Storage.run, Shelved.get, get_offered]

variable (token session) in
theorem published_signing (told : Qr.Scanned) :
    published h (scanning setup limit users now h token told ++
      (taking setup limit users now h uid random token session ++
        [ending setup limit users now h uid random])) =
      [.ofStatus .scanned, .confirmed (made setup now uid random)] := by
  rw [published_append, published_append, published_scanning, published_taking]
  simp [published, acts, ending, Record.act?, Record.did, Call.did, Qr.tellings, Qr.Deed.told?]

theorem view_attended (ms : List Qr.Message) :
    (attended limit h ms).view 0 = some ⟨0, h, ms, true⟩ := rfl

theorem view_ended (session : String) : (ended limit h session).view 0 =
    some ⟨0, h, [.ofStatus .scanned, .confirmed session], false⟩ := rfl

theorem told?_ending : (ending setup limit users now h uid random).told? =
    some (h, .confirmed (made setup now uid random)) := rfl

end Log

section Opened

variable (hr : ∀ s : Service, s.setup = setup → Qr.resolve token s = .ok h)

include hr

theorem abide_step :
    (abide (.start token)).step 0 (pending setup users now h (.empty (limit + 1))) =
      (.more (abide (.attaching h)), pending setup users now h (reserved limit)) := by
  rw [abide, Call.step, Qr.Wait.step, Qr.Watch.step, hr _ rfl]
  rfl

theorem confirm_step (hub : Hub) :
    (Call.confirm (.taking uid token random)).step 0 (scanned setup users now h hub) =
      (.more (.confirm (.minting uid h random)), serving setup users now [] hub) := by
  rw [Call.step, Qr.Confirm.step, hr _ rfl]
  simp [serving, Service.take, Service.failure, Faults.none, Storage.take, Storage.run,
    Shelved.get, take_scanned, Shelved.set, Step.lift]

variable (limit nonce random) in
/-- Who may sign in does, if nobody disturbs it. -/
theorem run_signing (hk : setup.qrKey = some key)
    (ha : (serving setup users now [] (.empty 0)).authenticate session = .ok uid) :
    let w := (World.start setup .memory (limit + 1) users now).run
      (signing h random token session nonce)
    ∃ l told, w.log = l ++ seeing setup limit users now h ::
        (scanning setup limit users now h token told ++
          (taking setup limit users now h uid random token session ++
            [ending setup limit users now h uid random])) ∧
      w.service = serving setup users now [] (ended limit h (made setup now uid random)) := by
  intro w
  obtain ⟨issued, hi⟩ := issue_step users now h nonce hk (.empty (limit + 1))
  obtain ⟨told, ht⟩ := tell_step setup limit users now h (offered setup now h .pending)
    [offered setup now h .scanned]
  have hw : w = World.run ⟨serving setup users now [] (.empty (limit + 1)), fun _ => none, 0, [],
    []⟩ (signing h random token session nonce) := rfl
  rw [hw]
  simp [signing, World.next, World.admits, Call.isStart, Call.handles, World.perform, World.record,
    Step.rest, Function.update, hi, abide_step hr, attach_step, read_step, scan_step hr, ht,
    enter_step ha, confirm_step hr, mint_step, end_step, seeing, scanning, taking, ending]
  exact ⟨[_, _, _], told, rfl⟩

end Opened

end Run

open Desk (users phone resolve_token)

def signed : World :=
  (World.start setup .memory 1 users 0).run (signing handle [] token (some phone) nonce)

theorem authenticate_phone :
    (serving setup users 0 [] (.empty 0)).authenticate (some phone) = .ok 7 := by
  have ha : (serving setup users 0 [] (.empty 0)).Attends 7 := ⟨rfl, rfl, _, rfl⟩
  exact (Service.authenticate_issue ha (Nat.zero_le _) []).trans (if_pos (by decide +kernel))

theorem signed_eq :
    ∃ l told, signed.log = l ++ seeing setup 0 users 0 handle ::
        (scanning setup 0 users 0 handle token told ++
          (taking setup 0 users 0 handle 7 [] token (some phone) ++
            [ending setup 0 users 0 handle 7 []])) ∧
      signed.service = serving setup users 0 [] (ended 0 handle (made setup 0 7 [])) :=
  run_signing 0 nonce [] (fun s hs => resolve_token (by rw [hs]; rfl)) rfl
    authenticate_phone

end Race

end Handoff
