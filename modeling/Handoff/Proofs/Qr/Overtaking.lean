import Handoff.Proofs.Qr.Token
import Handoff.Proofs.Run.Log

namespace Handoff

/-- A watch of the sign-in under `h` subscribes as number `id` while the sign-in is live, and before
it reads, the call `remover` removes the entry; `since` is logged from its subscription to its look
`r` for the last message. -/
structure Overtaken (log : List Record) (h : Handle) (id remover : Nat) (since : List Record)
    (r : Record) : Prop where
  subscribed : ∃ l₁ a l₂, log = l₁ ++ a :: (since ++ r :: l₂) ∧
    a.call.watch? = some (.attaching h) ∧ a.before.hub.nextId = id ∧
    ∃ e, a.before.view h = some e ∧ e.isExpired a.before.now = false
  removed : ∃ l₁ x l₂ y l₃, since = l₁ ++ x :: (l₂ ++ y :: l₃) ∧ x.id = remover ∧
    (x.did = some (h, .taken) ∨ x.did = some (h, .deleted)) ∧
    y.call.watch? = some (.reading h id)
  looks : r.call.watch? = some (.draining id)

namespace Race

section Parts

variable (setup : Setup) (limit : Nat) (users : Users) (now : UInt64) (h : Handle)

def offered (s : Qr.Status) : Entry Qr.Session :=
  ⟨h, now.toNat, setup.qrTtl,
    (Qr.Session.pending "" (Text.clip Qr.maxAgent (Text.trim ""))).advance s now.toNat⟩

def serving (es : List (Entry Qr.Session)) (hub : Hub) : Service :=
  ⟨setup, now.toNat, .memory ⟨⟨es⟩, .empty, .empty⟩, hub, users, .none⟩

def reserved : Hub := ⟨limit + 1, 1, [], [], 0⟩

def attended (ms : List Qr.Message) : Hub := ⟨limit + 1, 1, [h], [⟨0, h, ms, true⟩], 1⟩

abbrev glance (w : Qr.Watch) : Call := .wait (.watching w none 0)

/-- The scan has taken the sign-in when the watch subscribes; then the sign-in is cancelled, and
only now the scan is told. The watch reads after that, before the cancellation is told. -/
def events (token : String) (nonce : List UInt8) : List Event :=
  [.begin (.issue "" "" h nonce) 0, .begin (.scan (.start token)) 0,
    .begin (glance (.start token)) 0, .step 2 0, .begin (.cancel (.start token)) 0, .step 1 0,
    .step 2 0, .step 2 0]

end Parts

section Run

variable {setup : Setup} {limit : Nat} {users : Users} {now : UInt64} {h : Handle}
  {key : Gcm.Key} {token : String} {nonce : List UInt8}

theorem offered_live (s : Qr.Status) : (offered setup now h s).isExpired now.toNat = false := by
  have hn := now.toNat_lt
  apply decide_eq_false
  simp only [Entry.expireAt, offered, Text.addTime, Text.maxWord]
  omega

theorem find?_offered (s : Qr.Status) :
    Memory.find? h ⟨[offered setup now h s]⟩ = some (offered setup now h s) := by
  simp [Memory.find?, offered]

theorem get_offered (s : Qr.Status) : Memory.get now.toNat h ⟨[offered setup now h s]⟩ =
    (.ok (offered setup now h s), ⟨[offered setup now h s]⟩) := by
  simp [Memory.get, find?_offered, offered_live]

theorem take_offered : Memory.take now.toNat h Qr.Status.pending Qr.Status.scanned
    ⟨[offered setup now h .pending]⟩ =
      (.ok (offered setup now h .pending), ⟨[offered setup now h .scanned]⟩) := by
  rw [Memory.take, get_offered]
  simp [Memory.store, Memory.remove, offered, Staged.stage, Stage.isTerminal, Staged.advance,
    Qr.Session.advance, Qr.Session.pending, Qr.Status.isTerminal]

variable (users now h nonce) in
theorem issue_step (hk : setup.qrKey = some key) (hub : Hub) :
    ∃ a, (Call.issue "" "" h nonce).step 0 (serving setup users now [] hub) =
      (.done a, serving setup users now [offered setup now h .pending] hub) := by
  rw [Call.step, Qr.issue, serving, hk]
  exact ⟨_, rfl⟩

section Opened

variable (hr : ∀ s : Service, s.setup = setup → Qr.resolve token s = .ok h)

include hr

theorem scan_step (hub : Hub) :
    (Call.scan (.start token)).step 0 (serving setup users now [offered setup now h .pending] hub) =
      (.more (.scan (.publishing h (offered setup now h .pending))),
        serving setup users now [offered setup now h .scanned] hub) := by
  rw [Call.step, Qr.Scan.step, hr _ rfl]
  simp [serving, Service.take, Service.failure, Faults.none, Storage.take, Storage.run,
    Shelved.get, take_offered, Shelved.set, Step.lift]

theorem watch_step (es : List (Entry Qr.Session)) :
    (glance (.start token)).step 0 (serving setup users now es (.empty (limit + 1))) =
      (.more (glance (.attaching h)), serving setup users now es (reserved limit)) := by
  rw [glance, Call.step, Qr.Wait.step, Qr.Watch.step, hr _ rfl]
  rfl

theorem cancel_step (s : Qr.Status) (hub : Hub) :
    (Call.cancel (.start token)).step 0 (serving setup users now [offered setup now h s] hub) =
      (.more (.cancel (.publishing h)), serving setup users now [] hub) := by
  rw [Call.step, Qr.Cancel.step, hr _ rfl]
  simp [serving, Service.delete, Service.failure, Faults.none, Storage.delete, Storage.run,
    Shelved.get, Memory.delete, find?_offered, Memory.remove, Shelved.set, Step.lift]
  simp [offered]

end Opened

variable (setup limit users now h) in
theorem tell_step (e : Entry Qr.Session) (es : List (Entry Qr.Session)) :
    ∃ a, (Call.scan (.publishing h e)).step 0 (serving setup users now es (attended limit h [])) =
      (.done (.scan (.ok a)), serving setup users now es (attended limit h [.ofStatus .scanned])) := by
  refine ⟨_, Prod.ext rfl ?_⟩
  simp [Call.step, Qr.Scan.step, Step.lift, serving, Service.publish, Hub.publish, attended,
    Hub.hears, Hub.deliver, Hub.keepLast, Qr.Message.ofStatus, Hub.capacity, Qr.Status.isTerminal]

section Log

variable (setup limit users now h)

def subscribing : Record :=
  ⟨2, glance (.attaching h), serving setup users now [offered setup now h .scanned] (reserved limit),
    .more (glance (.reading h 0)),
    serving setup users now [offered setup now h .scanned] (attended limit h [])⟩

def between (token : String) (told : Answer) : List Record :=
  [⟨3, .cancel (.start token),
      serving setup users now [offered setup now h .scanned] (attended limit h []),
      .more (.cancel (.publishing h)), serving setup users now [] (attended limit h [])⟩,
    ⟨1, .scan (.publishing h (offered setup now h .pending)),
      serving setup users now [] (attended limit h []), .done told,
      serving setup users now [] (attended limit h [.ofStatus .scanned])⟩,
    ⟨2, glance (.reading h 0), serving setup users now [] (attended limit h [.ofStatus .scanned]),
      .more (glance (.draining 0)),
      serving setup users now [] (attended limit h [.ofStatus .scanned])⟩]

theorem published_between (told : Answer) :
    published h (between setup limit users now h token told) = [.ofStatus .scanned] := by
  simp [published, acts, between, Record.act?, Record.did, Call.did, glance, Call.watch?,
    Qr.Watch.did, serving, Faults.none, Service.get,
    Service.failure, Storage.get, Storage.run, Shelved.get, Memory.get, Memory.find?, Qr.tellings,
    Qr.Deed.told?]

end Log

variable (limit users now nonce) in
theorem log_events (hk : setup.qrKey = some key)
    (hr : ∀ s : Service, s.setup = setup → Qr.resolve token s = .ok h) :
    ∃ l told r, ((World.start setup .memory (limit + 1) users now).run (events h token nonce)).log =
      l ++ subscribing setup limit users now h ::
        (between setup limit users now h token told ++ [r]) ∧ r.call = glance (.draining 0) := by
  obtain ⟨issued, hi⟩ := issue_step users now h nonce hk (.empty (limit + 1))
  obtain ⟨told, ht⟩ := tell_step setup limit users now h (offered setup now h .pending) []
  have ha : (glance (.attaching h)).step 0
      (serving setup users now [offered setup now h .scanned] (reserved limit)) =
      (.more (glance (.reading h 0)),
        serving setup users now [offered setup now h .scanned] (attended limit h [])) := rfl
  have hg : (glance (.reading h 0)).step 0
      (serving setup users now [] (attended limit h [.ofStatus .scanned])) =
      (.more (glance (.draining 0)),
        serving setup users now [] (attended limit h [.ofStatus .scanned])) := rfl
  change ∃ l told r, (World.run ⟨serving setup users now [] (.empty (limit + 1)), fun _ => none, 0,
    [], []⟩ (events h token nonce)).log = _ ∧ _
  simp [events, World.next, World.admits, Call.isStart, Call.handles, World.perform, World.record,
    Step.rest, Function.update, hi, scan_step hr, watch_step hr, cancel_step hr, ht, ha, hg]
  exact ⟨[_, _, _], .scan (.ok told), _, rfl, rfl⟩

theorem overtaken (hk : setup.qrKey = some key)
    (ht : Qr.Token.unwrap key token = .ok ⟨h, now.toNat⟩) :
    ∃ since r, published h since = [.ofStatus .scanned] ∧ Overtaken
      ((World.start setup .memory (limit + 1) users now).run (events h token nonce)).log
      h 0 3 since r := by
  have hr (s : Service) (hs : s.setup = setup) : Qr.resolve token s = .ok h := by
    rw [Qr.resolve, Qr.openToken, hs, hk]
    dsimp only
    rw [ht]
    rfl
  obtain ⟨l, told, r, hl, hc⟩ := log_events limit users now nonce hk hr
  refine ⟨between setup limit users now h token told, r,
    published_between setup limit users now h told, ?_, ?_, by rw [hc]; rfl⟩
  · exact ⟨l, _, [], hl, rfl, rfl, offered setup now h .scanned, find?_offered _, offered_live _⟩
  · exact ⟨[], _, [_], _, [], rfl, rfl, .inr rfl, rfl⟩

theorem overtaken_fresh (hk : setup.qrKey = some key) (hs : key.schedule.Sound)
    (hn : nonce.length = Gcm.nonceSize) {random : List UInt8}
    (hr : random.length = Qr.handleBytes) :
    ∃ since r, published (.ofEntropy random) since = [.ofStatus .scanned] ∧ Overtaken
      ((World.start setup .memory (limit + 1) users now).run
        (events (.ofEntropy random) (Qr.Token.wrap key nonce ⟨.ofEntropy random, now.toNat⟩)
          nonce)).log (.ofEntropy random) 0 3 since r :=
  overtaken hk (Qr.Token.unwrap_fresh hs hn hr (Nat.le_of_lt_succ now.toNat_lt))

end Run

def key : Gcm.Key :=
  .ofBytes (Hmac.sha256 (Text.Utf8.encode Qr.Token.purpose) (Text.Utf8.encode "qr-secret"))

def setup : Setup := ⟨some key, ⟨"session-secret", 3600⟩, 180000, 600000, none, false⟩

def handle : Handle := .ofEntropy (List.replicate 32 0)

def nonce : List UInt8 := List.replicate 12 0

def token : String := Qr.Token.wrap key nonce ⟨handle, 0⟩

theorem overtaken_example : ∃ since r, published handle since = [.ofStatus .scanned] ∧
    Overtaken ((World.start setup .memory 1 .empty 0).run (events handle token nonce)).log
      handle 0 3 since r :=
  overtaken_fresh rfl (Gcm.Key.sound_ofBytes (Hmac.length_sha256 _ _)) List.length_replicate
    List.length_replicate

end Race

end Handoff
