import Handoff.Proofs.OAuth.Lives

namespace Handoff

open View Ticket OAuth

namespace Record

structure Begins (h : Handle) (action : Action) (uid : Option Int64) (expireAt : Nat)
    (r : Record) : Prop where
  call : r.call = .oauthBegin (.storing action uid h)
  result : ∃ url, r.result = .done (.oauthBegin (.ok ⟨h.text, url, expireAt⟩))

structure Offers (h : Handle) (uid : Int64) (i : Identity) (expireAt : Nat) (r : Record) :
    Prop where
  call : r.call = .oauthCallback (.storing uid i h)
  result : r.result = .done (.oauthCallback (.ok (.pendingLink h.text expireAt)))

structure Takes {P S : Type} [Stage S] [Staged P S] [Shelved P] (h : Handle) (e : Entry P)
    (r : Record) : Prop where
  held : r.before.storage.view P h = some e
  live : e.isExpired r.before.now = false
  gone : r.after.storage.view P h = none

variable {h : Handle} {r : Record}

theorem Begins.deed? {action : Action} {uid : Option Int64} {expireAt : Nat}
    (hb : r.Begins h action uid expireAt) : r.deed? State h = some (.stored
      (r.before.storage.kept ⟨h, r.before.now, r.before.setup.oauthTtl,
        ⟨.issued, action, uid⟩⟩)) := by
  obtain ⟨url, hr⟩ := hb.result
  rw [deed?_eq_some, hb.call, hr]
  rfl

theorem Offers.deed? {uid : Int64} {i : Identity} {expireAt : Nat}
    (ho : r.Offers h uid i expireAt) : r.deed? PendingLink h = some (.stored
      (r.before.storage.kept ⟨h, r.before.now, r.before.setup.oauthTtl, ⟨.issued, uid, i⟩⟩)) := by
  rw [deed?_eq_some, ho.call, ho.result]
  rfl

theorem of_deed?_state {kept : Entry State} (hd : r.deed? State h = some (.stored kept)) :
    ∃ action uid begun, r.call = .oauthBegin (.storing action uid h) ∧
      r.result = .done (.oauthBegin (.ok begun)) ∧
      kept = r.before.storage.kept ⟨h, r.before.now, r.before.setup.oauthTtl,
        ⟨.issued, action, uid⟩⟩ := by
  rw [deed?_eq_some] at hd
  simp only [Issuing.did] at hd
  split at hd
  · next hc =>
    split at hd
    · next hr =>
      cases hd
      exact ⟨_, _, _, hc, hr, rfl⟩
    · cases hd
  · split at hd <;> simp at hd
  · cases hd

theorem of_deed?_pendingLink {kept : Entry PendingLink}
    (hd : r.deed? PendingLink h = some (.stored kept)) :
    ∃ uid i outcome, r.call = .oauthCallback (.storing uid i h) ∧
      r.result = .done (.oauthCallback (.ok outcome)) ∧
      kept = r.before.storage.kept ⟨h, r.before.now, r.before.setup.oauthTtl,
        ⟨.issued, uid, i⟩⟩ := by
  rw [deed?_eq_some] at hd
  simp only [Issuing.did] at hd
  split at hd
  · next hc =>
    split at hd
    · next hr =>
      cases hd
      exact ⟨_, _, _, hc, hr, rfl⟩
    · cases hd
  · split at hd <;> simp at hd
  · cases hd

end Record

namespace World

variable {w w' : World} {setup : Setup} {r : Record} {h : Handle}

section Stepped

variable (hs : Stepped w r w')
include hs

theorem Stepped.oauthBegin {c : Begin} (hc : r.call = .oauthBegin c) :
    ∃ x, Begin.Stepped r.before c x ∧
      (r.result, r.after) = Step.lift .oauthBegin .oauthBegin x := by
  obtain ⟨elapsed, ht⟩ := hs.taken
  rw [hc, ← hs.before] at ht
  exact ⟨_, c.stepped r.before, ht⟩

theorem Stepped.oauthCallback {c : Callback} (hc : r.call = .oauthCallback c) :
    ∃ x, Callback.Stepped r.before c x ∧
      (r.result, r.after) = Step.lift .oauthCallback .oauthCallback x := by
  obtain ⟨elapsed, ht⟩ := hs.taken
  rw [hc, ← hs.before] at ht
  exact ⟨_, c.stepped r.before, ht⟩

theorem Stepped.oauthBegin_more {d : Begin} (hr : r.result = .more (.oauthBegin d)) :
    ∃ c, r.call = .oauthBegin c ∧ Begin.Stepped r.before c (.more d, r.after) := by
  obtain ⟨elapsed, hl⟩ := hs.led hr
  generalize r.call = c at hl ⊢
  cases hl with
  | @oauthBegin c _ hd => exact ⟨c, rfl, hd ▸ c.stepped r.before⟩

theorem Stepped.oauthCallback_more {d : Callback} (hr : r.result = .more (.oauthCallback d)) :
    ∃ c, r.call = .oauthCallback c ∧ Callback.Stepped r.before c (.more d, r.after) := by
  obtain ⟨elapsed, hl⟩ := hs.led hr
  generalize r.call = c at hl ⊢
  cases hl with
  | @oauthCallback c _ hd => exact ⟨c, rfl, hd ▸ c.stepped r.before⟩

theorem Stepped.confirmLink_more {d : ConfirmLink} (hr : r.result = .more (.confirmLink d)) :
    ∃ c, r.call = .confirmLink c ∧ ConfirmLink.Stepped r.before c (.more d, r.after) := by
  obtain ⟨elapsed, hl⟩ := hs.led hr
  generalize r.call = c at hl ⊢
  cases hl with
  | @confirmLink c _ hd => exact ⟨c, rfl, hd ▸ c.stepped r.before⟩

variable (hw : w.Reached setup)
include hw

theorem Stepped.begins {kept : Entry State} (hd : r.deed? State h = some (.stored kept)) :
    ∃ action uid, r.Begins h action uid (Text.addTime r.before.now setup.oauthTtl) ∧
      kept = r.before.storage.kept ⟨h, r.before.now, setup.oauthTtl, ⟨.issued, action, uid⟩⟩ := by
  have hset : r.before.setup = setup := hs.before ▸ hw.sound.setup
  have hsound : r.before.storage.Sound State := hs.before ▸ hw.ticketed.sound
  obtain ⟨action, uid, begun, hc, hr, hk⟩ := Record.of_deed?_state hd
  rw [hset] at hk
  refine ⟨action, uid, ⟨hc, ?_⟩, hk⟩
  obtain ⟨x, hx, hrx⟩ := hs.oauthBegin hc
  cases hx with
  | stored hp =>
    obtain ⟨rfl, -⟩ := Service.put_ok hsound trivial hp
    exact ⟨_, hset ▸ congrArg Prod.fst hrx⟩
  | failed | unstored => cases hr.symm.trans (congrArg Prod.fst hrx)

theorem Stepped.offers {kept : Entry PendingLink}
    (hd : r.deed? PendingLink h = some (.stored kept)) :
    ∃ uid i, r.Offers h uid i (Text.addTime r.before.now setup.oauthTtl) ∧
      kept = r.before.storage.kept ⟨h, r.before.now, setup.oauthTtl, ⟨.issued, uid, i⟩⟩ := by
  have hset : r.before.setup = setup := hs.before ▸ hw.sound.setup
  have hsound : r.before.storage.Sound PendingLink := hs.before ▸ hw.ticketed.sound
  obtain ⟨uid, i, outcome, hc, hr, hk⟩ := Record.of_deed?_pendingLink hd
  rw [hset] at hk
  refine ⟨uid, i, ⟨hc, ?_⟩, hk⟩
  obtain ⟨x, hx, hrx⟩ := hs.oauthCallback hc
  cases hx with
  | stored hp =>
    obtain ⟨rfl, -⟩ := Service.put_ok hsound trivial hp
    exact hset ▸ congrArg Prod.fst hrx
  | failed | unstored => cases hr.symm.trans (congrArg Prod.fst hrx)

end Stepped

section Held

variable (hw : w.Reached setup)
include hw

theorem Reached.begins_unique {b b' : Record} {action action' : Action} {uid uid' : Option Int64}
    {expireAt expireAt' : Nat} (hb : b ∈ w.log) (hb' : b' ∈ w.log)
    (ho : b.Begins h action uid expireAt) (ho' : b'.Begins h action' uid' expireAt') :
    action = action' ∧ uid = uid' := by
  have hk := (hw.ticketed.lives h).stored_unique (List.mem_filterMap.2 ⟨b, hb, ho.deed?⟩)
    (List.mem_filterMap.2 ⟨b', hb', ho'.deed?⟩)
  have hpay := congrArg Entry.payload hk
  rw [Storage.payload_kept, Storage.payload_kept] at hpay
  cases hpay
  exact ⟨rfl, rfl⟩

variable (hs : Stepped w r w')
include hs

section Takes

variable {P : Type} [Staged P OneShot] [Shelved P] [Staged.Lawful P] [Shelved.Lawful P]
  {e : Entry P}

theorem Reached.takes [Issuing P] [Ticket.Lawful P] (ht : r.before.takeOnce h = (.ok e, r.after)) :
    r.Takes h e := by
  have hsound : r.before.storage.Sound P := hs.before ▸ hw.ticketed.sound
  have hn : r.before.now ≤ Text.maxWord := hs.before ▸ hw.sound.service.now_le
  obtain ⟨he, hx, -, hv⟩ := Service.take_ok hsound hn ht
  refine ⟨he, hx, ?_⟩
  rw [hv, Function.update_self]
  rfl

/-- What is taken was stored by a step of the log, and its time is not over. -/
theorem Reached.stored_of_takes [Issuing P] [Ticket.Lawful P] (ht : r.Takes h e) :
    ∃ b ∈ w.log, ∃ v v', v.Reached setup ∧ Stepped v b v' ∧ b.deed? P h = some (.stored e) ∧
      r.before.now ≤ e.expireAt := by
  obtain ⟨b, hb, hd⟩ := hw.ticketed.of_held (hs.before ▸ ht.held)
  obtain ⟨v, v', hv, -, -, hsb⟩ := hw.of_mem hb
  exact ⟨b, hb, v, v', hv, hsb, hd, Nat.not_lt.1 (of_decide_eq_false ht.live)⟩

end Takes

theorem Reached.begun_of_takes {e : Entry State} (ht : r.Takes h e) : ∃ b ∈ w.log,
    b.Begins h e.payload.action e.payload.userId (Text.addTime b.before.now setup.oauthTtl) ∧
      r.before.now ≤ Text.addTime b.before.now setup.oauthTtl := by
  obtain ⟨b, hb, v, v', hv, hsb, hd, hx⟩ := hw.stored_of_takes hs ht
  obtain ⟨action, uid, hbegins, rfl⟩ := hsb.begins hv hd
  rw [Storage.payload_kept]
  exact ⟨b, hb, hbegins, Nat.le_trans hx (Storage.expireAt_kept_le _ _)⟩

theorem Reached.offered_of_takes {e : Entry PendingLink} (ht : r.Takes h e) : ∃ b ∈ w.log,
    b.Offers h e.payload.userId e.payload.identity (Text.addTime b.before.now setup.oauthTtl) ∧
      r.before.now ≤ Text.addTime b.before.now setup.oauthTtl := by
  obtain ⟨b, hb, v, v', hv, hsb, hd, hx⟩ := hw.stored_of_takes hs ht
  obtain ⟨uid, i, hoffers, rfl⟩ := hsb.offers hv hd
  rw [Storage.payload_kept]
  exact ⟨b, hb, hoffers, Nat.le_trans hx (Storage.expireAt_kept_le _ _)⟩

theorem Reached.exchanging {st : State} {code : String} {chance : Chance}
    (hr : r.result = .more (.oauthCallback (.exchanging st code chance))) :
    ∃ state code' denied h e, r.call = .oauthCallback (.start state code' denied chance) ∧
      precheck state code' denied r.before = .ok (h, code) ∧ r.Takes h e ∧ e.payload = st := by
  obtain ⟨c, hc, hx⟩ := hs.oauthCallback_more hr
  cases hx with
  | taken hp ht => exact ⟨_, _, _, _, _, hc, hp, hw.takes hs ht, rfl⟩

theorem Reached.redeeming {l : PendingLink} {random : List UInt8}
    (hr : r.result = .more (.confirmLink (.linking l random))) :
    ∃ token h e, r.call = .confirmLink (.start token random) ∧
      Handle.parse token linkBytes = some h ∧ r.Takes h e ∧ e.payload = l := by
  obtain ⟨c, hc, hx⟩ := hs.confirmLink_more hr
  cases hx with
  | taken hh ht => exact ⟨_, _, _, hc, hh, hw.takes hs ht, rfl⟩

end Held

end World

namespace OAuth.Visit

/-! A visit of one whom the provider knows, and who has an account. -/

def setup : Setup where
  qrKey := none
  issuer := ⟨"session-secret", 3600⟩
  qrTtl := 180000
  oauthTtl := 600000
  oauth := some (⟨"https://id.example/authorize", "", "", "app", "", "https://app.example", ""⟩,
    fun _ => .ok ⟨"ext-7", "Ada", none, none⟩)
  cookieSecure := false

def users : Users := ⟨[⟨7, "ada", none, none, some "ext-7"⟩]⟩

def handle : Handle := ⟨"0123456789abcdef0123456789abcdef"⟩

def leaving : List Event := [.begin (.oauthBegin (.start .login none handle)) 0, .step 0 0]

def returning (state : String) (link : Handle) : Event :=
  .begin (.oauthCallback (.start state "code" none ⟨[], link⟩)) 0

end OAuth.Visit

end Handoff
