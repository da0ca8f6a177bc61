import Handoff.Proofs.Run.Expiry

namespace Handoff

open View

/-- What was done to the sign-in under the handle since it was last issued. -/
def lately (h : Handle) (log : List Record) : List Qr.Act :=
  ((acts h log).reverse.takeWhile (·.deed ≠ .issued)).reverse

def scans (h : Handle) (log : List Record) : List Nat :=
  ((lately h log).filter (·.deed = .scanned)).map (·.time)

def Record.issuedFor? (h : Handle) (r : Record) : Option (String × String) :=
  match r.call, r.result with
  | .issue ip agent k _, .done (.issue (.ok _)) => if k = h then some (ip, agent) else none
  | _, _ => none

def desktops (h : Handle) (log : List Record) : List (String × String) :=
  log.filterMap (Record.issuedFor? h)

section Log

variable {h : Handle} {log : List Record} {r : Record}

theorem Record.did_of_issuedFor? {d : String × String} (hd : r.issuedFor? h = some d) :
    r.did = some (h, .issued) := by
  unfold issuedFor? at hd
  unfold did
  split at hd
  · next hc hr =>
    rw [Option.ite_none_right_eq_some] at hd
    rw [hc, hr, ← hd.1]
    rfl
  · cases hd

theorem Record.did_of_act? {a : Qr.Act} (ha : r.act? h = some a) : r.did = some (h, a.deed) := by
  unfold act? at ha
  obtain ⟨⟨k, d⟩, hr, hk⟩ := Option.bind_eq_some_iff.1 ha
  dsimp only at hk
  rw [Option.ite_none_right_eq_some] at hk
  obtain ⟨rfl, he⟩ := hk
  rw [hr, ← Option.some.inj he]

theorem desktops_concat (hd : r.did ≠ some (h, .issued)) :
    desktops h (log ++ [r]) = desktops h log := by
  have hn : r.issuedFor? h = none :=
    Option.eq_none_iff_forall_ne_some.2 fun _ hi => hd (Record.did_of_issuedFor? hi)
  simp [desktops, hn]

theorem getLast?_desktops_concat {d : String × String} (hd : r.issuedFor? h = some d) :
    (desktops h (log ++ [r])).getLast? = some d := by
  rw [desktops, List.filterMap_append, List.getLast?_append]
  simp [hd]

theorem lately_concat {a : Qr.Act} (ha : r.act? h = some a) :
    lately h (log ++ [r]) = if a.deed = .issued then [] else lately h log ++ [a] := by
  rw [lately, acts_concat, ha, Option.toList_some, List.reverse_concat, List.takeWhile_cons]
  by_cases hi : a.deed = .issued
  · simp [hi]
  · simp [hi, lately]

theorem scans_concat (hi : r.did ≠ some (h, .issued)) (hs : r.did ≠ some (h, .scanned)) :
    scans h (log ++ [r]) = scans h log := by
  cases ha : r.act? h with
  | none =>
    rw [scans, lately, acts_concat, ha, Option.toList_none, List.append_nil, ← lately, scans]
  | some a =>
    have hd := Record.did_of_act? ha
    have hni : a.deed ≠ .issued := fun he => hi (he ▸ hd)
    have hns : a.deed ≠ .scanned := fun he => hs (he ▸ hd)
    rw [scans, lately_concat ha, if_neg hni]
    simp [scans, hns]

theorem scans_concat_issued (hd : r.did = some (h, .issued)) : scans h (log ++ [r]) = [] := by
  rw [scans, lately_concat (Record.act?_eq_some hd), if_pos rfl]
  rfl

theorem scans_concat_scanned (hd : r.did = some (h, .scanned)) :
    scans h (log ++ [r]) = scans h log ++ [r.before.now] := by
  rw [scans, lately_concat (Record.act?_eq_some hd), if_neg nofun]
  simp [scans]

end Log

namespace Qr

/-- A stored sign-in agrees with itself, and with what was done to it before `now`: it has not come
to its end, it has the time of its scan if there was one, and it is for the desktop that it was
issued for. -/
structure Formed (log : List Record) (now : Nat) (e : Entry Session) : Prop where
  stage : e.payload.status = .pending ∨ e.payload.status = .scanned
  isSome_scannedAt : e.payload.scannedAt.isSome = true ↔ e.payload.status = .scanned
  scans_eq : scans e.handle log = e.payload.scannedAt.toList
  within : ∀ t ∈ e.payload.scannedAt, e.createdAt ≤ t ∧ t ≤ e.expireAt
  desktop : ∃ ip agent, (desktops e.handle log).getLast? = some (ip, agent) ∧
    e.payload.desktopIp = ip ∧ e.payload.desktopAgent = Text.clip maxAgent (Text.trim agent)
  createdAt_le : e.createdAt ≤ now

namespace Formed

variable {log : List Record} {now : Nat} {e : Entry Session} {r : Record}

theorem later (h : Formed log now e) {now' : Nat} (hn : now ≤ now') : Formed log now' e :=
  { h with createdAt_le := Nat.le_trans h.createdAt_le hn }

theorem concat (h : Formed log now e) (hs : r.did ≠ some (e.handle, .scanned))
    (hi : r.did ≠ some (e.handle, .issued)) : Formed (log ++ [r]) now e where
  stage := h.stage
  isSome_scannedAt := h.isSome_scannedAt
  scans_eq := (scans_concat hi hs).trans h.scans_eq
  within := h.within
  desktop := by
    rw [desktops_concat hi]
    exact h.desktop
  createdAt_le := h.createdAt_le

theorem scan (h : Formed log now e) (hp : e.payload.status = .pending)
    (hx : e.isExpired now = false) (hs : r.did = some (e.handle, .scanned))
    (hr : r.before.now = now) :
    Formed (log ++ [r]) now { e with payload := e.payload.advance .scanned now } := by
  have hn : e.payload.scannedAt = none := by
    rw [← Option.not_isSome_iff_eq_none, h.isSome_scannedAt, hp]
    nofun
  have hi : r.did ≠ some (e.handle, .issued) := by
    rw [hs]
    nofun
  refine ⟨.inr rfl, by simp [Session.advance], ?_, ?_, ?_, h.createdAt_le⟩
  · rw [scans_concat_scanned hs, h.scans_eq, hn, hr]
    rfl
  · intro t ht
    cases ht
    exact ⟨h.createdAt_le, Nat.not_lt.1 (of_decide_eq_false hx)⟩
  · rw [desktops_concat hi]
    exact h.desktop

end Formed

end Qr

theorem Storage.createdAt_kept_le {P : Type} (σ : Storage) (e : Entry P) :
    (σ.kept e).createdAt ≤ e.createdAt := by
  cases σ with
  | memory => exact Nat.le_refl _
  | table => exact Nat.min_le_left _ _

theorem Storage.handle_kept {P : Type} (σ : Storage) (e : Entry P) :
    (σ.kept e).handle = e.handle := by
  cases σ <;> rfl

theorem Storage.Sound.handle_of_view {σ : Storage} (hσ : σ.Sound Qr.Session) {h : Handle}
    {e : Entry Qr.Session} (he : σ.view Qr.Session h = some e) : e.handle = h := by
  cases σ with
  | memory ms => exact Memory.handle_of_view he
  | table t => exact (Table.Sound.of_view hσ he).2.2

namespace Qr

variable {log : List Record} {now ttl : Nat} {h : Handle} {r : Record}

theorem Formed.issue {σ : Storage} {e : Entry Session} {ip agent : String}
    (he : e = ⟨h, now, ttl, .pending ip (Text.clip maxAgent (Text.trim agent))⟩)
    (hr : r.issuedFor? h = some (ip, agent)) : Formed (log ++ [r]) now (σ.kept e) := by
  have hh : (σ.kept e).handle = h := (σ.handle_kept e).trans (congrArg Entry.handle he)
  have hp : (σ.kept e).payload = .pending ip (Text.clip maxAgent (Text.trim agent)) :=
    (σ.payload_kept e).trans (congrArg Entry.payload he)
  refine ⟨?_, ?_, ?_, ?_, ⟨ip, agent, ?_, ?_, ?_⟩, ?_⟩
  · exact .inl (hp ▸ rfl)
  · rw [hp]
    simp [Session.pending]
  · rw [hh, scans_concat_issued (Record.did_of_issuedFor? hr), hp]
    rfl
  · rw [hp]
    rintro t ⟨⟩
  · rw [hh]
    exact getLast?_desktops_concat hr
  · rw [hp]
    rfl
  · rw [hp]
    rfl
  · exact Nat.le_trans (σ.createdAt_kept_le e) (Nat.le_of_eq (congrArg Entry.createdAt he))

theorem Formed.move {o o' : Option (Entry Session)} {debt debt' : Option Debt} {d : Deed}
    (hf : ∀ e ∈ o, e.handle = h ∧ Formed log now e) (hd : r.did = some (h, d))
    (hi : d ≠ .issued) (hr : r.before.now = now) (hm : Move ttl now o debt d o' debt')
    {e' : Entry Session} (he : e' ∈ o') : Formed (log ++ [r]) now e' := by
  have hrest (hd' : d ≠ .scanned) (e : Entry Session) (he : e ∈ o) : Formed (log ++ [r]) now e := by
    obtain ⟨rfl, hfe⟩ := hf e he
    refine hfe.concat ?_ ?_
    · rw [hd]
      rintro ⟨⟩
      exact hd' rfl
    · rw [hd]
      rintro ⟨⟩
      exact hi rfl
  cases hm with
  | issue => exact absurd rfl hi
  | take | delete => cases he
  | read | tellScan | mint | unmint | tell => exact hrest nofun e' he
  | scan hx hp =>
    cases he
    obtain ⟨rfl, hfe⟩ := hf _ rfl
    exact hfe.scan hp hx hd hr

end Qr

namespace World

variable {w w' : World} {setup : Setup} {h : Handle}

def Formed (w : World) (h : Handle) : Prop :=
  ∀ e, w.service.view h = some e → Qr.Formed w.log w.service.now e

theorem Formed.of_fades (hf : w.Formed h) (hlog : w'.log = w.log)
    (hnow : w.service.now ≤ w'.service.now)
    (hv : Fades w.service.now (w.service.view h) (w'.service.view h)) : w'.Formed h := by
  intro e' he'
  obtain hv | ⟨hv, -⟩ := hv
  · rw [hlog]
    exact (hf e' (hv.symm.trans he')).later hnow
  · cases hv.symm.trans he'

theorem Formed.perform (hf : w.Formed h) (hs : w.service.Sound) (c : Call) (id elapsed : Nat) :
    (w.perform id elapsed c).Formed h := by
  have hnow : (w.perform id elapsed c).service.now = w.service.now :=
    (c.keeps elapsed w.service).now
  have hhandle {e : Entry Qr.Session} (he : w.service.view h = some e) : e.handle = h :=
    hs.storage.handle_of_view he
  intro e' he'
  rw [hnow]
  obtain ⟨hv, hno, -⟩ | ⟨d, hdid, hm⟩ := (Call.effect hs h elapsed c).elim
  · obtain hv | ⟨hv, -⟩ := hv
    · have he := hv.symm.trans he'
      have hh := hhandle he
      exact (hf e' he).concat (hh ▸ hno _) (hh ▸ hno _)
    · cases hv.symm.trans he'
  · by_cases hi : d = .issued
    · subst hi
      obtain ⟨ip, agent, nonce, i, rfl, hr⟩ := Call.of_did_issued hdid
      obtain ⟨e, he, -, hv⟩ := Qr.issue_ok hs.storage hr
      obtain rfl : w.service.storage.kept e = e' := by
        have hk := (congrFun hv h).symm.trans he'
        rw [Function.update_self] at hk
        exact Option.some.inj hk
      have hr : (w.record id elapsed (.issue ip agent h nonce)).issuedFor? h =
          some (ip, agent) := by
        rw [Record.issuedFor?, record, Call.step, hr]
        exact if_pos rfl
      exact .issue he hr
    · have hr : (w.record id elapsed c).did = some (h, d) := hdid
      exact .move (fun e he => ⟨hhandle he, hf e he⟩) hr hi rfl hm he'

theorem Formed.next (hf : w.Formed h) (hs : w.service.Sound) (e : Event) : (w.next e).Formed h := by
  cases e with
  | begin c elapsed =>
    rw [World.next]
    split
    · exact hf.perform hs c w.fresh elapsed
    · exact hf
  | step id elapsed =>
    rw [World.next]
    cases w.calls id with
    | none => exact hf
    | some c => exact hf.perform hs c id elapsed
  | leave id =>
    rw [World.next]
    cases hc : (w.calls id).bind (·.leave? w.service) with
    | none => exact hf
    | some s =>
      obtain ⟨c, -, hc⟩ := Option.bind_eq_some_iff.1 hc
      rw [Call.leave?_rest hc]
      exact hf
  | pass ms =>
    refine hf.of_fades rfl ?_ (.refl _ _)
    exact Nat.le_min.2 ⟨Nat.le_add_right _ _, hs.now_le⟩
  | sweep t =>
    have hk := Service.sweepTarget_keeps t w.service
    exact hf.of_fades rfl (Nat.le_of_eq hk.1.now.symm) (hk.2 hs h)
  | fail | removeUser => exact hf

/-- A turn in which any handle may be drawn, also one that was drawn before. -/
def nextAny (w : World) (e : Event) : World := next { w with drawn := [] } e

def runAny (w : World) (es : List Event) : World := es.foldl nextAny w

theorem Formed.runAny (hf : w.Formed h) (hw : w.Sound setup) (es : List Event) :
    (w.runAny es).Formed h ∧ (w.runAny es).Sound setup := by
  induction es generalizing w with
  | nil => exact ⟨hf, hw⟩
  | cons e es ih =>
    have hw : World.Sound setup { w with drawn := [] } :=
      ⟨hw.service, hw.setup, hw.unused, hw.issued⟩
    have hf : World.Formed { w with drawn := [] } h := hf
    exact ih (hf.next hw.service e) (hw.next e)

theorem formed_start (setup : Setup) (backend : Backend) (limit : Nat) (users : Users)
    (now : UInt64) (h : Handle) : (start setup backend limit users now).Formed h := by
  intro e he
  cases ((Storage.isEmpty_fresh backend).view h).symm.trans he

end World

/-- All the sign-ins that are stored have the property. In a table the payload of each row can be
read, and the stage in its column is the one in the payload. -/
def Storage.Every (p : Entry Qr.Session → Prop) : Storage → Prop
  | memory ms => ∀ e ∈ ms.qr.entries, p e
  | table t => ∀ r ∈ t.rows, r.kind = .qrSession →
    ∃ e, Table.decode ⟨r.handle⟩ r = .ok e ∧ r.status = e.payload.status.text ∧ p e

theorem Storage.Sound.every {σ : Storage} (hσ : σ.Sound Qr.Session) {p : Entry Qr.Session → Prop}
    (hp : ∀ h e, σ.view Qr.Session h = some e → p e) : σ.Every p := by
  cases σ with
  | memory ms =>
    intro e he
    refine hp e.handle e (find?_of_unique (List.Pairwise.imp ?_ hσ) he (decide_eq_true rfl))
    rintro a b hab ⟨ha, hb⟩
    exact hab ((of_decide_eq_true ha).trans (of_decide_eq_true hb).symm)
  | table t =>
    intro r hr hk
    obtain ⟨e, hc, rfl⟩ := Table.Sound.exists_of_mem hσ hr hk
    have hf := hσ.unique.find?_eq_some (κ := .qrSession) (h := e.handle) hr
      ((Table.isAt_of e e.handle).trans (decide_eq_true rfl))
    have hv : t.view Qr.Session e.handle = some e :=
      Table.view_of_find? hf fun e' he' => Option.some.inj he' ▸ ⟨hc, rfl⟩
    exact ⟨e, Table.decode_of hc, rfl, hp e.handle e hv⟩

theorem Storage.every_memory {p : Entry Qr.Session → Prop} {ms : Memories}
    (h : (Storage.memory ms).Every p) {e : Entry Qr.Session} (he : e ∈ ms.qr.entries) : p e :=
  h e he

namespace World

/-- Whatever is called, in whatever order the steps are taken, whatever fails and whatever handles
are drawn: every sign-in that is stored then is as it should be. -/
theorem run_formed (setup : Setup) (backend : Backend) (limit : Nat) (users : Users) (now : UInt64)
    (es : List Event) :
    let w := (start setup backend limit users now).runAny es
    w.service.storage.Every (Qr.Formed w.log w.service.now) := by
  have hw := sound_start setup backend limit users now
  have hr := fun h => (formed_start setup backend limit users now h).runAny hw es
  exact (hr default).2.service.storage.every fun h => (hr h).1

section Example

open Race
open Desk (users resolve_token)

def takes : List Event :=
  [.begin (.issue "" "" handle nonce) 0, .begin (.scan (.start token)) 0]

def taken : World := (start Race.setup .memory 1 users 0).runAny takes

theorem service_taken :
    taken.service = serving Race.setup users 0 [offered Race.setup 0 handle .scanned] (.empty 1) := by
  have hr (s : Service) (hs : s.setup = Race.setup) : Qr.resolve token s = .ok handle :=
    resolve_token (by rw [hs]; rfl)
  have hk : Race.setup.qrKey = some key := rfl
  obtain ⟨issued, hi⟩ := issue_step users 0 handle nonce hk (.empty 1)
  have hs := @scan_step Race.setup users 0 handle token hr (.empty 1)
  have hw : taken = runAny ⟨serving Race.setup users 0 [] (.empty 1), fun _ => none, 0, [], []⟩
    takes := rfl
  rw [hw]
  simp [takes, runAny, nextAny, next, admits, Call.isStart, Call.handles, perform, record, hi, hs]

def seen : Entry Qr.Session := offered Race.setup 0 handle .scanned

theorem run_formed_taken : taken.service.view handle = some seen ∧
    seen.payload.status = .scanned ∧ scans handle taken.log = [0] := by
  have hs : taken.service.storage = .memory ⟨⟨[seen]⟩, .empty, .empty⟩ := by
    rw [service_taken]
    rfl
  have hm : seen ∈ (⟨⟨[seen]⟩, .empty, .empty⟩ : Memories).qr.entries := List.mem_singleton_self _
  have hf : Qr.Formed taken.log taken.service.now seen := by
    refine Storage.every_memory ?_ hm
    rw [← hs, taken]
    -- The events are hidden, lest the run be unfolded.
    generalize takes = es
    exact run_formed Race.setup .memory 1 users 0 es
  have hv : (serving Race.setup users 0 [seen] (.empty 1)).view handle = some seen :=
    @find?_offered Race.setup 0 handle .scanned
  exact ⟨by rw [service_taken]; exact hv, rfl, hf.scans_eq⟩

end Example

end World

end Handoff
