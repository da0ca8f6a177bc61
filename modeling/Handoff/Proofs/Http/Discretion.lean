import Handoff.Proofs.Http.Request
import Handoff.Proofs.Http.Servers
import Handoff.Proofs.Qr.Independence
import Handoff.Proofs.Run.Working

namespace Handoff

open Http View

def AuthFailure.of (session : Option String) : AuthFailure :=
  if session.bind Text.nonBlank = none then missing else invalid

variable {s s' : Service} {token : String} {session : Option String}

theorem Service.why_of_rejected {why : AuthFailure}
    (ha : s.authenticate session = .error (.rejected why)) : why = .of session := by
  unfold authenticate at ha
  split at ha
  · next hn =>
    cases ha
    exact (if_pos hn).symm
  · next hn =>
    have hi : AuthFailure.of session = .invalid := if_neg (by rw [hn]; exact nofun)
    rw [hi]
    split at ha
    · cases ha
      rfl
    · split at ha
      · cases ha
        rfl
      · split at ha <;> cases ha
        rfl

namespace Qr

/-- The token stands for a sign-in that is there and has not expired. -/
def Stands (token : String) (s : Service) : Prop :=
  ∃ h e, resolve token s = .ok h ∧ s.view.live s.now h = some e

def Awaits (token : String) (s : Service) : Prop :=
  ∃ h e, resolve token s = .ok h ∧ s.view.live s.now h = some e ∧ e.payload.status = .pending

theorem vacant_of_not_stands {h : Handle} (hn : ¬Stands token s) (hr : resolve token s = .ok h) :
    Vacant s.now (s.view h) :=
  live_eq_none.1 (Option.eq_none_iff_forall_ne_some.2 fun e he => hn ⟨h, e, hr, he⟩)

variable (hk : s.setup.qrKey ≠ none)
include hk

theorem resolve_error {e : Error} (hr : resolve token s = .error e) : e = .invalidToken := by
  rw [resolve, openToken] at hr
  split at hr
  · next hn => exact absurd hn hk
  · next key _ =>
    cases hu : Token.unwrap key token with
    | ok c =>
      rw [hu] at hr
      cases hr
    | error e =>
      rw [hu] at hr
      cases hr
      rfl

variable (hs : s.Working)
include hs

theorem Scan.alone_error {e : Error} (he : (Scan.alone token s).1 = .error e) :
    Failure.ofScan e = Failure.ofScan .notFound := by
  unfold Scan.alone at he
  split at he
  · next hr =>
    cases he
    rw [resolve_error hk hr]
    rfl
  · next h _ =>
    change (Scan.ending (s.take (P := Session) h Status.pending Status.scanned).1).1 =
      .error e at he
    cases ht : (s.take (P := Session) h Status.pending Status.scanned).1 with
    | ok before =>
      rw [ht] at he
      cases he
    | error err =>
      rw [ht] at he
      cases he
      obtain rfl | ⟨current, rfl⟩ := hs.take_error ht <;> rfl

omit hk in
theorem Scan.awaits_of_alone {a : Scanned} (ha : (Scan.alone token s).1 = .ok a) :
    Awaits token s := by
  unfold Scan.alone at ha
  split at ha
  · cases ha
  · next h hr =>
    change (Scan.ending (s.take (P := Session) h Status.pending Status.scanned).1).1 = .ok a at ha
    obtain ⟨v, ht, -⟩ := hs.exists_take h .pending .scanned
    cases hb : (s.take (P := Session) h Status.pending Status.scanned).1 with
    | error =>
      rw [hb] at ha
      cases ha
    | ok before =>
      rw [hb] at ht
      obtain ⟨he, hx, hp, -⟩ := ht.of_ok
      exact ⟨h, before, hr, live_eq_some.2 ⟨he, hx⟩, hp⟩

variable (hn : ¬Stands token s)
include hn

theorem Confirm.alone_of_not_stands {uid : Int64} (ha : s.authenticate session = .ok uid)
    (random : List UInt8) : ∃ e s', Confirm.alone token session random s = (some (.error e), s') ∧
      Failure.ofConfirm e = Failure.tokenNotFound := by
  unfold Confirm.alone
  rw [ha]
  cases hr : resolve token s with
  | error e => exact ⟨e, s, rfl, by rw [resolve_error hk hr]; rfl⟩
  | ok h =>
    have ht := hs.take_of_vacant (vacant_of_not_stands hn hr) .scanned .confirmed
    refine ⟨.notFound, (s.take (P := Session) h Status.scanned Status.confirmed).2, ?_, rfl⟩
    dsimp only
    rw [Service.deal, ht]
    rfl

theorem status_of_not_stands :
    ∃ e, (status token s).1 = .error e ∧ Failure.ofWatch e = Failure.tokenNotFound := by
  unfold status
  cases hr : resolve token s with
  | error e => exact ⟨e, rfl, by rw [resolve_error hk hr]; rfl⟩
  | ok h =>
    have hg := hs.get_of_vacant (vacant_of_not_stands hn hr)
    dsimp only
    generalize s.get (P := Session) h = x at hg
    obtain ⟨r, s'⟩ := x
    cases hg
    exact ⟨.notFound, rfl, rfl⟩

end Qr

namespace Server

structure Serves (setup : Setup) (server : Server) : Prop where
  configured : setup.qrKey ≠ none
  reached : ∃ w : World, w.Reached setup ∧ w.service = server.service
  failure (kind : Kind) (op : StoreOp) : server.service.faults.store kind op = none

variable {setup : Setup} {server : Server} {serverTime : String} {r : Request}
  (hs : server.Serves setup)
include hs

theorem Serves.working : server.service.Working := by
  obtain ⟨w, hw, he⟩ := hs.reached
  have hf := hs.failure
  rw [← he] at hf ⊢
  exact hw.working hf

theorem Serves.qrKey : server.service.setup.qrKey ≠ none := by
  obtain ⟨w, hw, he⟩ := hs.reached
  rw [← he, hw.sound.setup]
  exact hs.configured

section Body

variable (ht : readTextBody "token" r = .ok token) (hb : Text.isAllBlank token = false)
include ht hb

theorem Serves.request_scan_refused (hr : r.GoesTo .scan) :
    ∃ x, (server.request serverTime r).1 = some x ∧
      (x.status ≠ 200 ∨ ¬Qr.Awaits token server.service →
        x = shared (Failure.ofScan .notFound).response) := by
  refine ⟨_, request_scan ht hb hr, fun hx => ?_⟩
  cases ha : (Qr.Scan.alone token server.service).1 with
  | ok a =>
    rw [ha] at hx
    obtain hx | hx := hx
    · exact absurd rfl hx
    · exact absurd (Qr.Scan.awaits_of_alone hs.working ha) hx
  | error e =>
    have he := Qr.Scan.alone_error hs.qrKey hs.working ha
    exact congrArg (fun f => shared (Failure.response f)) he

omit hs in
theorem request_confirm_rejected (hr : r.GoesTo .confirm) {why : AuthFailure}
    (ha : server.service.authenticate (Session.fromHeaders r.headers) = .error (.rejected why)) :
    server.request serverTime r = (some (shared (Failure.ofConfirm (.unauthorized
      (.of (Session.fromHeaders r.headers)))).response), server.draw.2.settle) := by
  have hc : Qr.Confirm.alone token (Session.fromHeaders r.headers) server.draw.1.session
      server.service = (some (.error (.unauthorized why)), server.service) := by
    rw [Qr.Confirm.alone, ha]
    rfl
  rw [request_confirm_error ht hb hr hc, Service.why_of_rejected ha]
  rfl

theorem Serves.request_confirm_nothing (hr : r.GoesTo .confirm) {uid : Int64}
    (ha : server.service.authenticate (Session.fromHeaders r.headers) = .ok uid)
    (hn : ¬Qr.Stands token server.service) :
    (server.request serverTime r).1 = some (shared Failure.tokenNotFound.response) := by
  obtain ⟨e, s, hc, he⟩ := Qr.Confirm.alone_of_not_stands hs.qrKey hs.working hn ha
    server.draw.1.session
  rw [request_confirm_error ht hb hr hc, he]

end Body

theorem Serves.request_status_nothing {token : Option String} (hr : r.GoesTo .status)
    (ht : queryText? "token" r.query = some token)
    (hn : ¬Qr.Stands (token.getD "") server.service) :
    (server.request serverTime r).1 = some (shared Failure.tokenNotFound.response) := by
  obtain ⟨e, hc, he⟩ := Qr.status_of_not_stands hs.qrKey hs.working hn
  rw [request_status hr ht, hc]
  exact congrArg (fun f => some (shared (Failure.response f))) he

omit hs in
/-- Answers do not tell what a token stands for, nor what the matter is within the service. Where
the response is given it is the same for every server and every token. -/
theorem request_discreet (serverTime : String) (r : Request) (server : Server) :
    (∀ setup token, server.Serves setup → readTextBody "token" r = .ok token →
      (r.GoesTo .cancel ∨ r.GoesTo .mobileCancel →
        (server.request serverTime r).1 = some (shared cancelled)) ∧
      (Text.isAllBlank token = false →
        (r.GoesTo .scan → ∃ x, (server.request serverTime r).1 = some x ∧
          (x.status ≠ 200 ∨ ¬Qr.Awaits token server.service →
            x = shared (Failure.ofScan .notFound).response)) ∧
        (r.GoesTo .confirm →
          (∀ why, server.service.authenticate (Session.fromHeaders r.headers) =
              .error (.rejected why) →
            server.request serverTime r = (some (shared (Failure.ofConfirm (.unauthorized
              (.of (Session.fromHeaders r.headers)))).response), server.draw.2.settle)) ∧
          ∀ uid, server.service.authenticate (Session.fromHeaders r.headers) = .ok uid →
            ¬Qr.Stands token server.service →
            (server.request serverTime r).1 = some (shared Failure.tokenNotFound.response)))) ∧
    (∀ setup token, server.Serves setup → r.GoesTo .status →
      queryText? "token" r.query = some token → ¬Qr.Stands (token.getD "") server.service →
      (server.request serverTime r).1 = some (shared Failure.tokenNotFound.response)) ∧
    ∀ server', server.Akin server' →
      (server.request serverTime r).1 = (server'.request serverTime r).1 ∧
      ∀ name target, (server.openSocket name serverTime target).1 =
        (server'.openSocket name serverTime target).1 := by
  refine ⟨fun setup token hs ht => ⟨request_cancel ht, fun hb => ⟨?_, fun hr => ⟨?_, ?_⟩⟩⟩, ?_, ?_⟩
  · exact hs.request_scan_refused ht hb
  · exact fun _ => request_confirm_rejected ht hb hr
  · exact fun _ => hs.request_confirm_nothing ht hb hr
  · exact fun _ _ hs hr ht => hs.request_status_nothing hr ht
  · exact fun _ h => ⟨(h.request serverTime r).1, fun name => h.openSocket name serverTime⟩

end Server

namespace Lapse

open Desk (users standsFor_token phone)
open Race (handle nonce setup)

def asking (path : String) (headers : Headers) : Request :=
  ⟨"POST", path, ("content-type", "application/json") :: headers,
    (Json.obj [("token", .str Race.token)]).compact⟩

theorem goesTo_asking {path : String} {e : Endpoint} (headers : Headers)
    (hp : Endpoint.find? (⟨"POST", path, [], ""⟩ : Request).path = some (false, e)) :
    (asking path headers).GoesTo e := ⟨false, hp, rfl⟩

theorem isAllBlank_token : Text.isAllBlank Race.token = false := by
  have ht : Text.trim Race.token = Race.token := by
    rw [Text.trim, Race.token, Qr.Token.wrap_eq_spell, Qr.Token.trimChars_spell,
      String.ofList_toList]
  rw [Text.isAllBlank, ht, Bool.eq_false_iff, Ne, String.isEmpty_iff]
  intro he
  have hl := congrArg (fun s : String => s.toList) he
  rw [Race.token, Qr.Token.wrap_eq_spell, Qr.Token.toList_spell] at hl
  cases hl

def lapsing : List Event := [.begin (.issue "" "" handle nonce) 0, .pass 180001]

def lapsed : World := (World.start setup .memory 1 users 0).run lapsing

def late (verify : Option String) : Server :=
  .ofService (.ofSeed []) (lapsed.next (.fail { Faults.none with verify })).service

theorem reached_next (e : Event) : (lapsed.next e).Reached setup :=
  ⟨.memory, 1, users, 0, lapsing ++ [e], (World.run_concat ..).symm⟩

theorem serves_late (verify : Option String) : (late verify).Serves setup where
  configured := nofun
  reached := ⟨lapsed.next (.fail { Faults.none with verify }), reached_next _, rfl⟩
  failure _ _ := rfl

theorem not_stands_token (verify : Option String) :
    ¬Qr.Stands Race.token (late verify).service := by
  rintro ⟨h, e, hr, hl⟩
  rw [standsFor_token _ rfl] at hr
  cases hr
  have hn : (lapsed.service.view.live lapsed.service.now handle).isSome = false := by
    decide +kernel
  have he := congrArg Option.isSome hl
  cases hn.symm.trans he

theorem not_awaits_token (verify : Option String) :
    ¬Qr.Awaits Race.token (late verify).service := fun ⟨h, e, hr, hl, _⟩ =>
  not_stands_token verify ⟨h, e, hr, hl⟩

theorem not_stands_other (verify : Option String) : ¬Qr.Stands "x" (late verify).service := by
  rintro ⟨h, e, hr, -⟩
  have he : Qr.resolve "x" (late verify).service = .error .invalidToken := by
    rfl
  cases he.symm.trans hr

def bearer : Headers := [("authorization", "Bearer " ++ phone)]

theorem fromHeaders_bearer (path : String) :
    Session.fromHeaders (asking path bearer).headers = some phone := by
  change Session.fromHeaders (("content-type", "application/json") :: bearer) = _
  decide +kernel

theorem authenticate_phone : (late none).service.authenticate (some phone) = .ok 7 := by
  have ha : (late none).service.Attends 7 := ⟨rfl, rfl, _, rfl⟩
  exact (Service.authenticate_issue ha (Nat.zero_le _) []).trans (if_pos (by decide +kernel))

theorem akin_late (text text' : String) : (late (some text)).Akin (late (some text')) where
  service := ⟨⟨rfl, rfl, rfl, rfl, .none, rfl⟩, rfl, rfl, rfl, rfl,
    ⟨fun _ _ => .none, .none, .some trivial, fun _ => .none⟩⟩
  elapsed := rfl
  entropy := rfl
  tasks := .nil
  responses := rfl
  sockets := rfl

/-- A sign-in that has expired, one that is unknown, and a session that cannot be verified. -/
theorem request_discreet_late :
    let cancelling := asking "/api/qr-login/cancel" []
    let scanning := asking "/api/qr-login/scan" []
    let confirming := asking "/api/qr-login/mobile-confirm"
    let looking : Request := ⟨"GET", "/api/qr-login/status?token=x", [], ""⟩
    (∀ verify, (late verify).Serves setup) ∧
    ((late none).request "" cancelling).1 = some (shared cancelled) ∧
    ((late none).request "" scanning).1 = some (shared (Failure.ofScan .notFound).response) ∧
    (late none).request "" (confirming []) =
      (some (shared (Failure.ofConfirm (.unauthorized .missing)).response),
        (late none).draw.2.settle) ∧
    ((late none).request "" (confirming bearer)).1 =
      some (shared Failure.tokenNotFound.response) ∧
    ((late none).request "" looking).1 = some (shared Failure.tokenNotFound.response) ∧
    ((late (some "key")).request "" (confirming bearer)).1 =
      ((late (some "clock")).request "" (confirming bearer)).1 := by
  intro cancelling scanning confirming looking
  have hs := serves_late none
  have hb := isAllBlank_token
  refine ⟨serves_late, ?_, ?_, ?_, ?_, ?_, ?_⟩
  · exact ((Server.request_discreet "" _ (late none)).1 setup _ hs
      (readTextBody_compact rfl rfl)).1 (.inl (goesTo_asking [] (by decide +kernel)))
  · obtain ⟨x, hx, he⟩ := (((Server.request_discreet "" scanning (late none)).1
      setup _ hs (readTextBody_compact rfl rfl)).2 hb).1 (goesTo_asking [] (by decide +kernel))
    rw [hx, he (.inr (not_awaits_token none))]
  · exact ((((Server.request_discreet "" _ (late none)).1 setup _ hs
      (readTextBody_compact rfl rfl)).2 hb).2 (goesTo_asking [] (by decide +kernel))).1 .missing
      (by decide +kernel)
  · have ha := authenticate_phone
    rw [← fromHeaders_bearer "/api/qr-login/mobile-confirm"] at ha
    exact ((((Server.request_discreet "" _ (late none)).1 setup _ hs
      (readTextBody_compact rfl rfl)).2 hb).2 (goesTo_asking bearer (by decide +kernel))).2 7 ha
      (not_stands_token none)
  · exact (Server.request_discreet "" _ (late none)).2.1 setup (some "x") hs
      ⟨true, by decide +kernel, rfl⟩ (by decide +kernel) (not_stands_other none)
  · exact ((Server.request_discreet "" _ (late (some "key"))).2.2 _ (akin_late "key" "clock")).1

end Lapse

end Handoff
