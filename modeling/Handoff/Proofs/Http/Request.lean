import Handoff.Proofs.Json.RoundTrip
import Handoff.Proofs.Run.Alone

namespace Handoff

namespace Http

def Request.GoesTo (e : Endpoint) (r : Request) : Prop :=
  ∃ reads, Endpoint.find? r.path = some (reads, e) ∧ r.method = if reads then "GET" else "POST"

variable {serverTime : String} {chance : Chance} {r : Request} {s : Service} {e : Endpoint}

theorem accept_of_goesTo (hr : r.GoesTo e) :
    accept serverTime chance r s = (Step.toTask false (e.start serverTime chance r s).1,
      (e.start serverTime chance r s).2) := by
  obtain ⟨reads, hp, hm⟩ := hr
  have ho : r.method ≠ "OPTIONS" := by
    rw [hm]
    cases reads <;> decide
  have hh : decide (r.method = "HEAD") = false := by
    rw [hm]
    cases reads <;> decide
  rw [accept, if_neg ho, hp]
  dsimp only
  rw [if_pos (.inl hm), hh]

theorem readTextBody_compact {name text : String}
    (hc : r.headers.text? "content-type" = some "application/json")
    (hb : r.body = (Json.obj [(name, .str text)]).compact) :
    readTextBody name r = .ok text := by
  have hj : (some "application/json").any isJsonType = true := by decide
  have hf (seen : Option String) (d : Json.Draft) :
      (Json.defaulted name Json.readText "").offer name d seen =
        some (if seen.isSome then .error .unfit else (Json.readText d).map some) := if_pos rfl
  have hr : (Json.defaulted name Json.readText "").read (Json.obj [(name, .str text)]).draft =
      .ok text := by
    change (List.foldlM _ none [(some name, Json.Draft.str (some text))] >>= fun _ => _) = _
    rw [List.foldlM_cons, Json.Record.member]
    dsimp only
    rw [hf]
    rfl
  rw [readTextBody, readBody, hc, hj, hb, Json.ofText_compact, hr]
  rfl

theorem withToken_eq {token : String} (ht : readTextBody "token" r = .ok token)
    (hb : Text.isAllBlank token = false) (start : String → Job) :
    withToken r start = .more (start token) := by
  rw [withToken, ht]
  dsimp only
  rw [hb]
  rfl

variable {C A : Type} {step : C → Service → Step C A × Service} {job : C → Job}
  {response : A → Response} {elapsed : Nat}

variable (job elapsed) in
theorem finishes_task
    (hj : ∀ c s, (job c).step elapsed s = Step.respond job response (step c s)) {n : Nat} {c : C}
    {s s' : Service} {a : A} (hf : Finishes step n c s a s') (isHead : Bool) :
    Finishes (Task.step elapsed) n ⟨job c, isHead⟩ s (finish isHead (response a)) s' := by
  induction hf with
  | done hs => exact .done (by rw [Task.step, hj, hs]; rfl)
  | more hs _ ih => exact .more (by rw [Task.step, hj, hs]; rfl) ih

end Http

open Http

namespace Server

variable {server : Server} {serverTime : String} {r : Request} {s : Service}

theorem request_of_done {x : Response}
    (ha : accept serverTime server.draw.1 r server.service = (.done x, s)) :
    server.request serverTime r =
      (some x, ({ server.draw.2 with service := s } : Server).settle) := by
  have hs : server.draw.2.service = server.service := rfl
  rw [request]
  dsimp only
  rw [hs, ha]

theorem request_of_finishes {t : Task} {n : Nat} {x : Response} {s' : Service}
    (ha : accept serverTime server.draw.1 r server.service = (.more t, s))
    (hf : Finishes (Task.step server.elapsed) n t s x s') (hn : n ≤ 16) :
    server.request serverTime r =
      (some x, ({ server.draw.2 with service := s' } : Server).settle) := by
  have hs : server.draw.2.service = server.service := rfl
  rw [request]
  dsimp only
  rw [hs, ha]
  exact await_of_finishes { server.draw.2 with service := s } hf hn

section Qr

/-! The requests of a sign-in by QR code. -/

theorem request_status {token : Option String} (hr : r.GoesTo .status)
    (ht : queryText? "token" r.query = some token) :
    (server.request serverTime r).1 = some (shared (reply "状态获取成功" snapshotData
      Failure.ofWatch (Qr.status (token.getD "") server.service).1)) := by
  rw [request_of_done (s := (Qr.status (token.getD "") server.service).2)]
  rw [accept_of_goesTo hr]
  unfold Endpoint.start
  rw [ht]
  rfl

variable {token : String} (ht : readTextBody "token" r = .ok token)
include ht

theorem request_cancel (hr : r.GoesTo .cancel ∨ r.GoesTo .mobileCancel) :
    (server.request serverTime r).1 = some (shared cancelled) := by
  have ha : accept serverTime server.draw.1 r server.service =
      (.more ⟨.cancel (.start token), false⟩, server.service) := by
    obtain hr | hr := hr
    · rw [accept_of_goesTo hr]
      unfold Endpoint.start
      rw [ht]
      rfl
    · rw [accept_of_goesTo hr]
      unfold Endpoint.start
      rw [ht]
      rfl
  have hf := finishes_task .cancel server.elapsed (fun _ _ => rfl)
    (Qr.Cancel.finishes token server.service) false
  rw [request_of_finishes ha hf (by decide)]
  rfl

variable (hb : Text.isAllBlank token = false)
include hb

theorem request_scan (hr : r.GoesTo .scan) :
    (server.request serverTime r).1 = some (shared (reply "扫码成功" scannedData Failure.ofScan
      (Qr.Scan.alone token server.service).1)) := by
  have ha : accept serverTime server.draw.1 r server.service =
      (.more ⟨.scan (.start token), false⟩, server.service) := by
    rw [accept_of_goesTo hr]
    change (Step.toTask false (withToken r _), server.service) = _
    rw [withToken_eq ht hb]
    rfl
  have hf := finishes_task .scan server.elapsed (fun _ _ => rfl)
    (Qr.Scan.finishes token server.service) false
  rw [request_of_finishes ha hf (by decide)]
  rfl

theorem request_confirm_error (hr : r.GoesTo .confirm) {e : Qr.Error}
    (hc : Qr.Confirm.alone token (Session.fromHeaders r.headers) server.draw.1.session
      server.service = (some (.error e), s)) :
    server.request serverTime r = (some (shared (Failure.ofConfirm e).response),
      ({ server.draw.2 with service := s } : Server).settle) := by
  have ha : accept serverTime server.draw.1 r server.service =
      (.more ⟨.confirm (.start token (Session.fromHeaders r.headers) server.draw.1.session), false⟩,
        server.service) := by
    rw [accept_of_goesTo hr]
    change (Step.toTask false (withToken r _), server.service) = _
    rw [withToken_eq ht hb]
    rfl
  have hf := finishes_task .confirm server.elapsed (fun _ _ => rfl)
    (Qr.Confirm.finishes hc) false
  exact request_of_finishes ha hf (by decide)

end Qr

end Server

end Handoff
