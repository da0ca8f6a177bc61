import Handoff.Proofs.Qr.Signing

namespace Handoff

namespace Record

/-- The sign-in that the call which begins here is about, and what it is to do there. -/
def request? (r : Record) : Option (Handle × Qr.Deed) :=
  match r.call with
  | .status token => (Qr.resolve token r.before).toOption.map (·, .read)
  | .scan (.start token) => (Qr.resolve token r.before).toOption.map (·, .scanned)
  | .confirm (.start token _ _) => (Qr.resolve token r.before).toOption.map (·, .taken)
  | _ => none

/-- What was done, as the answer has it. A confirmation that could not make a session was past its
take. -/
def claimed? (r : Record) : Option Qr.Deed :=
  match r.result with
  | .done (.status (.ok _)) => some .read
  | .done (.scan (.ok _)) => some .scanned
  | .done (.confirm (.ok _)) => some .taken
  | .done (.confirm (.error (.sessionMint _))) => some .taken
  | _ => none

variable {r : Record} {h : Handle} {d : Qr.Deed} {token : String}

theorem request?_status (hc : r.call = .status token) (hr : Qr.resolve token r.before = .ok h) :
    r.request? = some (h, .read) := by
  rw [request?, hc]
  simp [hr, Except.toOption]

theorem request?_scan (hc : r.call = .scan (.start token))
    (hr : Qr.resolve token r.before = .ok h) : r.request? = some (h, .scanned) := by
  rw [request?, hc]
  simp [hr, Except.toOption]

theorem request?_confirm {session : Option String} {random : List UInt8}
    (hc : r.call = .confirm (.start token session random))
    (hr : Qr.resolve token r.before = .ok h) : r.request? = some (h, .taken) := by
  rw [request?, hc]
  simp [hr, Except.toOption]

theorem isStart_of_request? (hr : r.request? = some (h, d)) : r.call.isStart = true := by
  unfold request? at hr
  split at hr
  case h_4 => cases hr
  all_goals next hc => exact hc ▸ rfl

theorem needsEntry_of_claimed? (hr : r.claimed? = some d) : d.needsEntry = true := by
  unfold claimed? at hr
  split at hr
  case h_5 => cases hr
  all_goals cases hr; rfl

end Record

/-- The call `i` began with a token of `h`, and it answered that it had done `d` there. -/
def Succeeds (log : List Record) (i : Nat) (h : Handle) (d : Qr.Deed) : Prop :=
  ∃ a ∈ steps i log, a.request? = some (h, d) ∧ ∃ b ∈ steps i log, b.claimed? = some d

/-- What clients are told was done, each thing in its time and in its turn. -/
structure World.Truthful (ttl : Nat) (w : World) : Prop where
  lives (h : Handle) : Qr.Lifecycle ttl (acts h w.log)
  tokens {b : Record} {d : Qr.Deed} : b ∈ w.log → b.claimed? = some d →
    ∃ h, Succeeds w.log b.id h d
  deeds {i : Nat} {h : Handle} {d : Qr.Deed} : Succeeds w.log i h d →
    ∃ l a r, acts h w.log = l ++ a :: r ∧ a.id = i ∧ a.deed = d ∧
      (∀ b ∈ l, b.deed.removes = false) ∧
      (∃ b ∈ l, b.deed = .issued ∧ a.time ≤ Text.addTime b.time ttl) ∧
      (d = .taken → ∃ b ∈ l, b.deed = .scanned)
  once {i j : Nat} {h : Handle} {d : Qr.Deed} : d = .scanned ∨ d = .taken →
    Succeeds w.log i h d → Succeeds w.log j h d → i = j

namespace Qr

theorem eq_of_countP_le_one {α : Type} {p : α → Bool} {l : List α} (hl : l.countP p ≤ 1) {a b : α}
    (ha : a ∈ l) (hb : b ∈ l) (hpa : p a = true) (hpb : p b = true) : a = b := by
  have ha := List.mem_filter.2 ⟨ha, hpa⟩
  have hb := List.mem_filter.2 ⟨hb, hpb⟩
  rw [List.countP_eq_length_filter] at hl
  generalize l.filter p = l' at ha hb hl
  cases l' with
  | nil => cases ha
  | cons x l' =>
    obtain rfl := List.length_eq_zero_iff.1 (Nat.le_zero.1 (Nat.le_of_succ_le_succ hl))
    rw [List.mem_singleton.1 ha, List.mem_singleton.1 hb]

def Confirm.isLate : Except Error Unit → Bool
  | .ok () => true
  | .error (.sessionMint _) => true
  | .error _ => false

variable {s s' : Service}

theorem Scan.of_ok {c : Scan} {v : Scanned} (h : (c.step s).1 = .done (.ok v)) :
    ∃ k e, c = .publishing k e := by
  have hc := c.stepped s
  generalize c.step s = x at h hc
  cases hc with
  | published k e => exact ⟨k, e, rfl⟩
  | unresolved | untaken | taken => cases h

theorem Scan.of_more {c d : Scan} (h : c.step s = (.more d, s')) :
    ∃ token k e, c = .start token ∧ d = .publishing k e ∧ resolve token s = .ok k := by
  have hc := c.stepped s
  rw [h] at hc
  cases hc with
  | taken hr => exact ⟨_, _, _, rfl, rfl, hr⟩

theorem Confirm.of_late {c : Confirm} {a : Except Error Unit} (h : (c.step s).1 = .done a)
    (ha : isLate a = true) : ∃ k m, c = .publishing k m a := by
  have hc := c.stepped s
  generalize c.step s = x at h hc
  cases hc with
  | @rejected _ _ _ e =>
    cases h
    cases e <;> cases ha
  | @unresolved _ token _ e hr =>
    cases h
    cases e with
    | sessionMint text => exact absurd rfl (resolve_ne_sessionMint hr text)
    | _ => cases ha
  | @untaken _ _ _ _ e =>
    cases h
    cases e <;> cases ha
  | published k m =>
    cases h
    exact ⟨k, m, rfl⟩
  | signedIn | taken | stalled | unminted | minted => cases h

theorem Confirm.of_told {c : Confirm} {k : Handle} {m : Message} {a : Except Error Unit}
    (h : c.step s = (.more (.publishing k m a), s')) : ∃ uid random, c = .minting uid k random := by
  have hc := c.stepped s
  rw [h] at hc
  cases hc with
  | unminted | minted => exact ⟨_, _, rfl⟩

end Qr

namespace World

variable {w w' : World} {setup : Setup} {b : Record} {h : Handle} {d : Qr.Deed}

structure Fulfils (w : World) (i : Nat) (h : Handle) (d : Qr.Deed) : Prop where
  asked : ∃ a ∈ steps i w.log, a.request? = some (h, d)
  did : ∃ x ∈ steps i w.log, x.did = some (h, d)

section Answers

variable (hw : w.Reached setup) (hb : b ∈ w.log)
include hw hb

theorem Reached.fulfils_status {v : Qr.Snapshot} (hr : b.result = .done (.status (.ok v))) :
    ∃ h, w.Fulfils b.id h .read := by
  obtain ⟨u, u', -, -, -, hs⟩ := hw.of_mem hb
  obtain ⟨elapsed, ha⟩ := hs.answered hr
  generalize hc : b.call = c at ha
  generalize hx : Except.ok v = x at ha
  cases ha with
  | status token =>
    have hres : ∃ h, Qr.resolve token b.before = .ok h := by
      unfold Qr.status at hx
      split at hx
      · cases hx
      · exact ⟨_, ‹_›⟩
    obtain ⟨h, hres⟩ := hres
    have hmem := mem_steps.2 ⟨hb, rfl⟩
    refine ⟨h, ⟨b, hmem, Record.request?_status hc hres⟩, b, hmem, ?_⟩
    rw [Record.did, hc, hr]
    dsimp only [Call.did]
    rw [hres]

theorem Reached.fulfils_scan {v : Qr.Scanned} (hr : b.result = .done (.scan (.ok v))) :
    ∃ h, w.Fulfils b.id h .scanned := by
  obtain ⟨u, u', hu, -, hl, hs⟩ := hw.of_mem hb
  obtain ⟨elapsed, ha⟩ := hs.answered hr
  generalize hc : b.call = c at ha
  cases ha with
  | @scan c _ hd =>
    obtain ⟨h, e, rfl⟩ := Qr.Scan.of_ok hd
    obtain ⟨_, _, a, -, -, hsa, ha, hra⟩ := hu.cause hs (hc ▸ rfl)
    obtain ⟨d, hca, hstep⟩ := hsa.scan_more (hra.trans (congrArg _ hc))
    obtain ⟨token, _, _, rfl, ⟨⟩, hres⟩ := Qr.Scan.of_more hstep
    have hmem := mem_steps_of_subset hl (mem_steps.2 ⟨hb, rfl⟩) ha
    refine ⟨h, ⟨a, hmem, Record.request?_scan hca hres⟩, a, hmem, ?_⟩
    rw [Record.did, hca, hra, hc]
    rfl

theorem Reached.fulfils_confirm {v : Except Qr.Error Unit} (hr : b.result = .done (.confirm v))
    (hv : Qr.Confirm.isLate v = true) : ∃ h, w.Fulfils b.id h .taken := by
  obtain ⟨u, u', hu, -, hl, hs⟩ := hw.of_mem hb
  obtain ⟨elapsed, ha⟩ := hs.answered hr
  generalize hc : b.call = c at ha
  cases ha with
  | @confirm c _ hd =>
    obtain ⟨h, m, rfl⟩ := Qr.Confirm.of_late hd hv
    -- It told of what it had made, made it of what it had taken, and took what it was asked for.
    obtain ⟨u₁, _, a₁, hu₁, hl₁, hs₁, ha₁, hr₁⟩ := hu.cause hs (hc ▸ rfl)
    obtain ⟨c₁, hc₁, hstep₁⟩ := hs₁.confirm_more (hr₁.trans (congrArg _ hc))
    obtain ⟨uid, random, rfl⟩ := Qr.Confirm.of_told hstep₁
    obtain ⟨u₂, _, a₂, hu₂, hl₂, hs₂, ha₂, hr₂⟩ := hu₁.cause hs₁ (hc₁ ▸ rfl)
    obtain ⟨c₂, hc₂, hstep₂⟩ := hs₂.confirm_more (hr₂.trans (congrArg _ hc₁))
    obtain ⟨token, _, rfl, hres, -⟩ := Qr.Confirm.of_minting hstep₂
    obtain ⟨u₃, _, a₃, hu₃, -, hs₃, ha₃, hr₃⟩ := hu₂.cause hs₂ (hc₂ ▸ rfl)
    obtain ⟨c₃, hc₃, hstep₃⟩ := hs₃.confirm_more (hr₃.trans (congrArg _ hc₂))
    obtain ⟨session, rfl, -⟩ := Qr.Confirm.of_taking hstep₃
    have hset : a₃.before.setup = a₂.before.setup := by
      rw [hs₃.before, hs₂.before, hu₃.sound.setup, hu₂.sound.setup]
    have hm₁ := mem_steps_of_subset hl (mem_steps.2 ⟨hb, rfl⟩) ha₁
    have hm₂ := mem_steps_of_subset (List.Subset.trans hl₁ hl) hm₁ ha₂
    have hm₃ := mem_steps_of_subset (List.Subset.trans hl₂ (List.Subset.trans hl₁ hl)) hm₂ ha₃
    have hres := (Qr.resolve_congr hset token).trans hres
    refine ⟨h, ⟨a₃, hm₃, Record.request?_confirm hc₃ hres⟩, a₂, hm₂, ?_⟩
    rw [Record.did, hc₂, hr₂, hc₁]
    rfl

theorem Reached.fulfils (hd : b.claimed? = some d) : ∃ h, w.Fulfils b.id h d := by
  unfold Record.claimed? at hd
  split at hd <;> cases hd
  · next hr => exact hw.fulfils_status hb hr
  · next hr => exact hw.fulfils_scan hb hr
  · next hr => exact hw.fulfils_confirm hb hr rfl
  · next hr => exact hw.fulfils_confirm hb hr rfl

end Answers

theorem Reached.did_of_succeeds (hw : w.Reached setup) {i : Nat} (hs : Succeeds w.log i h d) :
    ∃ x ∈ steps i w.log, x.did = some (h, d) := by
  obtain ⟨a, ha, hr, b, hb, hd⟩ := hs
  obtain ⟨hb', rfl⟩ := mem_steps.1 hb
  obtain ⟨k, ⟨a', ha', hr'⟩, hx⟩ := hw.fulfils hb' hd
  obtain ⟨ha, hid⟩ := mem_steps.1 ha
  obtain ⟨ha', hid'⟩ := mem_steps.1 ha'
  cases hw.traced.eq_of_isStart ha ha' (Record.isStart_of_request? hr)
    (Record.isStart_of_request? hr') (hid.trans hid'.symm)
  cases hr.symm.trans hr'
  exact hx

theorem Reached.act_of_succeeds (hw : w.Reached setup) {i : Nat} (hs : Succeeds w.log i h d) :
    ∃ a ∈ acts h w.log, a.id = i ∧ a.deed = d := by
  obtain ⟨x, hx, hd⟩ := hw.did_of_succeeds hs
  obtain ⟨hx', rfl⟩ := mem_steps.1 hx
  exact ⟨_, List.mem_filterMap.2 ⟨x, hx', Record.act?_eq_some hd⟩, rfl, rfl⟩

theorem needsEntry_of_succeeds {log : List Record} {i : Nat} (hs : Succeeds log i h d) :
    d.needsEntry = true := by
  obtain ⟨-, -, -, b, -, hd⟩ := hs
  exact Record.needsEntry_of_claimed? hd

theorem Reached.truthful (hw : w.Reached setup)
    (hl : ∀ h, Qr.Lifecycle setup.qrTtl (acts h w.log)) : w.Truthful setup.qrTtl where
  lives := hl
  tokens {b d} hb hd := by
    obtain ⟨h, ⟨a, ha, hr⟩, -⟩ := hw.fulfils hb hd
    exact ⟨h, a, ha, hr, b, mem_steps.2 ⟨hb, rfl⟩, hd⟩
  deeds {i h d} hs := by
    have hn := needsEntry_of_succeeds hs
    obtain ⟨a, ha, hid, rfl⟩ := hw.act_of_succeeds hs
    obtain ⟨l, r, has⟩ := List.append_of_mem ha
    refine ⟨l, a, r, has, hid, rfl, ?_, (hl h).in_time l a r has hn,
      (hl h).taken_after_scan l a r has⟩
    intro b hb
    have hf := (hl h).final
    rw [has] at hf
    refine Bool.eq_false_iff.2 fun hr => ?_
    cases hn.symm.trans ((List.pairwise_append.1 hf).2.2 b hb a List.mem_cons_self hr)
  once {i j h d} hd hs hs' := by
    obtain ⟨a, ha, rfl, had⟩ := hw.act_of_succeeds hs
    obtain ⟨b, hb, rfl, hbd⟩ := hw.act_of_succeeds hs'
    have hc : (acts h w.log).countP (·.deed = d) ≤ 1 := by
      obtain rfl | rfl := hd
      · exact (hl h).scanned_once
      · exact (hl h).taken_once
    rw [Qr.eq_of_countP_le_one hc ha hb (by simpa using had) (by simpa using hbd)]

/-- Whatever is called, in whatever order the steps are taken: each sign-in is scanned at most once
and taken at most once, after its scan; what was removed is not met again, nothing is met after its
time, and whoever is told of a success has done what was asked. -/
theorem run_lifecycle (setup : Setup) (backend : Backend) (limit : Nat) (users : Users)
    (now : UInt64) (es : List Event) :
    ((start setup backend limit users now).run es).Truthful setup.qrTtl :=
  (Reached.run setup backend limit users now es).truthful fun h =>
    (run_life setup backend limit users now es h).lifecycle

section Example

open Race
open Desk (users phone resolve_token)

theorem run_lifecycle_signing : Succeeds signed.log 2 handle .scanned ∧
    Succeeds signed.log 3 handle .taken ∧
    ∃ l a r, acts handle signed.log = l ++ a :: r ∧ a.id = 3 ∧ a.deed = .taken ∧
      (∀ b ∈ l, b.deed.removes = false) ∧ ∃ b ∈ l, b.deed = .scanned := by
  obtain ⟨l, told, hl, -⟩ := signed_eq
  have hscan : Succeeds signed.log 2 handle .scanned := by
    rw [hl, scanning]
    refine ⟨_, mem_steps.2 ⟨List.mem_append_right _ (.tail _ (.head _)), rfl⟩,
      Record.request?_scan rfl (resolve_token rfl), _,
      mem_steps.2 ⟨List.mem_append_right _ (.tail _ (.tail _ (.head _))), rfl⟩, rfl⟩
  have htake : Succeeds signed.log 3 handle .taken := by
    rw [hl, scanning, taking]
    refine ⟨_, mem_steps.2 ⟨List.mem_append_right _ (.tail _ (.tail _ (.tail _ (.head _)))), rfl⟩,
      Record.request?_confirm rfl (resolve_token rfl), ending Race.setup 0 users 0 handle 7 [],
      mem_steps.2 ⟨?_, rfl⟩, rfl⟩
    simp
  have hw : signed.Truthful Race.setup.qrTtl := run_lifecycle Race.setup .memory 1 users 0 _
  obtain ⟨l, a, r, hlog, hid, hd, hn, -, hb⟩ := hw.deeds htake
  exact ⟨hscan, htake, l, a, r, hlog, hid, hd, hn, hb rfl⟩

end Example

end World

end Handoff
