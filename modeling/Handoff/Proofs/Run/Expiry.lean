import Handoff.Proofs.Qr.Independence
import Handoff.Proofs.Run.Working

namespace Handoff

open View Ticket OAuth

/-- What users are told the end of. -/
inductive Lease
  | signIn (h : Handle)
  | link (h : Handle)
  deriving DecidableEq

namespace Backend

def shown : Backend → Nat → Nat
  | memory, t => t
  | sqlite, t => min t Text.maxSigned

theorem shown_eq_iff {b : Backend} {t : Nat} :
    b.shown t = t ↔ b = .memory ∨ t ≤ Text.maxSigned := by
  cases b <;> simp [shown]

end Backend

namespace Storage

def expiry? (σ : Storage) : Lease → Option Nat
  | .signIn h => (σ.view Qr.Session h).map Entry.expireAt
  | .link h => (σ.view PendingLink h).map Entry.expireAt

structure Shows (b : Backend) (σ : Storage) : Prop where
  expireAt_kept {P : Type} (e : Entry P) : (σ.kept e).expireAt = b.shown e.expireAt

theorem shows_fresh (b : Backend) : (fresh b).Shows b := by
  cases b with
  | memory => exact ⟨fun _ => rfl⟩
  | sqlite => exact ⟨fun e => e.clip_expireAt⟩

theorem Shows.stays {b : Backend} {σ σ' : Storage} (h : σ.Shows b) (hs : σ.Stays σ') :
    σ'.Shows b :=
  ⟨fun e => (congrArg Entry.expireAt (hs.kept e)).trans (h.expireAt_kept e)⟩

end Storage

namespace Record

def granted? (r : Record) : Option (Lease × Nat) :=
  match r.call, r.result with
  | .issue _ _ h _, .done (.issue (.ok i)) => some (.signIn h, i.expireAt)
  | _, .done (.oauthCallback (.ok (.pendingLink token t))) => some (.link ⟨token⟩, t)
  | _, _ => none

def asked? (r : Record) : Option Lease :=
  match r.call with
  | .status token => (Qr.resolve token r.before).toOption.map .signIn
  | .scan (.start token) => (Qr.resolve token r.before).toOption.map .signIn
  | .peek (.start token) => (Handle.parse token linkBytes).map .link
  | _ => none

def reported? (r : Record) : Option Nat :=
  match r.result with
  | .done (.status (.ok v)) => some v.expireAt
  | .done (.scan (.ok v)) => some v.expireAt
  | .done (.peek (.ok v)) => some v.expireAt
  | _ => none

variable {r : Record} {h : Handle} {t : Nat}

theorem did_of_granted? (hg : r.granted? = some (.signIn h, t)) : r.did = some (h, .issued) := by
  unfold granted? at hg
  unfold did
  split at hg
  · next hc hr =>
    cases hg
    rw [hc, hr]
    rfl
  · cases hg
  · cases hg

theorem isStart_of_asked? {l : Lease} (ha : r.asked? = some l) : r.call.isStart = true := by
  unfold asked? at ha
  split at ha
  case h_4 => cases ha
  all_goals next hc => exact hc ▸ rfl

end Record

def Grants (log : List Record) (l : Lease) (t : Nat) : Prop :=
  ∃ r ∈ log, r.granted? = some (l, t)

/-- Somebody who asked for it was told `t`. -/
def Reports (log : List Record) (l : Lease) (t : Nat) : Prop :=
  ∃ a ∈ log, a.asked? = some l ∧ ∃ b ∈ steps a.id log, b.reported? = some t

theorem grants_concat {log : List Record} {r : Record} {l : Lease} {t : Nat} :
    Grants (log ++ [r]) l t ↔ Grants log l t ∨ r.granted? = some (l, t) := by
  simp [Grants, or_and_right, exists_or]

theorem not_grants_of_acts {log : List Record} {h : Handle} (ha : acts h log = []) (t : Nat) :
    ¬Grants log (.signIn h) t := by
  rintro ⟨r, hr, hg⟩
  have hn := List.filterMap_eq_nil_iff.1 ha r hr
  rw [Record.act?_eq_some (Record.did_of_granted? hg)] at hn
  cases hn

theorem Call.of_did_issued {c : Call} {elapsed : Nat} {s : Service} {h : Handle}
    (hd : c.did (c.step elapsed s).1 s = some (h, .issued)) :
    ∃ ip agent nonce i, c = .issue ip agent h nonce ∧
      Qr.issue ip agent h nonce s = (.ok i, (c.step elapsed s).2) := by
  have hi := (did_issued hd).1
  cases c with
  | issue ip agent k nonce =>
    rw [step] at hd
    generalize hr : Qr.issue ip agent k nonce s = x at hd
    obtain ⟨r, s'⟩ := x
    cases r with
    | error => cases hd
    | ok i =>
      cases hd
      exact ⟨ip, agent, nonce, i, rfl, by rw [step, hr]⟩
  | _ => cases hi

namespace Qr

variable {s s' : Service} {h : Handle}

theorem issue_ok {ip agent : String} {nonce : List UInt8} {i : Issued}
    (hs : s.storage.Sound Session) (hr : issue ip agent h nonce s = (.ok i, s')) :
    ∃ e : Entry Session,
      e = ⟨h, s.now, s.setup.qrTtl, .pending ip (Text.clip maxAgent (Text.trim agent))⟩ ∧
      i.expireAt = e.expireAt ∧ s'.view = Function.update s.view h (some (s.storage.kept e)) := by
  unfold issue at hr
  split at hr
  · cases hr
  · dsimp only at hr
    split at hr
    · cases hr
    · next e _ hp =>
      cases hr
      obtain ⟨he, -, hv⟩ := Service.put_ok hs (Session.fits_pending _ _) hp
      exact ⟨e, he, rfl, he ▸ hv⟩

theorem status_ok {token : String} {v : Snapshot} (hs : s.Sound)
    (hr : (status token s).1 = .ok v) : ∃ h e, resolve token s = .ok h ∧ s.view h = some e ∧
      e.expireAt = v.expireAt := by
  unfold status at hr
  split at hr
  · cases hr
  · next h hh =>
    split at hr
    · cases hr
    · next e _ hg =>
      cases hr
      exact ⟨h, e, hh, (Service.get_ok hs.storage hg).1, rfl⟩

theorem Scan.of_done {c : Scan} {v : Scanned} (hd : (c.step s).1 = .done (.ok v)) :
    ∃ h e, c = .publishing h e ∧ e.expireAt = v.expireAt := by
  have hc := c.stepped s
  generalize c.step s = x at hd hc
  cases hc with
  | published h e =>
    have hv : _ = v := Except.ok.inj (Step.done.inj hd)
    exact ⟨h, e, rfl, congrArg Scanned.expireAt hv⟩
  | _ => cases hd

theorem Move.expireAt_eq {ttl now : Nat} {o o' : Option (Entry Session)} {debt debt' : Option Debt}
    {d : Deed} (hm : Move ttl now o debt d o' debt') (hd : d ≠ .issued) {e' : Entry Session}
    (he : o' = some e') : ∃ e, o = some e ∧ e.expireAt = e'.expireAt := by
  cases hm with
  | issue => exact absurd rfl hd
  | read | tellScan | mint | unmint | tell => exact ⟨e', he, rfl⟩
  | scan =>
    cases he
    exact ⟨_, rfl, rfl⟩
  | take | delete => cases he

end Qr

theorem OAuth.Peek.of_done {c : Peek} {s : Service} {v : LinkView}
    (hd : (c.step s).1 = .done (.ok v)) : ∃ e, c = .finding e ∧ e.expireAt = v.expireAt := by
  cases c with
  | start token =>
    rw [Peek.step] at hd
    split at hd
    · cases hd
    · split at hd <;> cases hd
  | finding e =>
    rw [Peek.step] at hd
    split at hd
    · cases hd
    · cases hd
    · cases hd
      exact ⟨e, rfl, rfl⟩

namespace World

variable {w w' : World} {setup : Setup} {b : Backend} {h : Handle}

/-- What was granted has one end as far as the store shows, and what is stored was granted. -/
structure Dated (b : Backend) (w : World) (l : Lease) : Prop where
  unique {x y : Nat} : Grants w.log l x → Grants w.log l y → b.shown x = b.shown y
  held {t : Nat} : w.service.storage.expiry? l = some t → ∃ x, Grants w.log l x ∧ t = b.shown x

structure Shows (b : Backend) (w : World) : Prop where
  storage : w.service.storage.Shows b
  log : ∀ r ∈ w.log, r.before.storage.Shows b

theorem Shows.next (hw : w.Sound setup) (h : w.Shows b) (e : Event) : (w.next e).Shows b where
  storage := h.storage.stays (stays_next w e)
  log r hr := by
    obtain hl | ⟨r', hs⟩ := hw.log_next e
    · exact h.log r (hl ▸ hr)
    · rw [hs.log] at hr
      obtain hr | hr := List.mem_append.1 hr
      · exact h.log r hr
      · rw [List.mem_singleton.1 hr, hs.before]
        exact h.storage

section SignIn

theorem Dated.of_kept (hd : w.Dated b (.signIn h))
    (hg : ∀ x, Grants w'.log (.signIn h) x ↔ Grants w.log (.signIn h) x)
    (hv : ∀ e', w'.service.view h = some e' →
      ∃ e, w.service.view h = some e ∧ e.expireAt = e'.expireAt) :
    w'.Dated b (.signIn h) where
  unique hx hy := hd.unique ((hg _).1 hx) ((hg _).1 hy)
  held {t} ht := by
    obtain ⟨e', he', rfl⟩ := Option.map_eq_some_iff.1 ht
    obtain ⟨e, he, hx⟩ := hv e' he'
    obtain ⟨x, hx⟩ := hd.held (Option.map_eq_some_iff.2 ⟨e, he, hx⟩)
    exact ⟨x, (hg x).2 hx.1, hx.2⟩

theorem Dated.of_fades (hd : w.Dated b (.signIn h))
    (hg : ∀ x, Grants w'.log (.signIn h) x ↔ Grants w.log (.signIn h) x)
    (hf : Fades w.service.now (w.service.view h) (w'.service.view h)) :
    w'.Dated b (.signIn h) := by
  refine hd.of_kept hg fun e' he' => ?_
  obtain hv | ⟨hv, -⟩ := hf
  · exact ⟨e', hv.symm.trans he', rfl⟩
  · cases hv.symm.trans he'

/-- The step of a call keeps the ends, if an issue meets a sign-in that was not granted before. -/
theorem Dated.perform (hd : w.Dated b (.signIn h)) (hs : w.service.Sound)
    (hb : w.service.storage.Shows b) {c : Call} (id elapsed : Nat)
    (hn : c.isIssue = true → h ∈ c.handles → ∀ x, ¬Grants w.log (.signIn h) x) :
    (w.perform id elapsed c).Dated b (.signIn h) := by
  have hlog (x : Nat) : Grants (w.perform id elapsed c).log (.signIn h) x ↔
      Grants w.log (.signIn h) x ∨ (w.record id elapsed c).granted? = some (.signIn h, x) :=
    grants_concat
  -- What issues nothing grants nothing.
  have hrest (hno : c.did (c.step elapsed w.service).1 w.service ≠ some (h, .issued)) (x : Nat) :
      Grants (w.perform id elapsed c).log (.signIn h) x ↔ Grants w.log (.signIn h) x :=
    (hlog x).trans (or_iff_left fun hg => hno (Record.did_of_granted? hg))
  obtain ⟨hf, hno, -⟩ | ⟨d, hdid, hm⟩ := (Call.effect hs h elapsed c).elim
  · exact hd.of_fades (hrest (hno _)) hf
  · by_cases hi : d = .issued
    · subst hi
      obtain ⟨hc, hh⟩ := Call.did_issued hdid
      obtain ⟨ip, agent, nonce, i, rfl, hr⟩ := Call.of_did_issued hdid
      obtain ⟨e, -, hie, hv⟩ := Qr.issue_ok hs.storage hr
      have hg : (w.record id elapsed (.issue ip agent h nonce)).granted? =
          some (.signIn h, i.expireAt) := by
        rw [Record.granted?, record, Call.step, hr]
      have honly {x : Nat} (hx : Grants (w.perform id elapsed (.issue ip agent h nonce)).log
          (.signIn h) x) : x = i.expireAt := by
        obtain hx | hx := (hlog x).1 hx
        · exact absurd hx (hn hc hh x)
        · exact (Prod.ext_iff.1 (Option.some.inj (hx.symm.trans hg))).2
      refine ⟨fun hx hy => by rw [honly hx, honly hy], fun {t} ht => ?_⟩
      refine ⟨i.expireAt, (hlog _).2 (.inr hg), ?_⟩
      obtain ⟨e', he', rfl⟩ := Option.map_eq_some_iff.1 ht
      have hk := (congrFun hv h).symm.trans he'
      rw [Function.update_self] at hk
      rw [← Option.some.inj hk, hb.expireAt_kept, hie]
    · refine hd.of_kept (hrest fun h => hi ?_) fun e' he' => hm.expireAt_eq hi he'
      cases hdid.symm.trans h
      rfl

theorem Dated.next (hw : w.Sound setup) (hl : (w.life h).Sound setup.qrTtl)
    (hb : w.service.storage.Shows b) (hd : w.Dated b (.signIn h)) (e : Event) :
    (w.next e).Dated b (.signIn h) := by
  cases e with
  | begin c elapsed =>
    by_cases ha : w.admits c = true
    · rw [next_begin ha]
      have hd' : (w.enter c).Dated b (.signIn h) := ⟨hd.unique, hd.held⟩
      refine hd'.perform hw.service hb _ _ fun _ hh => ?_
      -- its handle was not drawn before
      have hn := List.all_eq_true.1 (Bool.and_eq_true_iff.1 ha).2 h hh
      exact not_grants_of_acts (hl.undrawn (decide_eq_false (of_decide_eq_true hn))).2.2
    · rwa [World.next, if_neg ha]
  | step id elapsed =>
    rw [World.next]
    cases hc : w.calls id with
    | none => exact hd
    | some c =>
      refine hd.perform hw.service hb id elapsed fun hi => ?_
      cases (hw.issued id c hc).symm.trans hi
  | leave id =>
    rw [World.next]
    cases hc : (w.calls id).bind (·.leave? w.service) with
    | none => exact hd
    | some s =>
      obtain ⟨c, -, hc⟩ := Option.bind_eq_some_iff.1 hc
      rw [Call.leave?_rest hc]
      exact ⟨hd.unique, hd.held⟩
  | sweep t =>
    exact hd.of_fades (fun _ => .rfl) ((Service.sweepTarget_keeps t w.service).2 hw.service h)
  | pass | fail | removeUser => exact ⟨hd.unique, hd.held⟩

end SignIn

section Link

theorem Stepped.link_of_granted? {r : Record} {x : Nat} (hw : w.Reached setup)
    (hs : Stepped w r w') (hg : r.granted? = some (.link h, x)) : ∃ e : Entry PendingLink,
    e.expireAt = x ∧ r.deed? PendingLink h = some (.stored (r.before.storage.kept e)) := by
  have hset : r.before.setup = setup := hs.before ▸ hw.sound.setup
  have hsound : r.before.storage.Sound PendingLink := hs.before ▸ hw.ticketed.sound
  unfold Record.granted? at hg
  split at hg
  · cases hg
  · next token t hr =>
    cases hg
    obtain ⟨elapsed, ha⟩ := hs.answered hr
    generalize hc : r.call = c at ha
    cases ha with
    | @oauthCallback c _ hd =>
      have hx := c.stepped r.before
      generalize c.step r.before = y at hd hx
      cases hx with
      | stored hp =>
        cases hd
        obtain ⟨rfl, -⟩ := Service.put_ok hsound trivial hp
        exact ⟨_, rfl, Record.Offers.deed? ⟨hc, hr⟩⟩
      | _ => cases hd
  · cases hg

theorem Reached.dated_link (hw : w.Reached setup) (hb : w.Shows b) (h : Handle) :
    w.Dated b (.link h) where
  unique {x y} hx hy := by
    obtain ⟨r, hr, hx⟩ := hx
    obtain ⟨r', hr', hy⟩ := hy
    obtain ⟨v, v', hv, -, -, hs⟩ := hw.of_mem hr
    obtain ⟨u, u', hu, -, -, hs'⟩ := hw.of_mem hr'
    obtain ⟨e, rfl, hd⟩ := hs.link_of_granted? hv hx
    obtain ⟨e', rfl, hd'⟩ := hs'.link_of_granted? hu hy
    have hk := (hw.ticketed.lives h).stored_unique (List.mem_filterMap.2 ⟨r, hr, hd⟩)
      (List.mem_filterMap.2 ⟨r', hr', hd'⟩)
    rw [← (hb.log r hr).expireAt_kept, ← (hb.log r' hr').expireAt_kept, hk]
  held {t} ht := by
    obtain ⟨e, he, rfl⟩ := Option.map_eq_some_iff.1 ht
    obtain ⟨r, hr, hd⟩ := hw.ticketed.of_held he
    obtain ⟨v, v', hv, -, -, hs⟩ := hw.of_mem hr
    obtain ⟨uid, i, ho, rfl⟩ := hs.offers hv hd
    refine ⟨_, ⟨r, hr, ?_⟩, (hb.log r hr).expireAt_kept _⟩
    rw [Record.granted?, ho.call, ho.result]
    rfl

end Link

section Reported

/-- The end that a call is about to tell: it looks now, or it has looked before. -/
inductive Announces (s : Service) : Call → Nat → Prop
  | status {token : String} {h : Handle} {e : Entry Qr.Session} : Qr.resolve token s = .ok h →
    s.view h = some e → Announces s (.status token) e.expireAt
  | scan (h : Handle) (e : Entry Qr.Session) : Announces s (.scan (.publishing h e)) e.expireAt
  | peek (e : Entry PendingLink) : Announces s (.peek (.finding e)) e.expireAt

variable {r : Record} {t : Nat}

theorem Stepped.announces (hw : w.Reached setup) (hs : Stepped w r w')
    (ht : r.reported? = some t) : Announces r.before r.call t := by
  have hsound : r.before.Sound := hs.before ▸ hw.sound.service
  unfold Record.reported? at ht
  split at ht
  · next v hr =>
    cases ht
    obtain ⟨elapsed, ha⟩ := hs.answered hr
    generalize r.call = c at ha ⊢
    generalize hx : Except.ok v = x at ha
    cases ha with
    | status token =>
      obtain ⟨h, e, hh, he, hv⟩ := Qr.status_ok hsound hx.symm
      exact hv ▸ .status hh he
  · next v hr =>
    cases ht
    obtain ⟨elapsed, ha⟩ := hs.answered hr
    generalize r.call = c at ha ⊢
    cases ha with
    | @scan c _ hd =>
      obtain ⟨h, e, rfl, he⟩ := Qr.Scan.of_done hd
      exact he ▸ .scan h e
  · next v hr =>
    cases ht
    obtain ⟨elapsed, ha⟩ := hs.answered hr
    generalize r.call = c at ha ⊢
    cases ha with
    | @peek c _ hd =>
      obtain ⟨e, rfl, he⟩ := Peek.of_done hd
      exact he ▸ .peek e
  · cases ht

theorem Stepped.looked (hw : w.Reached setup) (hs : Stepped w r w') {c : Call} {s : Service}
    (hr : r.result = .more c) (hc : Announces s c t) :
    ∃ l, r.asked? = some l ∧ r.before.storage.expiry? l = some t := by
  have hsound : r.before.Sound := hs.before ▸ hw.sound.service
  have hlinks : r.before.storage.Sound PendingLink := hs.before ▸ hw.ticketed.sound
  obtain ⟨elapsed, hl⟩ := hs.led hr
  unfold Record.asked?
  generalize r.call = d at hl ⊢
  cases hc with
  | status => cases hl
  | scan h e =>
    cases hl with
    | @scan d _ hd =>
      have hx := d.stepped r.before
      rw [hd] at hx
      cases hx with
      | taken hh ht =>
        have he := (Service.take_ok hsound.storage hsound.now_le ht).1
        refine ⟨.signIn h, by simp [hh, Except.toOption], ?_⟩
        exact Option.map_eq_some_iff.2 ⟨e, he, rfl⟩
  | peek e =>
    cases hl with
    | @peek d _ hd =>
      have hx := d.stepped r.before
      rw [hd] at hx
      generalize r.after = s' at hx
      cases hx with
      | @seen _ h _ _ hh hg =>
        refine ⟨.link h, by simp [hh], ?_⟩
        exact Option.map_eq_some_iff.2 ⟨e, (Service.get_ok hlinks hg).1, rfl⟩

theorem Reached.seen (hw : w.Reached setup) (hr : r ∈ w.log) (ht : r.reported? = some t) :
    ∃ a ∈ steps r.id w.log, ∃ l, a.asked? = some l ∧ a.before.storage.expiry? l = some t := by
  obtain ⟨v, v', hv, -, hl, hs⟩ := hw.of_mem hr
  have hc := hs.announces hv ht
  have hsays := hc
  generalize hrc : r.call = c at hc
  cases hc with
  | @status token h e hh he =>
    refine ⟨r, mem_steps.2 ⟨hr, rfl⟩, .signIn h, ?_, Option.map_eq_some_iff.2 ⟨e, he, rfl⟩⟩
    rw [Record.asked?, hrc]
    simp [hh, Except.toOption]
  | scan | peek =>
    obtain ⟨u, u', a, hu, -, hsa, ha, hra⟩ := hv.cause hs (hrc ▸ rfl)
    obtain ⟨l, hl', hx⟩ := hsa.looked hu hra hsays
    exact ⟨a, mem_steps_of_subset hl (mem_steps.2 ⟨hr, rfl⟩) ha, l, hl', hx⟩

end Reported

section Run

variable (setup : Setup) (backend : Backend) (limit : Nat) (users : Users) (now : UInt64)

theorem shows_run (es : List Event) :
    ((start setup backend limit users now).run es).Shows backend := by
  have hw := sound_start setup backend limit users now
  refine (run_induction (P := fun w => w.Sound setup ∧ w.Shows backend) ⟨hw, ?_⟩
    (fun w e h => ⟨h.1.next e, h.2.next h.1 e⟩) es).2
  exact ⟨Storage.shows_fresh backend, fun _ hr => by cases hr⟩

theorem dated_signIn (es : List Event) (h : Handle) :
    ((start setup backend limit users now).run es).Dated backend (.signIn h) := by
  induction es using List.reverseRecOn with
  | nil =>
    refine ⟨?_, fun {t} ht => ?_⟩
    · rintro x y ⟨r, hr, -⟩
      cases hr
    · obtain ⟨e, he, -⟩ := Option.map_eq_some_iff.1 ht
      cases ((Storage.isEmpty_fresh backend).view h).symm.trans he
  | append_singleton es e ih =>
    rw [run_concat]
    exact ih.next ((sound_start ..).run es) (run_life setup backend limit users now es h)
      (shows_run setup backend limit users now es).storage e

theorem dated_run (es : List Event) (l : Lease) :
    ((start setup backend limit users now).run es).Dated backend l := by
  cases l with
  | signIn h => exact dated_signIn setup backend limit users now es h
  | link h =>
    exact (Reached.run setup backend limit users now es).dated_link
      (shows_run setup backend limit users now es) h

variable {setup backend limit users now}

theorem shown_of_reports {es : List Event} {l : Lease} {x y : Nat}
    (hx : Grants ((start setup backend limit users now).run es).log l x)
    (hy : Reports ((start setup backend limit users now).run es).log l y) :
    y = backend.shown x := by
  have hw := Reached.run setup backend limit users now es
  obtain ⟨a, ha, hl, b, hb, hy⟩ := hy
  obtain ⟨hb, hba⟩ := mem_steps.1 hb
  obtain ⟨a', ha', l', hl', hy⟩ := hw.seen hb hy
  obtain ⟨ha', hab⟩ := mem_steps.1 ha'
  -- The call looked with its first step, in which it asked.
  cases hw.traced.eq_of_isStart ha ha' (Record.isStart_of_asked? hl) (Record.isStart_of_asked? hl')
    (hba.symm.trans hab.symm)
  cases hl.symm.trans hl'
  obtain ⟨l₁, l₂, hlog⟩ := List.append_of_mem ha
  obtain ⟨es₁, e, es₂, -, hlog₁, hs⟩ := run_split (sound_start ..) rfl hlog
  rw [hs.before] at hy
  obtain ⟨x', ⟨r, hr, hg⟩, rfl⟩ := (dated_run setup backend limit users now es₁ l).held hy
  have hr' : r ∈ ((start setup backend limit users now).run es).log := by
    rw [hlog, ← hlog₁]
    exact List.mem_append_left _ hr
  exact (dated_run setup backend limit users now es l).unique ⟨r, hr', hg⟩ hx

end Run

/-- Whatever is called, in whatever order the steps are taken and however long things are to stay:
the end that is told later of a sign-in or of a link is the one that was told first, in memory
always, and in a table as long as it fits a signed word; else it is the latest that fits. -/
theorem run_dated (setup : Setup) (backend : Backend) (limit : Nat) (users : Users) (now : UInt64)
    (es : List Event) {l : Lease} {x y : Nat}
    (hx : Grants ((start setup backend limit users now).run es).log l x)
    (hy : Reports ((start setup backend limit users now).run es).log l y) :
    y = backend.shown x ∧ (y = x ↔ backend = .memory ∨ x ≤ Text.maxSigned) := by
  have h := shown_of_reports hx hy
  exact ⟨h, h ▸ Backend.shown_eq_iff⟩

section Example

open Race (handle nonce token)
open Desk (users resolve_token)

def lasting (ttl : Nat) : Setup := { Race.setup with qrTtl := ttl }

def asking : List Event := [.begin (.issue "" "" handle nonce) 0, .begin (.status token) 0]

theorem told_lasting (b : Backend) (ttl : Nat) :
    let log := ((start (lasting ttl) b 1 users 0).run asking).log
    Grants log (.signIn handle) (Text.addTime 0 ttl) ∧
      Reports log (.signIn handle) (b.shown (Text.addTime 0 ttl)) := by
  intro log
  let w := start (lasting ttl) b 1 users 0
  let w' := w.run (asking.take 1)
  have hw : w.Reached (lasting ttl) := .run _ b 1 users 0 []
  have hw' : w'.Reached (lasting ttl) := .run _ b 1 users 0 (asking.take 1)
  have hlog : log = [w.record 0 0 (.issue "" "" handle nonce), w'.record 1 0 (.status token)] := rfl
  obtain ⟨e, i, s, hi, hv, hx, hix⟩ := (hw.working fun _ _ => rfl).exists_issue (h := handle) rfl
    ((Storage.isEmpty_fresh b).view handle) "" "" nonce
  have hs : w'.service = s := congrArg Prod.snd hi
  have hk : Service.Keeps w.service s := by
    have hk := (Qr.issue_within w.service "" "" handle nonce).toKeeps
    rwa [hi] at hk
  have hsw : s.Working := hs ▸ hw'.working fun k op => by rw [hs, hk.faults]; rfl
  have hlive : (w.service.storage.kept e).isExpired s.now = false := by
    rw [hk.now]
    exact decide_eq_false (Nat.not_lt_zero _)
  have hst := hsw.status_of_live (resolve_token (hk.setup ▸ rfl)) hv hlive
  have hkept : (w.service.storage.kept e).expireAt = b.shown (Text.addTime 0 ttl) :=
    ((Storage.shows_fresh b).expireAt_kept e).trans (congrArg b.shown hx)
  rw [hlog]
  refine ⟨⟨_, List.mem_cons_self, ?_⟩, _, List.mem_cons_of_mem _ (List.mem_singleton_self _), ?_,
    _, mem_steps.2 ⟨List.mem_cons_of_mem _ (List.mem_singleton_self _), rfl⟩, ?_⟩
  · rw [Record.granted?, record, Call.step, hi]
    dsimp only
    rw [hix, hx]
    rfl
  · rw [Record.asked?, record, hs]
    dsimp only
    rw [resolve_token (hk.setup ▸ rfl)]
    rfl
  · rw [Record.reported?, record, Call.step, hs]
    dsimp only
    rw [hst, ← hkept]

theorem run_dated_lasting :
    let w := (start (lasting (2 ^ 63)) .memory 1 users 0).run asking
    ∃ x y, Grants w.log (.signIn handle) x ∧ Reports w.log (.signIn handle) y ∧
      y = x ∧ x = 2 ^ 63 := by
  intro w
  obtain ⟨hg, hr⟩ := told_lasting .memory (2 ^ 63)
  exact ⟨_, _, hg, hr, (run_dated _ .memory 1 users 0 asking hg hr).2.2 (.inl rfl), by decide⟩

theorem now_asking (b : Backend) (ttl : Nat) :
    ((start (lasting ttl) b 1 users 0).run asking).service.now = 0 :=
  (Call.keeps 0 (.status token) _).now.trans
    (Call.keeps 0 (.issue "" "" handle nonce) (start (lasting ttl) b 1 users 0).service).now

/-- An end that does not fit a signed word is told in two ways, with all clocks far below it. -/
theorem not_forall_dated : ¬∀ (setup : Setup) (backend : Backend) (limit : Nat) (users : Users)
    (now : UInt64) (es : List Event) (l : Lease) (x y : Nat),
    let w := (start setup backend limit users now).run es
    0 < setup.qrTtl → setup.qrTtl ≤ Text.maxWord → 0 < setup.oauthTtl →
    setup.oauthTtl ≤ Text.maxWord → w.service.now < 2 ^ 63 →
    Grants w.log l x → Reports w.log l y → y = x := by
  intro hall
  obtain ⟨hg, hr⟩ := told_lasting .sqlite (2 ^ 63)
  have hn := now_asking .sqlite (2 ^ 63)
  have h := hall (lasting (2 ^ 63)) .sqlite 1 users 0 asking _ _ _ (by decide) (by decide)
    (by decide) (by decide) (by rw [hn]; decide) hg hr
  exact absurd h (by decide)

end Example

end World

end Handoff
