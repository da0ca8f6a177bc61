import Handoff.Proofs.Http.Texts

namespace Handoff

variable {s s' : Service}

namespace Qr

theorem Error.akin_ofStore {e e' : StoreError} (he : e.Akin e') :
    (Error.ofStore e).Akin (Error.ofStore e') := by
  cases he with
  | same => exact .same _
  | backend => exact .internal _ _

theorem Error.akin_ofAuth {e e' : AuthError} (he : e.Akin e') :
    (Error.ofAuth e).Akin (Error.ofAuth e') := by
  cases he with
  | rejected => exact .same _
  | backend => exact .internal _ _

inductive Confirm.Akin : Confirm → Confirm → Prop
  | same (c : Confirm) : Akin c c
  | publishing (h : Handle) (m : Message) {a a' : Except Error Unit} : Agree Error.Akin a a' →
    Akin (.publishing h m a) (.publishing h m a')

variable (h : s.Akin s')
include h

theorem resolve_akin (token : String) : resolve token s = resolve token s' := by
  rw [resolve, resolve, openToken, openToken, h.setup.qrKey]

theorem issue_akin (ip agent : String) (k : Handle) (nonce : List UInt8) :
    Outcomes Error.Akin (issue ip agent k nonce s) (issue ip agent k nonce s') := by
  unfold issue
  rw [h.setup.qrKey, h.setup.qrTtl]
  cases s'.setup.qrKey with
  | none => exact .error (.same _) h
  | some key =>
    have hp := h.put k (Session.pending ip (Text.clip maxAgent (Text.trim agent))) s'.setup.qrTtl
    dsimp only
    generalize s.put (P := Session) k _ s'.setup.qrTtl = x at hp
    generalize s'.put (P := Session) k _ s'.setup.qrTtl = x' at hp
    cases hp with
    | ok e hs => exact .ok _ hs
    | error he hs => exact .error (Error.akin_ofStore he) hs

theorem status_akin (token : String) :
    Outcomes Error.Akin (status token s) (status token s') := by
  unfold status
  rw [resolve_akin h]
  cases resolve token s' with
  | error e => exact .error (.same e) h
  | ok k =>
    have hg := h.get (P := Session) k
    dsimp only
    generalize s.get (P := Session) k = x at hg
    generalize s'.get (P := Session) k = x' at hg
    cases hg with
    | ok e hs => exact .ok _ hs
    | error he hs => exact .error (Error.akin_ofStore he) hs

theorem Scan.step_akin (c : Scan) :
    Step.Akin Eq (Agree Error.Akin) (c.step s) (c.step s') := by
  cases c with
  | start token =>
    rw [step, step, resolve_akin h]
    cases resolve token s' with
    | error e => exact .done (.error (.same e)) h
    | ok k =>
      have ht := h.take (P := Session) k Status.pending Status.scanned
      dsimp only
      generalize s.take (P := Session) k Status.pending Status.scanned = x at ht
      generalize s'.take (P := Session) k Status.pending Status.scanned = x' at ht
      cases ht with
      | ok e hs => exact .more rfl hs
      | error he hs => exact .done (.error (Error.akin_ofStore he)) hs
  | publishing k before => exact .done (.ok _) (h.publish k _)

theorem Cancel.step_akin (c : Cancel) : Step.Akin Eq Eq (c.step s) (c.step s') := by
  cases c with
  | start token =>
    rw [step, step, resolve_akin h]
    cases resolve token s' with
    | error e => exact .done rfl h
    | ok k =>
      have hd := h.delete (P := Session) k
      dsimp only
      generalize s.delete Session k = x at hd
      generalize s'.delete Session k = x' at hd
      cases hd with
      | ok b hs =>
        cases b with
        | true => exact .more rfl hs
        | false => exact .done rfl hs
      | error he hs => exact .done rfl hs
  | publishing k => exact .done rfl (h.publish k _)

theorem Confirm.step_akin {c c' : Confirm} (hc : c.Akin c') :
    Step.Akin Confirm.Akin (Agree Error.Akin) (c.step s) (c'.step s') := by
  cases hc with
  | publishing k m ha => exact .done ha (h.publish k m)
  | same =>
    cases c with
    | start token session random =>
      have ha := h.authenticate session
      rw [step, step]
      generalize s.authenticate session = a at ha
      generalize s'.authenticate session = a' at ha
      cases ha with
      | ok uid => exact .more (.same _) h
      | error he => exact .done (.error (Error.akin_ofAuth he)) h
    | taking uid token random =>
      rw [step, step, resolve_akin h]
      cases resolve token s' with
      | error e => exact .done (.error (.same e)) h
      | ok k =>
        have ht := h.take (P := Session) k Status.scanned Status.confirmed
        dsimp only
        generalize s.take (P := Session) k Status.scanned Status.confirmed = x at ht
        generalize s'.take (P := Session) k Status.scanned Status.confirmed = x' at ht
        cases ht with
        | ok e hs => exact .more (.same _) hs
        | error he hs => exact .done (.error (Error.akin_ofStore he)) hs
    | minting uid k random =>
      have hm := h.mint uid random
      rw [step, step]
      generalize s.mint uid random = m at hm
      generalize s'.mint uid random = m' at hm
      cases hm with
      | none => exact .blocked h
      | some hm =>
        cases hm with
        | ok session => exact .more (.same _) h
        | error => exact .more (.publishing k _ (.error (.sessionMint _ _))) h
    | publishing k m a =>
      refine .done ?_ (h.publish k m)
      cases a with
      | ok u => exact .ok u
      | error e => exact .error (.same e)

theorem Watch.step_akin (c : Watch) :
    Step.Akin Eq (Agree Error.Akin) (c.step s) (c.step s') := by
  cases c with
  | start token =>
    rw [step, step, resolve_akin h]
    cases resolve token s' with
    | error e => exact .done (.error (.same e)) h
    | ok k =>
      dsimp only
      rw [h.hub]
      cases s'.hub.reserve with
      | error e => exact .done (.error (.same .busy)) h
      | ok hub => exact .more rfl (h.setHub hub)
  | attaching k =>
    rw [step, step, h.hub]
    exact .more rfl (h.setHub _)
  | reading k id =>
    have hg := h.get (P := Session) k
    rw [step, step]
    generalize s.get (P := Session) k = x at hg
    generalize s'.get (P := Session) k = x' at hg
    cases hg with
    | ok e hs => exact .done (.ok _) hs
    | @error e _ _ _ he hs =>
      cases he with
      | backend => exact .done (.error (.internal _ _)) (hs.unsubscribe id)
      | same =>
        cases e with
        | notFound => exact .more rfl hs
        | conflict | duplicate | backend => exact .done (.error (.same _)) (hs.unsubscribe id)
  | draining id =>
    have hs := h.setHub (s'.hub.receive id).2
    rw [step, step, h.hub]
    dsimp only
    cases (s'.hub.receive id).1 with
    | message m =>
      dsimp only
      split
      · exact .done (.ok _) hs
      · exact .done (.error (.same _)) (hs.unsubscribe id)
    | nothing | closed => exact .done (.error (.same _)) (hs.unsubscribe id)

theorem advanceChange_akin (id : Nat) (known : Status) :
    (advanceChange id known s).1 = (advanceChange id known s').1 ∧
      (advanceChange id known s).2.Akin (advanceChange id known s').2 := by
  unfold advanceChange
  rw [h.hub]
  exact ⟨rfl, h.setHub _⟩

theorem Wait.step_akin (elapsed : Nat) (c : Wait) :
    Step.Akin Eq (Agree Error.Akin) (c.step elapsed s) (c.step elapsed s') := by
  cases c with
  | watching w known timeout =>
    have hw := w.step_akin h
    rw [step, step]
    generalize w.step s = x at hw
    generalize w.step s' = x' at hw
    cases hw with
    | blocked hs => exact .blocked hs
    | more hc hs => exact .more (hc ▸ rfl) hs
    | done ha hs =>
      cases ha with
      | error he => exact .done (.error he) hs
      | ok v =>
        cases known with
        | none => exact .done (.ok _) (hs.unsubscribe _)
        | some known =>
          dsimp only
          split
          · exact .done (.ok _) (hs.unsubscribe _)
          · exact .more rfl hs
  | listening id known deadline =>
    obtain ⟨hc, hs⟩ := advanceChange_akin h id known
    rw [step, step]
    generalize advanceChange id known s = x at hc hs
    generalize advanceChange id known s' = x' at hc hs
    obtain ⟨c, t⟩ := x
    obtain ⟨c', t'⟩ := x'
    subst hc
    cases c with
    | changed m => exact .done (.ok _) (Service.Akin.unsubscribe hs id)
    | ended => exact .done (.error (.same _)) (Service.Akin.unsubscribe hs id)
    | unchanged =>
      dsimp only
      split
      · exact .done (.ok _) (Service.Akin.unsubscribe hs id)
      · exact .blocked hs

end Qr

namespace OAuth

theorem Error.akin_ofAuth {e e' : AuthError} (he : e.Akin e') :
    (Error.ofAuth e).Akin (Error.ofAuth e') := by
  cases he with
  | rejected => exact .same _
  | backend => exact .internal _ _

theorem Error.akin_ofTake {e e' : StoreError} (he : e.Akin e') :
    (Error.ofTake e).Akin (Error.ofTake e') := by
  cases he with
  | same => exact .same _
  | backend => exact .internal _ _

theorem Error.akin_ofLink {e e' : UserError} (he : e.Akin e') :
    (Error.ofLink e).Akin (Error.ofLink e') := by
  cases he with
  | same => exact .same _
  | backend => exact .internal _ _

theorem LinkError.akin_ofStore {e e' : StoreError} (he : e.Akin e') :
    (LinkError.ofStore e).Akin (LinkError.ofStore e') := by
  cases he with
  | same => exact .same _
  | backend => exact .internal _ _

theorem LinkError.akin_ofLink {e e' : UserError} (he : e.Akin e') :
    (LinkError.ofLink e).Akin (LinkError.ofLink e') := by
  cases he with
  | same => exact .same _
  | backend => exact .internal _ _

variable (h : s.Akin s')
include h

theorem Begin.step_akin (c : Begin) :
    Step.Akin Eq (Agree Error.Akin) (c.step s) (c.step s') := by
  have ho := h.setup.oauth
  cases c with
  | start action session k =>
    unfold step
    dsimp only
    generalize s.setup.oauth = o at ho
    generalize s'.setup.oauth = o' at ho
    cases ho with
    | none => exact .done (.error (.same _)) h
    | some =>
      cases action with
      | login => exact .more rfl h
      | link =>
        have ha := h.authenticate session
        dsimp only
        generalize s.authenticate session = a at ha
        generalize s'.authenticate session = a' at ha
        cases ha with
        | ok uid => exact .more rfl h
        | error he => exact .done (.error (Error.akin_ofAuth he)) h
  | storing action uid k =>
    have hp := h.put k (State.mk .issued action uid) s.setup.oauthTtl
    unfold step
    dsimp only
    rw [← h.setup.oauthTtl]
    generalize s.put k (State.mk .issued action uid) s.setup.oauthTtl = x at hp
    generalize s'.put k (State.mk .issued action uid) s.setup.oauthTtl = x' at hp
    generalize s.setup.oauth = o at ho
    generalize s'.setup.oauth = o' at ho
    cases ho with
    | none => exact .done (.error (.same _)) h
    | @some o o' ho =>
      obtain ⟨settings, provider⟩ := o
      obtain ⟨settings', provider'⟩ := o'
      obtain ⟨rfl, -⟩ := ho
      dsimp only
      cases authorizeUrl settings k.text with
      | error e => exact .done (.error (.same _)) h
      | ok url =>
        cases hp with
        | ok e hs => exact .done (.ok _) hs
        | error _ hs => exact .done (.error (.internal _ _)) hs

theorem precheck_akin (state code : String) (denied : Option String) :
    precheck state code denied s = precheck state code denied s' := by
  have ho : s.setup.oauth.isNone = s'.setup.oauth.isNone := by
    have ho := h.setup.oauth
    generalize s.setup.oauth = o at ho
    generalize s'.setup.oauth = o' at ho
    cases ho <;> rfl
  rw [precheck, precheck, ho]

theorem Callback.step_akin (c : Callback) :
    Step.Akin Eq (Agree Error.Akin) (c.step s) (c.step s') := by
  cases c with
  | start state code denied chance =>
    rw [step, step, precheck_akin h]
    cases precheck state code denied s' with
    | error e => exact .done (.error (.same e)) h
    | ok x =>
      obtain ⟨k, code⟩ := x
      have ht := h.takeOnce (P := State) k
      dsimp only
      generalize s.takeOnce (P := State) k = x at ht
      generalize s'.takeOnce (P := State) k = x' at ht
      cases ht with
      | ok e hs => exact .more rfl hs
      | error he hs => exact .done (.error (Error.akin_ofTake he)) hs
  | exchanging state code chance =>
    have ho := h.setup.oauth
    rw [step, step]
    generalize s.setup.oauth = o at ho
    generalize s'.setup.oauth = o' at ho
    cases ho with
    | none => exact .done (.error (.same _)) h
    | @some o o' ho =>
      have hp := ho.2 code
      dsimp only
      generalize o.2 code = i at hp
      generalize o'.2 code = i' at hp
      cases hp with
      | error => exact .done (.error (.provider _ _)) h
      | ok i =>
        dsimp only
        split
        · exact .more rfl h
        · exact .done (.error (.same _)) h
        · exact .more rfl h
  | linking uid i =>
    have hl := h.linkUser uid i
    rw [step, step]
    generalize s.linkUser uid i = x at hl
    generalize s'.linkUser uid i = x' at hl
    cases hl with
    | ok u hs => exact .done (.ok _) hs
    | error he hs => exact .done (.error (Error.akin_ofLink he)) hs
  | searching i chance =>
    have hf := h.findByProvider i.providerId
    rw [step, step]
    generalize s.findByProvider i.providerId = f at hf
    generalize s'.findByProvider i.providerId = f' at hf
    cases hf with
    | error => exact .done (.error (.internal _ _)) h
    | ok found => cases found <;> exact .more rfl h
  | minting uid random =>
    have hm := h.mint uid random
    rw [step, step]
    generalize s.mint uid random = m at hm
    generalize s'.mint uid random = m' at hm
    cases hm with
    | none => exact .blocked h
    | some hm =>
      cases hm with
      | ok session => exact .done (.ok _) h
      | error => exact .done (.error (.sessionMint _ _)) h
  | matching i chance =>
    rw [step, step]
    cases i.email with
    | none => exact .done (.error (.same _)) h
    | some email =>
      have hf := h.findByEmail email
      dsimp only
      generalize s.findByEmail email = f at hf
      generalize s'.findByEmail email = f' at hf
      cases hf with
      | error => exact .done (.error (.internal _ _)) h
      | ok found =>
        dsimp only
        split
        · exact .more rfl h
        · exact .done (.error (.same _)) h
  | storing uid i k =>
    have hp := h.put k (PendingLink.mk .issued uid i) s'.setup.oauthTtl
    rw [step, step, h.setup.oauthTtl]
    generalize s.put k (PendingLink.mk .issued uid i) s'.setup.oauthTtl = x at hp
    generalize s'.put k (PendingLink.mk .issued uid i) s'.setup.oauthTtl = x' at hp
    cases hp with
    | ok e hs => exact .done (.ok _) hs
    | error _ hs => exact .done (.error (.internal _ _)) hs

theorem Peek.step_akin (c : Peek) :
    Step.Akin Eq (Agree LinkError.Akin) (c.step s) (c.step s') := by
  cases c with
  | start token =>
    rw [step, step]
    cases Handle.parse token linkBytes with
    | none => exact .done (.error (.same _)) h
    | some k =>
      have hg := h.get (P := PendingLink) k
      dsimp only
      generalize s.get (P := PendingLink) k = x at hg
      generalize s'.get (P := PendingLink) k = x' at hg
      cases hg with
      | ok e hs => exact .more rfl hs
      | error he hs => exact .done (.error (LinkError.akin_ofStore he)) hs
  | finding e =>
    have hf := h.findById e.payload.userId
    rw [step, step]
    generalize s.findById e.payload.userId = f at hf
    generalize s'.findById e.payload.userId = f' at hf
    cases hf with
    | error => exact .done (.error (.internal _ _)) h
    | ok found =>
      cases found with
      | none => exact .done (.error (.same _)) h
      | some u => exact .done (.ok _) h

theorem ConfirmLink.step_akin (c : ConfirmLink) :
    Step.Akin Eq (Agree LinkError.Akin) (c.step s) (c.step s') := by
  cases c with
  | start token random =>
    rw [step, step]
    cases Handle.parse token linkBytes with
    | none => exact .done (.error (.same _)) h
    | some k =>
      have ht := h.takeOnce (P := PendingLink) k
      dsimp only
      generalize s.takeOnce (P := PendingLink) k = x at ht
      generalize s'.takeOnce (P := PendingLink) k = x' at ht
      cases ht with
      | ok e hs => exact .more rfl hs
      | error he hs => exact .done (.error (LinkError.akin_ofStore he)) hs
  | linking l random =>
    have hl := h.linkUser l.userId l.identity
    rw [step, step]
    generalize s.linkUser l.userId l.identity = x at hl
    generalize s'.linkUser l.userId l.identity = x' at hl
    cases hl with
    | ok u hs => exact .more rfl hs
    | error he hs => exact .done (.error (LinkError.akin_ofLink he)) hs
  | minting uid random =>
    have hm := h.mint uid random
    rw [step, step]
    generalize s.mint uid random = m at hm
    generalize s'.mint uid random = m' at hm
    cases hm with
    | none => exact .blocked h
    | some hm =>
      cases hm with
      | ok session => exact .done (.ok _) h
      | error => exact .done (.error (.sessionMint _ _)) h

end OAuth

end Handoff
