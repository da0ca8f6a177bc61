import Handoff.OAuth.Calls

namespace Handoff.OAuth

variable {s s' : Service}

inductive Begin.Stepped (s : Service) : Begin → Step Begin (Except Error Begun) × Service → Prop
  | failed {c : Begin} {e : Error} : Stepped s c (.done (.error e), s)
  | login {session : Option String} {h : Handle} :
    Stepped s (.start .login session h) (.more (.storing .login none h), s)
  | link {session : Option String} {h : Handle} {uid : Int64} :
    s.authenticate session = .ok uid →
    Stepped s (.start .link session h) (.more (.storing .link (some uid) h), s)
  | stored {action : Action} {uid : Option Int64} {h : Handle} {url : String} {e : Entry State}
    {s' : Service} : s.put h ⟨.issued, action, uid⟩ s.setup.oauthTtl = (.ok e, s') →
    Stepped s (.storing action uid h) (.done (.ok ⟨h.text, url, e.expireAt⟩), s')
  | unstored {action : Action} {uid : Option Int64} {h : Handle} {e : StoreError} {s' : Service} :
    s.put h (State.mk .issued action uid) s.setup.oauthTtl = (.error e, s') →
    Stepped s (.storing action uid h) (.done (.error (.ofStore e)), s')

theorem Begin.stepped (c : Begin) (s : Service) : Stepped s c (c.step s) := by
  cases c with
  | start action session h =>
    unfold Begin.step
    dsimp only
    split
    · exact .failed
    · cases action with
      | login => exact .login
      | link =>
        dsimp only
        split
        · exact .failed
        · next ha => exact .link ha
  | storing action uid h =>
    rw [Begin.step]
    split
    · exact .failed
    · split
      · exact .failed
      · split
        · next hr => exact .unstored hr
        · next hr => exact .stored hr

def Error.isRefusal : Error → Bool
  | notConfigured => true
  | denied _ => true
  | _ => false

/-- How a callback goes on. Once the state is used up, the provider is asked, which needs it to be
set up still. -/
inductive Callback.Stepped (s : Service) :
    Callback → Step Callback (Except Error Outcome) × Service → Prop
  | rejected {state code : String} {denied : Option String} {chance : Chance} {e : Error} :
    precheck state code denied s = .error e →
    Stepped s (.start state code denied chance) (.done (.error e), s)
  | untaken {state code code' : String} {denied : Option String} {chance : Chance} {h : Handle}
    {e : StoreError} {s' : Service} : precheck state code denied s = .ok (h, code') →
    s.takeOnce (P := State) h = (.error e, s') →
    Stepped s (.start state code denied chance) (.done (.error (.ofTake e)), s')
  | taken {state code code' : String} {denied : Option String} {chance : Chance} {h : Handle}
    {e : Entry State} {s' : Service} : precheck state code denied s = .ok (h, code') →
    s.takeOnce h = (.ok e, s') →
    Stepped s (.start state code denied chance) (.more (.exchanging e.payload code' chance), s')
  | unconfigured {state : State} {code : String} {chance : Chance} : s.setup.oauth = none →
    Stepped s (.exchanging state code chance) (.done (.error .notConfigured), s)
  | failed {c : Callback} {e : Error} : e.isRefusal = false → Stepped s c (.done (.error e), s)
  | linking {state : State} {code : String} {chance : Chance} {o : OAuthSettings}
    {provider : Provider} {i : Identity} {uid : Int64} : s.setup.oauth = some (o, provider) →
    provider code = .ok i → state.action = .link → state.userId = some uid →
    Stepped s (.exchanging state code chance) (.more (.linking uid i), s)
  | searching {state : State} {code : String} {chance : Chance} {o : OAuthSettings}
    {provider : Provider} {i : Identity} : s.setup.oauth = some (o, provider) →
    provider code = .ok i → state.action = .login →
    Stepped s (.exchanging state code chance) (.more (.searching i chance), s)
  | linked {uid : Int64} {i : Identity} {s' : Service} : s.linkUser uid i = (.ok (), s') →
    Stepped s (.linking uid i) (.done (.ok (.linked uid)), s')
  | found {i : Identity} {chance : Chance} {u : User} :
    s.findByProvider i.providerId = .ok (some u) →
    Stepped s (.searching i chance) (.more (.minting u.id chance.session), s)
  | unknown {i : Identity} {chance : Chance} : s.findByProvider i.providerId = .ok none →
    Stepped s (.searching i chance) (.more (.matching i chance), s)
  | stalled {uid : Int64} {random : List UInt8} : s.mint uid random = none →
    Stepped s (.minting uid random) (.blocked, s)
  | minted {uid : Int64} {random : List UInt8} {session : String} :
    s.mint uid random = some (.ok session) →
    Stepped s (.minting uid random) (.done (.ok (.loggedIn uid session)), s)
  | matched {i : Identity} {chance : Chance} {uid : Int64} :
    Stepped s (.matching i chance) (.more (.storing uid i chance.link), s)
  | stored {uid : Int64} {i : Identity} {h : Handle} {e : Entry PendingLink} {s' : Service} :
    s.put h ⟨.issued, uid, i⟩ s.setup.oauthTtl = (.ok e, s') →
    Stepped s (.storing uid i h) (.done (.ok (.pendingLink h.text e.expireAt)), s')
  | unstored {uid : Int64} {i : Identity} {h : Handle} {e : StoreError} {s' : Service} :
    s.put h (PendingLink.mk .issued uid i) s.setup.oauthTtl = (.error e, s') →
    Stepped s (.storing uid i h) (.done (.error (.ofStore e)), s')

theorem Error.isRefusal_ofLink (e : UserError) : (ofLink e).isRefusal = false := by
  cases e <;> rfl

theorem linkUser_error {uid : Int64} {i : Identity} {e : UserError}
    (h : s.linkUser uid i = (.error e, s')) : s' = s := by
  unfold Service.linkUser at h
  split at h <;> cases h
  rfl

theorem linkUser_ok {uid : Int64} {i : Identity} (h : s.linkUser uid i = (.ok (), s')) :
    s.users.link uid i = .ok s'.users ∧ s' = { s with users := s'.users } := by
  unfold Service.linkUser at h
  split at h
  · cases h
  · next hl =>
    cases h
    cases hf : s.userFailure .link with
    | error e =>
      rw [hf] at hl
      cases hl
    | ok =>
      rw [hf] at hl
      exact ⟨hl, rfl⟩

theorem Callback.stepped (c : Callback) (s : Service) : Stepped s c (c.step s) := by
  cases c with
  | start state code denied chance =>
    rw [Callback.step]
    split
    · next hp => exact .rejected hp
    · next hp =>
      split
      · next ht => exact .untaken hp ht
      · next ht => exact .taken hp ht
  | exchanging state code chance =>
    rw [Callback.step]
    split
    · next ho => exact .unconfigured ho
    · next ho =>
      split
      · exact .failed rfl
      · next hi =>
        split
        · next ha hu => exact .linking ho hi ha (Option.filter_eq_some_iff.1 hu).1
        · exact .failed rfl
        · next ha => exact .searching ho hi ha
  | linking uid i =>
    rw [Callback.step]
    split
    · next hl =>
      cases linkUser_error hl
      exact .failed (Error.isRefusal_ofLink _)
    · next hl => exact .linked hl
  | searching i chance =>
    rw [Callback.step]
    split
    · exact .failed rfl
    · next hf => exact .found hf
    · next hf => exact .unknown hf
  | minting uid random =>
    rw [Callback.step]
    split
    · next hm => exact .stalled hm
    · exact .failed rfl
    · next hm => exact .minted hm
  | matching i chance =>
    rw [Callback.step]
    split
    · exact .failed rfl
    · split
      · exact .failed rfl
      · split
        · exact .matched
        · exact .failed rfl
  | storing uid i h =>
    rw [Callback.step]
    split
    · next hr => exact .unstored hr
    · next hr => exact .stored hr

inductive Peek.Stepped (s : Service) : Peek → Step Peek (Except LinkError LinkView) × Service → Prop
  | failed {c : Peek} {e : LinkError} : Stepped s c (.done (.error e), s)
  | missed {token : String} {h : Handle} {e : StoreError} {s' : Service} :
    Handle.parse token linkBytes = some h → s.get (P := PendingLink) h = (.error e, s') →
    Stepped s (.start token) (.done (.error (.ofStore e)), s')
  | seen {token : String} {h : Handle} {e : Entry PendingLink} {s' : Service} :
    Handle.parse token linkBytes = some h → s.get h = (.ok e, s') →
    Stepped s (.start token) (.more (.finding e), s')
  | shown {e : Entry PendingLink} {v : LinkView} : Stepped s (.finding e) (.done (.ok v), s)

theorem Peek.stepped (c : Peek) (s : Service) : Stepped s c (c.step s) := by
  cases c with
  | start token =>
    rw [Peek.step]
    split
    · exact .failed
    · next hh =>
      split
      · next hr => exact .missed hh hr
      · next hr => exact .seen hh hr
  | finding e =>
    rw [Peek.step]
    split
    · exact .failed
    · exact .failed
    · exact .shown

inductive ConfirmLink.Stepped (s : Service) :
    ConfirmLink → Step ConfirmLink (Except LinkError Linked) × Service → Prop
  | failed {c : ConfirmLink} {e : LinkError} : Stepped s c (.done (.error e), s)
  | untaken {token : String} {random : List UInt8} {h : Handle} {e : StoreError} {s' : Service} :
    Handle.parse token linkBytes = some h → s.takeOnce (P := PendingLink) h = (.error e, s') →
    Stepped s (.start token random) (.done (.error (.ofStore e)), s')
  | taken {token : String} {random : List UInt8} {h : Handle} {e : Entry PendingLink}
    {s' : Service} : Handle.parse token linkBytes = some h → s.takeOnce h = (.ok e, s') →
    Stepped s (.start token random) (.more (.linking e.payload random), s')
  | linked {l : PendingLink} {random : List UInt8} {s' : Service} :
    s.linkUser l.userId l.identity = (.ok (), s') →
    Stepped s (.linking l random) (.more (.minting l.userId random), s')
  | stalled {uid : Int64} {random : List UInt8} : s.mint uid random = none →
    Stepped s (.minting uid random) (.blocked, s)
  | minted {uid : Int64} {random : List UInt8} {session : String} :
    s.mint uid random = some (.ok session) →
    Stepped s (.minting uid random) (.done (.ok ⟨uid, session⟩), s)

theorem ConfirmLink.stepped (c : ConfirmLink) (s : Service) : Stepped s c (c.step s) := by
  cases c with
  | start token random =>
    rw [ConfirmLink.step]
    split
    · exact .failed
    · next hh =>
      split
      · next ht => exact .untaken hh ht
      · next ht => exact .taken hh ht
  | linking l random =>
    rw [ConfirmLink.step]
    split
    · next hl =>
      cases linkUser_error hl
      exact .failed
    · next hl => exact .linked hl
  | minting uid random =>
    rw [ConfirmLink.step]
    split
    · next hm => exact .stalled hm
    · exact .failed
    · next hm => exact .minted hm

end Handoff.OAuth
