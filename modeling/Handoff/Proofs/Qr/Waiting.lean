import Handoff.Proofs.Run.Call

namespace Handoff.Qr

inductive Watch.Stepped (s : Service) : Watch → Step Watch (Except Error Watching) × Service → Prop
  | unresolved {token : String} {e : Error} : resolve token s = .error e →
    Stepped s (.start token) (.done (.error e), s)
  | busy {token : String} {h : Handle} {e : NotifyError} : resolve token s = .ok h →
    s.hub.reserve = .error e → Stepped s (.start token) (.done (.error .busy), s)
  | reserved {token : String} {h : Handle} {hub : Hub} : resolve token s = .ok h →
    s.hub.reserve = .ok hub → Stepped s (.start token) (.more (.attaching h), { s with hub })
  | attached (h : Handle) : Stepped s (.attaching h)
    (.more (.reading h s.hub.nextId), { s with hub := (s.hub.attach h).2 })
  | read {h : Handle} {id : Nat} {e : Entry Session} {s' : Service} : s.get h = (.ok e, s') →
    Stepped s (.reading h id) (.done (.ok ⟨id, .ofStatus e.payload.status⟩), s')
  | missed {h : Handle} {id : Nat} {s' : Service} :
    s.get (P := Session) h = (.error .notFound, s') →
    Stepped s (.reading h id) (.more (.draining id), s')
  | failed {h : Handle} {id : Nat} {e : StoreError} {s' : Service} :
    s.get (P := Session) h = (.error e, s') → e ≠ .notFound →
    Stepped s (.reading h id) (.done (.error (.ofStore e)), unsubscribe id s')
  | caught {id : Nat} {m : Message} {hub : Hub} : s.hub.receive id = (.message m, hub) →
    m.status.isTerminal = true → Stepped s (.draining id) (.done (.ok ⟨id, m⟩), { s with hub })
  | lost {id : Nat} {r : Received} {hub : Hub} : s.hub.receive id = (r, hub) →
    (∀ m, r = .message m → m.status.isTerminal = false) →
    Stepped s (.draining id) (.done (.error .notFound), unsubscribe id { s with hub })

theorem Watch.stepped (w : Watch) (s : Service) : Stepped s w (w.step s) := by
  cases w with
  | start token =>
    rw [Watch.step]
    split
    · next hh => exact .unresolved hh
    · next hh =>
      split
      · next hr => exact .busy hh hr
      · next hr => exact .reserved hh hr
  | attaching h => exact .attached h
  | reading h id =>
    rw [Watch.step]
    generalize hr : s.get (P := Session) h = x
    obtain ⟨r, s'⟩ := x
    cases r with
    | ok e => exact .read hr
    | error e =>
      cases e with
      | notFound => exact .missed hr
      | conflict | duplicate | backend => exact .failed hr (by rintro ⟨⟩)
  | draining id =>
    rw [Watch.step]
    generalize hx : s.hub.receive id = x
    obtain ⟨r, hub⟩ := x
    cases r with
    | message m =>
      dsimp only
      split
      · next hm => exact .caught hx hm
      · next hm =>
        refine .lost hx ?_
        rintro k ⟨⟩
        exact Bool.eq_false_iff.2 hm
    | nothing | closed =>
      refine .lost hx ?_
      rintro k ⟨⟩

inductive Wait.Stepped (s : Service) (elapsed : Nat) :
    Wait → Step Wait (Except Error (Option Message)) × Service → Prop
  | watching {w w' : Watch} {known : Option Status} {timeout : Nat} {s' : Service} :
    w.step s = (.more w', s') →
    Stepped s elapsed (.watching w known timeout) (.more (.watching w' known timeout), s')
  | failed {w : Watch} {known : Option Status} {timeout : Nat} {e : Error} {s' : Service} :
    w.step s = (.done (.error e), s') →
    Stepped s elapsed (.watching w known timeout) (.done (.error e), s')
  | answered {w : Watch} {known : Option Status} {timeout : Nat} {v : Watching} {s' : Service} :
    w.step s = (.done (.ok v), s') →
    (∀ k, known = some k → v.current.status ≠ k ∨ v.current.status.isTerminal = true) →
    Stepped s elapsed (.watching w known timeout)
      (.done (.ok (some v.current)), unsubscribe v.subscription s')
  | settled {w : Watch} {timeout : Nat} {v : Watching} {s' : Service} :
    w.step s = (.done (.ok v), s') → v.current.status.isTerminal = false →
    Stepped s elapsed (.watching w (some v.current.status) timeout)
      (.more (.listening v.subscription v.current.status (elapsed + timeout)), s')
  | changed {id : Nat} {known : Status} {deadline : Nat} {m : Message} {s' : Service} :
    advanceChange id known s = (.changed m, s') →
    Stepped s elapsed (.listening id known deadline) (.done (.ok (some m)), unsubscribe id s')
  | ended {id : Nat} {known : Status} {deadline : Nat} {s' : Service} :
    advanceChange id known s = (.ended, s') →
    Stepped s elapsed (.listening id known deadline) (.done (.error .notFound), unsubscribe id s')
  | late {id : Nat} {known : Status} {deadline : Nat} {s' : Service} :
    advanceChange id known s = (.unchanged, s') → deadline ≤ elapsed →
    Stepped s elapsed (.listening id known deadline) (.done (.ok none), unsubscribe id s')
  | waiting {id : Nat} {known : Status} {deadline : Nat} {s' : Service} :
    advanceChange id known s = (.unchanged, s') → elapsed < deadline →
    Stepped s elapsed (.listening id known deadline) (.blocked, s')

theorem Watch.step_ne_blocked (w : Watch) (s s' : Service) : w.step s ≠ (.blocked, s') := by
  intro h
  have hw := w.stepped s
  rw [h] at hw
  cases hw

theorem Wait.stepped (elapsed : Nat) (c : Wait) (s : Service) :
    Stepped s elapsed c (c.step elapsed s) := by
  cases c with
  | watching w known timeout =>
    rw [Wait.step]
    split
    · next hw => exact .watching hw
    · next hw => exact absurd hw (w.step_ne_blocked s _)
    · next hw => exact .failed hw
    · next v s' hw =>
      cases known with
      | none => exact .answered hw (by rintro k ⟨⟩)
      | some known =>
        dsimp only
        split
        · next hn =>
          refine .answered hw ?_
          rintro k ⟨⟩
          exact hn
        · next hn =>
          obtain ⟨hk, ht⟩ := not_or.1 hn
          rw [Decidable.not_not] at hk
          subst hk
          exact .settled hw (Bool.eq_false_iff.2 ht)
  | listening id known deadline =>
    rw [Wait.step]
    split
    · next hc => exact .changed hc
    · next hc => exact .ended hc
    · next hc =>
      split
      · next hd => exact .late hc hd
      · next hd => exact .waiting hc (Nat.lt_of_not_le hd)

inductive Follow.Stepped (s : Service) :
    Follow → Step Follow (Except Error (Message × List Message)) × Service → Prop
  | watching {w w' : Watch} {s' : Service} : w.step s = (.more w', s') →
    Stepped s (.watching w) (.more (.watching w'), s')
  | failed {w : Watch} {e : Error} {s' : Service} : w.step s = (.done (.error e), s') →
    Stepped s (.watching w) (.done (.error e), s')
  | answered {w : Watch} {v : Watching} {s' : Service} : w.step s = (.done (.ok v), s') →
    v.current.status.isTerminal = true →
    Stepped s (.watching w) (.done (.ok (v.current, [])), unsubscribe v.subscription s')
  | settled {w : Watch} {v : Watching} {s' : Service} : w.step s = (.done (.ok v), s') →
    v.current.status.isTerminal = false →
    Stepped s (.watching w) (.more (.listening v.subscription v.current []), s')
  | changed {id : Nat} {current m : Message} {changes : List Message} {s' : Service} :
    advanceChange id (known current changes) s = (.changed m, s') →
    Stepped s (.listening id current changes) (.more (.listening id current (changes ++ [m])), s')
  | ended {id : Nat} {current : Message} {changes : List Message} {s' : Service} :
    advanceChange id (known current changes) s = (.ended, s') →
    Stepped s (.listening id current changes) (.done (.ok (current, changes)), unsubscribe id s')
  | waiting {id : Nat} {current : Message} {changes : List Message} {s' : Service} :
    advanceChange id (known current changes) s = (.unchanged, s') →
    Stepped s (.listening id current changes) (.blocked, s')

theorem Follow.stepped (c : Follow) (s : Service) : Stepped s c (c.step s) := by
  cases c with
  | watching w =>
    rw [Follow.step]
    split
    · next hw => exact .watching hw
    · next hw => exact absurd hw (w.step_ne_blocked s _)
    · next hw => exact .failed hw
    · next hw =>
      split
      · next ht => exact .answered hw ht
      · next ht => exact .settled hw (Bool.eq_false_iff.2 ht)
  | listening id current changes =>
    rw [Follow.step]
    split
    · next hc => exact .changed hc
    · next hc => exact .waiting hc
    · next hc => exact .ended hc

end Handoff.Qr
