import Handoff.Proofs.Run.Log
import Mathlib.Data.List.TakeWhile

namespace Handoff

namespace Qr

def Status.rank : Status → Nat
  | pending => 0
  | scanned => 1
  | confirmed => 2
  | cancelled => 2

theorem Status.rank_lt {known st : Status} (hk : known.isTerminal = false)
    (h : known.rank ≤ st.rank) (hne : st ≠ known) : known.rank < st.rank := by
  cases known <;> cases st <;> simp_all [rank, isTerminal]

theorem Status.rank_le_of_isTerminal {a b : Status} (hb : b.isTerminal = true) :
    a.rank ≤ b.rank := by
  cases a <;> cases b <;> simp_all [rank, isTerminal]

def Forward (ms : List Message) : Prop := ms.Pairwise fun a b => a.status.rank < b.status.rank

/-- What one who knows the status `known` still finds in a subscription. -/
structure Keen (known : Status) (s : Subscription) : Prop where
  unread : ∀ m ∈ s.unread, known.rank ≤ m.status.rank
  closed : s.isOpen = false → known.isTerminal = true ∨ ∃ m ∈ s.unread, m.isLast = true
  ended : known.isTerminal = true → s.isOpen = false ∧ s.unread = []

structure Ordered (s : Subscription) : Prop where
  distinct : Distinct s.unread
  order : s.unread.Pairwise fun a _ => a.isLast = false
  last : ∀ m ∈ s.unread, m.isLast = true → s.isOpen = false

theorem Keen.open_rank {known : Status} {s : Subscription} (hk : Keen known s)
    (ho : s.isOpen = true) : known.isTerminal = false := by
  cases h : known.isTerminal with
  | false => rfl
  | true => cases ho.symm.trans (hk.ended h).1

theorem Keen.changed {known : Status} {s : Subscription} (hk : Keen known s) (ho : Ordered s)
    {m : Message} {rest : List Message}
    (hr : s.unread.dropWhile (·.status = known) = m :: rest) :
    known.rank < m.status.rank ∧ Keen m.status { s with unread := rest } := by
  have hsuf : (m :: rest) <:+ s.unread := hr ▸ List.dropWhile_suffix _
  have hm : m ∈ s.unread := hsuf.mem List.mem_cons_self
  have hn : known.isTerminal = false := by
    cases h : known.isTerminal with
    | false => rfl
    | true => rw [(hk.ended h).2] at hm; cases hm
  have hne : m.status ≠ known := by
    have hw : s.unread.dropWhile (·.status = known) ≠ [] := by
      rw [hr]
      exact List.cons_ne_nil _ _
    have hh := List.head_dropWhile_not _ hw
    simpa [hr] using hh
  have hord := ho.order.sublist hsuf.sublist
  refine ⟨Status.rank_lt hn (hk.unread m hm) hne, ?_, ?_, ?_⟩
  · intro k hkr
    have hml : m.isLast = false := (List.pairwise_cons.1 hord).1 k hkr
    have hd := (List.nodup_cons.1 (ho.distinct.sublist hsuf.sublist)).1
    apply Status.rank_le_of_isTerminal
    cases hkl : k.isLast with
    | true => exact hkl
    | false => exact absurd (List.mem_map.2 ⟨k, hkr, hkl.trans hml.symm⟩) hd
  · intro hc
    obtain h | ⟨k, hks, hl⟩ := hk.closed hc
    · cases hn.symm.trans h
    · have hkr : k ∈ m :: rest := by
        rw [← List.takeWhile_append_dropWhile (p := (·.status = known)) (l := s.unread), hr] at hks
        refine (List.mem_append.1 hks).resolve_left fun hkt => ?_
        have hst : k.status = known := by simpa using List.mem_takeWhile_imp hkt
        cases (hst ▸ hl : known.isTerminal = true).symm.trans hn
      obtain rfl | hkr := List.mem_cons.1 hkr
      · exact .inl hl
      · exact .inr ⟨k, hkr, hl⟩
  · intro hl
    refine ⟨ho.last m hm hl, ?_⟩
    cases rest with
    | nil => rfl
    | cons k rest => cases ((List.pairwise_cons.1 hord).1 k List.mem_cons_self).symm.trans hl

theorem Keen.unchanged {known : Status} {s : Subscription} (hk : Keen known s)
    (hr : s.unread.dropWhile (·.status = known) = []) :
    s.isOpen = true ∧ Keen known { s with unread := [] } ∨
      s.isOpen = false ∧ known.isTerminal = true := by
  cases ho : s.isOpen with
  | true =>
    refine .inl ⟨rfl, ?_, ?_, ?_⟩
    · intro m hm
      cases hm
    · intro hc
      cases hc
    · intro hl
      cases (hk.open_rank ho).symm.trans hl
  | false =>
    refine .inr ⟨rfl, ?_⟩
    obtain h | ⟨k, hks, hl⟩ := hk.closed ho
    · exact h
    · have hst := List.dropWhile_eq_nil_iff.1 hr k hks
      exact (of_decide_eq_true hst) ▸ hl

theorem Keen.deliver {known : Status} {s s' : Subscription} (hk : Keen known s)
    (ho : s.isOpen = true) {m : Message} (hm : m = .ofStatus .scanned ∨ m.isLast = true)
    (hu : s'.unread = s.unread ++ [m]) (hc : s'.isOpen = !m.isLast) : Keen known s' := by
  have hn := hk.open_rank ho
  refine ⟨?_, ?_, ?_⟩
  · intro k hks
    rw [hu] at hks
    obtain hks | hks := List.mem_append.1 hks
    · exact hk.unread k hks
    · rw [List.mem_singleton.1 hks]
      obtain rfl | hl := hm
      · cases known <;> simp_all [Status.rank, Status.isTerminal, Message.ofStatus]
      · exact Status.rank_le_of_isTerminal hl
  · intro hs
    refine .inr ⟨m, ?_, ?_⟩
    · rw [hu]
      exact List.mem_append_right _ (List.mem_singleton_self m)
    · simpa [hs] using hc
  · intro hl
    cases hn.symm.trans hl

theorem Forward.le_known {current : Message} {changes : List Message}
    (hf : Forward (current :: changes)) :
    ∀ m ∈ current :: changes, m.status.rank ≤ (Follow.known current changes).rank := by
  induction changes generalizing current with
  | nil =>
    intro m hm
    rw [List.mem_singleton.1 hm]
    exact Nat.le_refl _
  | cons next rest ih =>
    obtain ⟨hlt, hf⟩ := List.pairwise_cons.1 hf
    have hn := ih hf
    have hk : Follow.known current (next :: rest) = Follow.known next rest := by
      rw [Follow.known, Follow.known, List.getLastD_cons]
    rw [hk]
    intro m hm
    obtain rfl | hm := List.mem_cons.1 hm
    · exact Nat.le_trans (Nat.le_of_lt (hlt next List.mem_cons_self)) (hn next List.mem_cons_self)
    · exact hn m hm

theorem Forward.concat {current m : Message} {changes : List Message}
    (hf : Forward (current :: changes))
    (hm : (Follow.known current changes).rank < m.status.rank) :
    Forward (current :: (changes ++ [m])) := by
  rw [Forward, ← List.cons_append, List.pairwise_append]
  refine ⟨hf, List.pairwise_singleton _ _, ?_⟩
  intro a ha b hb
  rw [List.mem_singleton.1 hb]
  exact Nat.lt_of_le_of_lt (hf.le_known a ha) hm

def Watch.Attends (t : Subscription) (heard : List Message) : Watch → Prop
  | reading h _ => t.handle = h ∧ t.unread = heard
  | draining _ => t.unread = heard
  | _ => True

end Qr

def Call.Attends (t : Subscription) (heard : List Qr.Message) : Call → Prop
  | wait (.watching w _ _) => w.Attends t heard
  | wait (.listening _ known _) => known.isTerminal = false ∧ Qr.Keen known t
  | follow (.watching w) => w.Attends t heard
  | follow (.listening _ current changes) =>
    Qr.Forward (current :: changes) ∧ Qr.Keen (Qr.Follow.known current changes) t
  | _ => True

/-- The subscription of a call is there, a new one has heard nothing, and a sign-in that is still
stored has told nothing that was seen before. -/
structure Attentive (s : Service) (heard : Nat → List Qr.Message) (c : Call) : Prop where
  own : ∀ id, c.own = some id →
    ∃ t, s.hub.view id = some t ∧ Qr.Ordered t ∧ c.Attends t (heard id)
  fresh : heard s.hub.nextId = []
  keen : ∀ h e s' id t, s.get (P := Qr.Session) h = (.ok e, s') → s.hub.view id = some t →
    t.handle = h → e.payload.status.isTerminal = false ∧ Qr.Keen e.payload.status t

theorem Call.Attends.watch {c : Call} {t : Subscription} {heard : List Qr.Message}
    (hc : c.Attends t heard) {w : Qr.Watch} (hw : c.watch? = some w) : w.Attends t heard := by
  cases c with
  | wait c | follow c =>
    cases c with
    | watching =>
      cases hw
      exact hc
    | listening => cases hw
  | issue | status | scan | confirm | cancel | oauthBegin | oauthCallback | peek | confirmLink =>
    cases hw

theorem Call.own_of_watch {c : Call} {w : Qr.Watch} (hw : c.watch? = some w) : c.own = w.own := by
  cases c with
  | wait c | follow c =>
    cases c with
    | watching =>
      cases hw
      rfl
    | listening => cases hw
  | issue | status | scan | confirm | cancel | oauthBegin | oauthCallback | peek | confirmLink =>
    cases hw

namespace Qr

variable {s s' : Service} {heard : Nat → List Message} {elapsed : Nat}

theorem Watch.step_ok {w : Watch} {v : Watching} (h : w.step s = (.done (.ok v), s')) :
    (∃ k e, w = .reading k v.subscription ∧ s.get (P := Session) k = (.ok e, s') ∧
      v.current = .ofStatus e.payload.status) ∨ v.current.isLast = true := by
  have hw := w.stepped s
  rw [h] at hw
  cases hw with
  | read hr => exact .inl ⟨_, _, rfl, hr, rfl⟩
  | caught _ hm => exact .inr hm

theorem Watch.step_more {c : Call} (ha : Attentive s heard c) (hh : s.hub.Sound)
    {w w' : Watch} (hw : c.watch? = some w) (h : w.step s = (.more w', s')) {id : Nat}
    {t : Subscription} (ho : w'.own = some id) (ht : s'.hub.view id = some t) :
    w'.Attends t (heard id) := by
  have hst := w.stepped s
  rw [h] at hst
  cases hst with
  | reserved => cases ho
  | attached k =>
    cases ho
    have hv := congrFun (Hub.view_attach hh k) s.hub.nextId
    rw [Function.update_self] at hv
    cases hv.symm.trans ht
    exact ⟨rfl, ha.fresh.symm⟩
  | missed hr =>
    cases ho
    obtain ⟨t', ht', -, hatt⟩ := ha.own id (Call.own_of_watch hw)
    rw [get_hub_of hr] at ht
    cases ht'.symm.trans ht
    exact (hatt.watch hw).2

theorem keen_of_step {c : Call} (ha : Attentive s heard c) {w : Watch}
    (hw : c.watch? = some w) {v : Watching} (h : w.step s = (.done (.ok v), s'))
    (hl : v.current.isLast = false) {t : Subscription}
    (ht : s'.hub.view v.subscription = some t) : Keen v.current.status t := by
  obtain ⟨k, e, rfl, hr, hv⟩ | hl' := Watch.step_ok h
  · rw [get_hub_of hr] at ht
    obtain ⟨t', ht', -, hatt⟩ := ha.own _ (Call.own_of_watch hw)
    cases ht'.symm.trans ht
    rw [hv]
    exact (ha.keen k e s' _ t hr ht (hatt.watch hw).1).2
  · cases hl'.symm.trans hl

theorem Keen.advance {id : Nat} {known : Status} {t : Subscription} {c : Change}
    (ht : s.hub.view id = some t) (hk : Keen known t) (ho : Ordered t)
    (hc : advanceChange id known s = (c, s')) :
    (∀ m, c = .changed m → known.rank < m.status.rank ∧
      ∀ t', s'.hub.view id = some t' → Keen m.status t') ∧
    (c = .unchanged → ∀ t', s'.hub.view id = some t' → Keen known t') ∧
    (c = .ended → known.isTerminal = true) := by
  obtain ⟨hs, hv, -⟩ := advanceChange_of_view known ht
  rw [hc] at hs hv
  rw [hv, Function.update_self, show c = _ from hs]
  cases hr : t.unread.dropWhile (·.status = known) with
  | cons m rest =>
    obtain ⟨hlt, hk'⟩ := hk.changed ho hr
    refine ⟨?_, by rintro ⟨⟩, by rintro ⟨⟩⟩
    rintro _ ⟨⟩
    refine ⟨hlt, ?_⟩
    rintro t' ⟨⟩
    exact hk'
  | nil =>
    obtain ⟨hop, hk'⟩ | ⟨hop, hl⟩ := hk.unchanged hr
    · rw [seen, if_pos hop]
      refine ⟨by rintro _ ⟨⟩, ?_, by rintro ⟨⟩⟩
      rintro _ t' ⟨⟩
      exact hk'
    · rw [seen, hop]
      exact ⟨by rintro _ ⟨⟩, by rintro ⟨⟩, fun _ => hl⟩

theorem Wait.attends_step (hh : s.hub.Sound) {c c' : Wait}
    (ha : Attentive s heard (.wait c)) (hc : (c.step elapsed s).1.rest c = some c') {id : Nat}
    {t : Subscription} (ho : (Call.wait c').own = some id)
    (ht : (c.step elapsed s).2.hub.view id = some t) : (Call.wait c').Attends t (heard id) := by
  have hst := c.stepped elapsed s
  generalize c.step elapsed s = x at hst hc ht
  cases hst with
  | watching hw =>
    cases hc
    exact Watch.step_more ha hh rfl hw ho ht
  | settled hw hl =>
    cases hc
    cases ho
    exact ⟨hl, keen_of_step ha rfl hw hl ht⟩
  | waiting hv =>
    cases hc
    cases ho
    obtain ⟨t', ht', hord, hn, hk⟩ := ha.own id rfl
    exact ⟨hn, (hk.advance ht' hord hv).2.1 rfl t ht⟩
  | failed | answered | changed | ended | late => cases hc

theorem Follow.known_concat (current m : Message) (changes : List Message) :
    Follow.known current (changes ++ [m]) = m.status := by
  simp [Follow.known, List.getLastD_eq_getLast?]

theorem Follow.attends_step (hh : s.hub.Sound) {c c' : Follow}
    (ha : Attentive s heard (.follow c)) (hc : (c.step s).1.rest c = some c') {id : Nat}
    {t : Subscription} (ho : (Call.follow c').own = some id)
    (ht : (c.step s).2.hub.view id = some t) : (Call.follow c').Attends t (heard id) := by
  have hst := c.stepped s
  generalize c.step s = x at hst hc ht
  cases hst with
  | watching hw =>
    cases hc
    exact Watch.step_more ha hh rfl hw ho ht
  | settled hw hl =>
    cases hc
    cases ho
    exact ⟨List.pairwise_singleton _ _, keen_of_step ha rfl hw hl ht⟩
  | changed hv =>
    cases hc
    cases ho
    obtain ⟨t', ht', hord, hf, hk⟩ := ha.own id rfl
    obtain ⟨hlt, hk'⟩ := (hk.advance ht' hord hv).1 _ rfl
    refine ⟨hf.concat hlt, ?_⟩
    rw [Follow.known_concat]
    exact hk' t ht
  | waiting hv =>
    cases hc
    cases ho
    obtain ⟨t', ht', hord, hf, hk⟩ := ha.own id rfl
    exact ⟨hf, (hk.advance ht' hord hv).2.1 rfl t ht⟩
  | failed | answered | ended => cases hc

def Wait.given : Wait → Option Status
  | watching _ known _ => known
  | listening _ known _ => some known

def Wait.admitted (s : Service) : Wait → Prop
  | watching w _ _ => ∃ v, (w.step s).1 = .done (.ok v)
  | listening .. => True

def Follow.admitted (s : Service) : Follow → Prop
  | watching w => ∃ v, (w.step s).1 = .done (.ok v)
  | listening .. => True

/-- A wait whose watch succeeded answers what is new, or the end, or that its time ran out. -/
theorem Wait.answer_step {c : Wait} (ha : Attentive s heard (.wait c)) (hw : c.admitted s)
    {known : Status} (hk : c.given = some known) {a : Except Error (Option Message)}
    (hr : (c.step elapsed s).1 = .done a) :
    a = .ok none ∨ ∃ m, a = .ok (some m) ∧ (m.status ≠ known ∨ m.isLast = true) := by
  have hst := c.stepped elapsed s
  generalize c.step elapsed s = x at hst hr
  cases hst with
  | failed hf =>
    obtain ⟨v, hv⟩ := hw
    rw [hf] at hv
    cases hv
  | answered _ hn =>
    cases hr
    exact .inr ⟨_, rfl, hn known hk⟩
  | @changed id _ _ m _ hv =>
    cases hr
    cases hk
    obtain ⟨t, ht, hord, -, hkn⟩ := ha.own id rfl
    refine .inr ⟨m, rfl, .inl fun he => ?_⟩
    exact absurd ((hkn.advance ht hord hv).1 m rfl).1 (he ▸ Nat.lt_irrefl _)
  | @ended id _ _ _ hv =>
    obtain ⟨t, ht, hord, hn, hkn⟩ := ha.own id rfl
    cases hn.symm.trans ((hkn.advance ht hord hv).2.2 rfl)
  | late =>
    cases hr
    exact .inl rfl
  | watching | settled | waiting => cases hr

/-- A desktop whose watch succeeded follows its sign-in to the end. -/
theorem Follow.answer_step {c : Follow} (ha : Attentive s heard (.follow c)) (hw : c.admitted s)
    {a : Except Error (Message × List Message)} (hr : (c.step s).1 = .done a) :
    ∃ current changes, a = .ok (current, changes) ∧ Forward (current :: changes) ∧
      (Follow.known current changes).isTerminal = true := by
  have hst := c.stepped s
  generalize c.step s = x at hst hr
  cases hst with
  | failed hf =>
    obtain ⟨v, hv⟩ := hw
    rw [hf] at hv
    cases hv
  | @answered _ v _ _ hl =>
    cases hr
    exact ⟨v.current, [], rfl, List.pairwise_singleton _ _, hl⟩
  | @ended id current changes _ hv =>
    cases hr
    obtain ⟨t, ht, hord, hf, hkn⟩ := ha.own id rfl
    exact ⟨current, changes, rfl, hf, (hkn.advance ht hord hv).2.2 rfl⟩
  | watching | settled | changed | waiting => cases hr

end Qr

end Handoff
