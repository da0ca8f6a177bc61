import Handoff.Proofs.Hub.Moves
import Handoff.Proofs.Qr.Outcome

namespace Handoff

namespace Qr

def toldTo (h : Handle) : Option (Handle × Message) → List Message
  | some (k, m) => if k = h then [m] else []
  | none => []

def upToTerminal : List Message → List Message
  | [] => []
  | m :: ms => if m.isLast then [m] else m :: upToTerminal ms

theorem upToTerminal_concat (ms : List Message) (m : Message) :
    upToTerminal (ms ++ [m]) = if ms.any Message.isLast then upToTerminal ms else ms ++ [m] := by
  induction ms with
  | nil => simp [upToTerminal]
  | cons k ms ih =>
    by_cases hk : k.isLast = true
    · simp [upToTerminal, hk]
    · rw [List.cons_append, upToTerminal, if_neg hk, ih, List.any_cons, Bool.eq_false_iff.2 hk,
        Bool.false_or, upToTerminal, if_neg hk]
      split <;> rfl

theorem upToTerminal_eq_self {ms : List Message} (h : ms.any Message.isLast = false) :
    upToTerminal ms = ms := by
  induction ms with
  | nil => rfl
  | cons m ms ih =>
    rw [List.any_cons, Bool.or_eq_false_iff] at h
    rw [upToTerminal, ih h.2, if_neg (Bool.eq_false_iff.1 h.1)]

end Qr

namespace Hub

open Qr (toldTo upToTerminal upToTerminal_concat upToTerminal_eq_self Message Distinct)

def heardBy : Option Subscription → Option (Handle × Message) → List Message
  | some s, some (h, m) => if hears h s then [m] else []
  | _, _ => []

@[simp] theorem heardBy_none (o : Option Subscription) : heardBy o none = [] := by
  cases o <;> rfl

@[simp] theorem heardBy_absent (told : Option (Handle × Message)) : heardBy none told = [] := rfl

theorem heardBy_open {s : Subscription} (ho : s.isOpen = true) (m : Message) :
    heardBy (some s) (some (s.handle, m)) = [m] := if_pos (decide_eq_true ⟨ho, rfl⟩)

inductive Touch (fresh id : Nat) : Option Subscription → Option Nat → Option (Handle × Message) →
    Option Nat → Option Subscription → Prop
  | kept {o : Option Subscription} {own own' : Option Nat} {told : Option (Handle × Message)} :
    heardBy o told = [] → (own' = some id → own = some id) → Touch fresh id o own told own' o
  | born (h : Handle) : fresh ≤ id →
    Touch fresh id none none none (some id) (some ⟨id, h, [], true⟩)
  | heard {s : Subscription} (m : Message) : s.isOpen = true →
    Touch fresh id (some s) none (some (s.handle, m)) none (some (deliver m s))
  | read {s : Subscription} {unread : List Message} : unread <:+ s.unread →
    Touch fresh id (some s) (some id) none (some id) (some { s with unread })
  | dropped {o : Option Subscription} : Touch fresh id o (some id) none none none

variable {hub hub' : Hub} {own own' : Option Nat} {told : Option (Handle × Message)}

theorem Move.touch (hs : hub.Sound) (hm : Move hub own told own' hub') (id : Nat) :
    Touch hub.nextId id (hub.view id) own told own' (hub'.view id) ∧
      (hub'.view id = none ∨ id < hub'.nextId) ∧ hub.nextId ≤ hub'.nextId := by
  have hg : hub.view id = none ∨ id < hub.nextId := by
    cases hv : hub.view id with
    | none => exact .inl rfl
    | some s => exact .inr (hs.given id s hv)
  cases hm with
  | rest hv hn =>
    rw [hv, hn.nextId]
    exact ⟨.kept (heardBy_none _) fun h => h, hg, Nat.le_refl _⟩
  | attach h hv hn =>
    rw [hv, hn]
    by_cases hid : id = hub.nextId
    · subst hid
      rw [Function.update_self, hg.resolve_right (Nat.lt_irrefl _)]
      exact ⟨.born h (Nat.le_refl _), .inr (Nat.lt_succ_self _), Nat.le_succ _⟩
    · rw [Function.update_of_ne hid]
      refine ⟨.kept (heardBy_none _) ?_, hg.imp_right Nat.lt_succ_of_lt, Nat.le_succ _⟩
      intro he
      exact absurd (Option.some.inj he).symm hid
  | publish h m hv hn =>
    rw [hv, hn]
    refine ⟨?_, hg.imp_left fun hn => by rw [hn]; rfl, Nat.le_refl _⟩
    cases hub.view id with
    | none => exact .kept rfl fun h => h
    | some s =>
      rw [Option.map_some, Hub.heard]
      split
      · next hh =>
        obtain ⟨ho, rfl⟩ := of_decide_eq_true hh
        exact .heard m ho
      · next hh => exact .kept (by rw [heardBy, if_neg hh]) fun h => h
  | @read _ k s unread hk hr hv hn =>
    rw [hv, hn.nextId]
    by_cases hid : id = k
    · subst hid
      rw [Function.update_self, hk]
      exact ⟨.read hr, .inr (hs.given _ _ hk), Nat.le_refl _⟩
    · rw [Function.update_of_ne hid]
      exact ⟨.kept (heardBy_none _) fun h => h, hg, Nat.le_refl _⟩
  | @drop _ k hv hn =>
    rw [hv, hn.nextId]
    by_cases hid : id = k
    · subst hid
      rw [Function.update_self]
      exact ⟨.dropped, .inl rfl, Nat.le_refl _⟩
    · rw [Function.update_of_ne hid]
      exact ⟨.kept (heardBy_none _) (by rintro ⟨⟩), hg, Nat.le_refl _⟩

theorem Move.sound (hs : hub.Sound) (hm : Move hub own told own' hub') : hub'.Sound where
  given id s hv := by
    obtain ⟨-, hg, -⟩ := hm.touch hs id
    exact hg.resolve_left (by rw [hv]; rintro ⟨⟩)
  topic id s hv ho := by
    have hl {s : Subscription} (hl : Lasting hub hub') (hv : hub.view id = some s)
        (ho : s.isOpen = true) : s.handle ∈ hub'.topics := by
      refine (hl.topics _ (hs.topic id s hv ho)).resolve_right fun hn => ?_
      exact Bool.eq_false_iff.1 (hn id s hv) (decide_eq_true ⟨ho, rfl⟩)
    cases hm with
    | rest hv' hn => exact hl hn (hv' ▸ hv) ho
    | attach h hv' _ hh ht =>
      rw [hv'] at hv
      by_cases hid : id = hub.nextId
      · subst hid
        cases (Function.update_self ..).symm.trans hv
        exact hh
      · rw [Function.update_of_ne hid] at hv
        exact ht (hs.topic id s hv ho)
    | publish h m hv' _ ht =>
      rw [hv'] at hv
      obtain ⟨t, hk, rfl⟩ := Option.map_eq_some_iff.1 hv
      unfold Hub.heard at ho ⊢
      split at ho
      · next hh =>
        obtain ⟨hto, rfl⟩ := of_decide_eq_true hh
        rw [if_pos hh]
        refine (ht _ (hs.topic id t hk hto)).resolve_left fun hm => ?_
        simp [deliver, hm.2] at ho
      · next hh =>
        rw [if_neg hh]
        refine (ht _ (hs.topic id t hk ho)).resolve_left fun hm => ?_
        exact hh (decide_eq_true ⟨ho, hm.1⟩)
    | @read _ k t unread hk _ hv' hn =>
      rw [hv'] at hv
      by_cases hid : id = k
      · subst hid
        cases (Function.update_self ..).symm.trans hv
        exact hl (s := t) hn hk ho
      · rw [Function.update_of_ne hid] at hv
        exact hl hn hv ho
    | @drop _ k hv' hn =>
      rw [hv'] at hv
      by_cases hid : id = k
      · subst hid
        cases (Function.update_self ..).symm.trans hv
      · rw [Function.update_of_ne hid] at hv
        exact hl hn hv ho

structure Owned (hub : Hub) (owns : Nat → Option Nat) : Prop where
  sound : hub.Sound
  alive : ∀ i id, owns i = some id → ∃ s, hub.view id = some s
  apart : ∀ i j id, owns i = some id → owns j = some id → i = j

variable {owns : Nat → Option Nat} {i id : Nat}

theorem Touch.alive {fresh : Nat} {o o' : Option Subscription} (ht : Touch fresh id o own told own' o')
    (ho : own = some id → ∃ s, o = some s) (h : own' = some id) :
    (∃ s, o' = some s) ∧ (own = some id ∨ o = none) := by
  cases ht with
  | kept _ hk => exact ⟨ho (hk h), .inl (hk h)⟩
  | born => exact ⟨⟨_, rfl⟩, .inr rfl⟩
  | heard | dropped => cases h
  | read => exact ⟨⟨_, rfl⟩, .inl rfl⟩

theorem Touch.of_ne {fresh : Nat} {o o' : Option Subscription} (ht : Touch fresh id o own told own' o')
    (ho : own ≠ some id) {s : Subscription} (hs : o = some s) :
    o' = some s ∧ heardBy o told = [] ∨
      ∃ m, s.isOpen = true ∧ told = some (s.handle, m) ∧ o' = some (deliver m s) := by
  cases ht with
  | kept hn => exact .inl ⟨hs, hn⟩
  | born => cases hs
  | heard m hh =>
    cases hs
    exact .inr ⟨m, hh, rfl, rfl⟩
  | read | dropped => exact absurd rfl ho

theorem Owned.move (ho : Owned hub owns) (hm : Move hub (owns i) told own' hub') :
    Owned hub' (Function.update owns i own') where
  sound := hm.sound ho.sound
  alive j id hj := by
    obtain ⟨ht, -, -⟩ := hm.touch ho.sound id
    by_cases hji : j = i
    · subst hji
      rw [Function.update_self] at hj
      exact (ht.alive (ho.alive j id) hj).1
    · rw [Function.update_of_ne hji] at hj
      obtain ⟨s, hs⟩ := ho.alive j id hj
      have hne : owns i ≠ some id := fun hi => hji (ho.apart j i id hj hi)
      obtain ⟨h, -⟩ | ⟨m, -, -, h⟩ := ht.of_ne hne hs
      · exact ⟨_, h⟩
      · exact ⟨_, h⟩
  apart j k id hj hk := by
    obtain ⟨ht, -, -⟩ := hm.touch ho.sound id
    have hi {j : Nat} (hji : j ≠ i) (hj : owns j = some id) (h : own' = some id) : False := by
      obtain ⟨-, h | h⟩ := ht.alive (ho.alive i id) h
      · exact hji (ho.apart j i id hj h)
      · obtain ⟨s, hs⟩ := ho.alive j id hj
        cases hs.symm.trans h
    by_cases hji : j = i
    · by_cases hki : k = i
      · rw [hji, hki]
      · subst hji
        rw [Function.update_self] at hj
        rw [Function.update_of_ne hki] at hk
        exact (hi hki hk hj).elim
    · rw [Function.update_of_ne hji] at hj
      by_cases hki : k = i
      · subst hki
        rw [Function.update_self] at hk
        exact (hi hji hj hk).elim
      · rw [Function.update_of_ne hki] at hk
        exact ho.apart j k id hj hk

structure Hears (published stream : List Message) (s : Subscription) : Prop where
  sublist : stream.Sublist published
  unread : s.unread <:+ stream
  isOpen : s.isOpen = !stream.any Message.isLast
  order : stream.Pairwise fun a _ => a.isLast = false

structure Ear (hub : Hub) (id : Nat) (published : Handle → List Message) (stream : List Message) :
    Prop where
  unborn : hub.nextId ≤ id → stream = []
  alive : ∀ s, hub.view id = some s → Hears (published s.handle) stream s

/-- Nothing unread is thrown away, since so little is published. -/
theorem Hears.deliver {published stream : List Message} {s : Subscription}
    (hs : Hears published stream s) (ho : s.isOpen = true) {m : Message}
    (hd : Distinct (published ++ [m])) :
    Hears (published ++ [m]) (stream ++ [m]) (deliver m s) ∧
      (Hub.deliver m s).unread = s.unread ++ [m] := by
  have hsub : (stream ++ [m]).Sublist (published ++ [m]) :=
    (List.append_sublist_append_right [m]).2 hs.sublist
  have hu : (s.unread ++ [m]) <:+ (stream ++ [m]) := by
    obtain ⟨taken, ht⟩ := hs.unread
    exact ⟨taken, by rw [← ht, List.append_assoc]⟩
  have hk : (Hub.deliver m s).unread = s.unread ++ [m] := by
    have hl := (hd.sublist (hu.sublist.trans hsub)).length_le
    rw [Hub.deliver, keepLast, Nat.sub_eq_zero_of_le (Nat.le_trans hl (by decide)), List.drop_zero]
  have hn : (!stream.any Message.isLast) = true := hs.isOpen ▸ ho
  refine ⟨⟨hsub, hk ▸ hu, ?_, ?_⟩, hk⟩
  · rw [List.any_append, Bool.not_or, hn, Bool.true_and, List.any_cons, List.any_nil,
      Bool.or_false]
    rfl
  · refine List.pairwise_append.2 ⟨hs.order, List.pairwise_singleton _ _, fun a ha _ _ => ?_⟩
    simp only [Bool.not_eq_true', List.any_eq_false] at hn
    simpa using hn a ha

theorem Move.ear {published published' : Handle → List Message} {stream : List Message}
    (hs : hub.Sound) (he : Ear hub id published stream) (hm : Move hub own told own' hub')
    (hp : ∀ h, published' h = published h ++ toldTo h told) (hd : ∀ h, Distinct (published' h)) :
    Ear hub' id published' (stream ++ heardBy (hub.view id) told) := by
  obtain ⟨ht, -, hn⟩ := hm.touch hs id
  refine ⟨fun hid => ?_, fun s' hv' => ?_⟩
  · have hv : hub.view id = none := by
      by_contra hv
      obtain ⟨s, hv⟩ := Option.ne_none_iff_exists'.1 hv
      exact absurd (hs.given id s hv) (Nat.not_lt.2 (Nat.le_trans hn hid))
    rw [hv, heardBy_absent, he.unborn (Nat.le_trans hn hid), List.append_nil]
  · have ha := he.alive
    have hu := he.unborn
    generalize hub.view id = o, hub'.view id = o' at ht ha hu hv'
    cases ht with
    | kept hh =>
      obtain ⟨hsub, hun, ho, hord⟩ := ha s' hv'
      rw [hh, List.append_nil]
      refine ⟨?_, hun, ho, hord⟩
      rw [hp]
      exact hsub.trans (List.sublist_append_left _ _)
    | born h hf =>
      cases hv'
      rw [hu hf]
      exact ⟨List.nil_sublist _, List.suffix_rfl, rfl, .nil⟩
    | @heard s m ho =>
      cases hv'
      have hpm : published' s.handle = published s.handle ++ [m] := by
        rw [hp, toldTo, if_pos rfl]
      rw [heardBy_open ho]
      exact hpm ▸ ((ha s rfl).deliver ho (hpm ▸ hd s.handle)).1
    | @read s unread hr =>
      cases hv'
      obtain ⟨hsub, hun, ho, hord⟩ := ha s rfl
      rw [heardBy_none, List.append_nil]
      refine ⟨?_, hr.trans hun, ho, hord⟩
      rw [hp]
      exact hsub.trans (List.sublist_append_left _ _)
    | dropped => cases hv'

/-- A subscription that has heard, since some moment, all that was published since then. -/
structure Tuned (h : Handle) (published stream : List Message) (s : Subscription) : Prop where
  handle : s.handle = h
  stream_eq : stream = upToTerminal published
  isOpen : s.isOpen = !published.any Message.isLast

theorem Move.tuned {h : Handle} {published stream : List Message} (hs : hub.Sound)
    (hid : id < hub.nextId) (ha : ∀ s, hub.view id = some s → Tuned h published stream s)
    (hm : Move hub own told own' hub') : ∀ s, hub'.view id = some s →
      Tuned h (published ++ toldTo h told) (stream ++ heardBy (hub.view id) told) s := by
  intro s' hv'
  obtain ⟨ht, -, -⟩ := hm.touch hs id
  generalize hub.view id = o, hub'.view id = o' at ht ha hv'
  cases ht with
  | @kept _ _ _ told hh =>
    obtain ⟨rfl, hst, ho⟩ := ha s' hv'
    subst hv'
    rw [hh, List.append_nil]
    cases told with
    | none => exact ⟨rfl, by rw [toldTo, List.append_nil, hst], by rw [toldTo, List.append_nil, ho]⟩
    | some t =>
      obtain ⟨k, m⟩ := t
      rw [toldTo]
      split
      · next hk =>
        subst hk
        have hc : published.any Message.isLast = true := by
          cases hl : published.any Message.isLast with
          | true => rfl
          | false =>
            have hop : s'.isOpen = true := by
              rw [ho, hl]
              rfl
            cases (heardBy_open hop m).symm.trans hh
        refine ⟨rfl, ?_, ?_⟩
        · rw [upToTerminal_concat, if_pos hc, hst]
        · rw [ho, List.any_append, hc, Bool.true_or]
      · exact ⟨rfl, by rw [List.append_nil, hst], by rw [List.append_nil, ho]⟩
  | born k hf => exact absurd hid (Nat.not_lt.2 hf)
  | @heard s m ho =>
    cases hv'
    obtain ⟨rfl, hst, hop⟩ := ha s rfl
    have hn : published.any Message.isLast = false := by
      rw [ho] at hop
      simpa using hop.symm
    rw [heardBy_open ho, toldTo, if_pos rfl]
    refine ⟨rfl, ?_, ?_⟩
    · rw [upToTerminal_concat, hn, hst, upToTerminal_eq_self hn]
      rfl
    · rw [List.any_append, hn, Bool.false_or, List.any_cons, List.any_nil, Bool.or_false]
      rfl
  | @read s unread hr =>
    cases hv'
    obtain ⟨hh, hst, ho⟩ := ha s rfl
    rw [toldTo, heardBy_none, List.append_nil, List.append_nil]
    exact ⟨hh, hst, ho⟩
  | dropped => cases hv'

def Deaf (hub : Hub) (id : Nat) : Prop :=
  id < hub.nextId ∧ ∀ s, hub.view id = some s → s.isOpen = false

theorem Move.deaf (hs : hub.Sound) (hd : hub.Deaf id) (hm : Move hub own told own' hub') :
    hub'.Deaf id ∧ heardBy (hub.view id) told = [] := by
  obtain ⟨ht, -, hn⟩ := hm.touch hs id
  obtain ⟨hid, ho⟩ := hd
  have hid' := Nat.lt_of_lt_of_le hid hn
  rw [Deaf]
  generalize hub.view id = o, hub'.view id = o' at ht ho
  cases ht with
  | kept hh => exact ⟨⟨hid', ho⟩, hh⟩
  | born k hf => exact absurd hid (Nat.not_lt.2 hf)
  | heard m hop => cases hop.symm.trans (ho _ rfl)
  | @read s unread hr =>
    refine ⟨⟨hid', ?_⟩, heardBy_none _⟩
    rintro t ⟨⟩
    exact ho s rfl
  | dropped =>
    refine ⟨⟨hid', ?_⟩, heardBy_none _⟩
    rintro s ⟨⟩

end Hub

end Handoff
