import Handoff.Proofs.Qr.Life

namespace Handoff.Qr

open View

/-- Each act of a sort comes after one that answers to it. -/
def Preceded (p : Act → Prop) (q : Act → Act → Prop) (as : List Act) : Prop :=
  ∀ l a r, as = l ++ a :: r → p a → ∃ b ∈ l, q a b

theorem Preceded.nil {p : Act → Prop} {q : Act → Act → Prop} : Preceded p q [] := by
  intro l a r h
  simp at h

theorem split_concat {α : Type} {as l r : List α} {a b : α} (h : as ++ [b] = l ++ a :: r) :
    (as = l ∧ b = a ∧ r = []) ∨ ∃ r', as = l ++ a :: r' ∧ r = r' ++ [b] := by
  rcases List.eq_nil_or_concat r with rfl | ⟨r', c, rfl⟩
  · obtain ⟨hl, hb⟩ := List.append_inj' h rfl
    cases hb
    exact .inl ⟨hl, rfl, rfl⟩
  · rw [List.concat_eq_append, ← List.cons_append, ← List.append_assoc] at h
    obtain ⟨hl, hb⟩ := List.append_inj' h rfl
    cases hb
    exact .inr ⟨r', hl, List.concat_eq_append⟩

theorem Preceded.concat {p : Act → Prop} {q : Act → Act → Prop} {as : List Act}
    (h : Preceded p q as) {a : Act} (ha : p a → ∃ b ∈ as, q a b) : Preceded p q (as ++ [a]) := by
  intro l c r hs hc
  obtain ⟨rfl, rfl, -⟩ | ⟨r', hs', -⟩ := split_concat hs
  · exact ha hc
  · exact h l c r' hs' hc

/-- The order of the deeds on one sign-in that stays for `ttl` milliseconds. -/
structure Lifecycle (ttl : Nat) (as : List Act) : Prop where
  scanned_once : as.countP (·.deed = .scanned) ≤ 1
  taken_once : as.countP (·.deed = .taken) ≤ 1
  taken_after_scan : Preceded (·.deed = .taken) (fun _ b => b.deed = .scanned) as
  final : as.Pairwise fun a b => a.deed.removes = true → b.deed.needsEntry = false
  in_time : Preceded (·.deed.needsEntry = true)
    (fun a b => b.deed = .issued ∧ a.time ≤ Text.addTime b.time ttl) as

theorem countP_trace {p q : Deed → Bool} (hq : ∀ d, q d = true → p d = true) (as : List Act) :
    (trace p as).countP (q ·.2) = as.countP (q ·.deed) := by
  rw [trace, List.countP_map, List.countP_filter]
  congr 1
  funext a
  cases ha : q a.deed with
  | false => simp [ha]
  | true => simp [ha, hq _ ha]

theorem Scanning.count_le {tr : List (Nat × Deed)} {f : Nat → Option Debt} (h : Scanning tr f) :
    tr.countP (·.2 = .scanned) ≤ 1 := by
  cases h <;> simp

theorem Ended.count_le {i : Nat} {m : Message} {tr : List (Nat × Deed)} (h : Ended i m tr) :
    tr.countP (·.2 = .taken) ≤ 1 := by
  cases h <;> simp

theorem Closing.count_le {tr : List (Nat × Deed)} {f : Nat → Option Debt} (h : Closing tr f) :
    tr.countP (·.2 = .taken) ≤ 1 := by
  cases h with
  | idle => simp
  | minting => simp
  | owed he => exact he.count_le
  | told he => simpa using he.count_le

theorem mem_of_trace_ne_nil {as : List Act} {f : Nat → Option Debt}
    (h : Scanning (trace Deed.isScan as) f) (hn : trace Deed.isScan as ≠ []) :
    ∃ a ∈ as, a.deed = .scanned := by
  have hm : ∃ i, (i, Deed.scanned) ∈ trace Deed.isScan as := by
    generalize trace Deed.isScan as = tr at h hn
    cases h with
    | idle => exact absurd rfl hn
    | owed i => exact ⟨i, List.mem_cons_self⟩
    | told i => exact ⟨i, List.mem_cons_self⟩
  obtain ⟨i, hi⟩ := hm
  obtain ⟨a, ha, he⟩ := List.mem_map.1 hi
  exact ⟨a, (List.mem_filter.1 ha).1, congrArg Prod.snd he⟩

theorem Deed.isClosing_of_removes {d : Deed} (h : d.removes = true) : d.isClosing = true := by
  cases d <;> first | rfl | cases h

theorem not_removes_of_trace {as : List Act} (h : trace Deed.isClosing as = []) :
    ∀ a ∈ as, a.deed.removes = false := by
  intro a ha
  rw [Bool.eq_false_iff]
  intro hr
  have hm : a ∈ as.filter (·.deed.isClosing) :=
    List.mem_filter.2 ⟨ha, Deed.isClosing_of_removes hr⟩
  rw [List.map_eq_nil_iff.1 h] at hm
  cases hm

namespace Life

/-- The entry shows what was done: it is pending until the scan, and there until the end. -/
structure Shows (ttl : Nat) (as : List Act) (e : Entry Session) : Prop where
  stage : e.payload.status = .pending ∧ trace Deed.isScan as = [] ∨
    e.payload.status = .scanned ∧ trace Deed.isScan as ≠ []
  unclosed : trace Deed.isClosing as = []
  issued : ∃ a ∈ as, a.deed = .issued ∧ e.expireAt ≤ Text.addTime a.time ttl

theorem Shows.of_pending {ttl : Nat} {as : List Act} {e : Entry Session} (h : Shows ttl as e)
    (he : e.payload.status = .pending) : trace Deed.isScan as = [] := by
  cases h.stage with
  | inl hs => exact hs.2
  | inr hs => cases he.symm.trans hs.1

theorem Shows.of_scanned {ttl : Nat} {as : List Act} {e : Entry Session} (h : Shows ttl as e)
    (he : e.payload.status = .scanned) : trace Deed.isScan as ≠ [] := by
  cases h.stage with
  | inl hs => cases he.symm.trans hs.1
  | inr hs => exact hs.2

structure Sound (ttl : Nat) (l : Life) : Prop where
  undrawn : l.drawn = false → l.held = none ∧ l.owed = nobody ∧ l.acts = []
  shows : ∀ e ∈ l.held, Shows ttl l.acts e
  scanning : Scanning (trace Deed.isScan l.acts) (owing Debt.isScan l.owed)
  closing : Closing (trace Deed.isClosing l.acts) (owing Debt.isClosing l.owed)
  lifecycle : Lifecycle ttl l.acts

def unborn : Life := ⟨none, nobody, [], false⟩

theorem sound_unborn (ttl : Nat) : unborn.Sound ttl where
  undrawn _ := ⟨rfl, rfl, rfl⟩
  shows e he := by cases he
  scanning := .idle
  closing := .idle
  lifecycle := {
    scanned_once := Nat.zero_le 1
    taken_once := Nat.zero_le 1
    taken_after_scan := .nil
    final := .nil
    in_time := .nil }

theorem Sound.not_closing_of_held {ttl : Nat} {l : Life} (hl : l.Sound ttl) {e : Entry Session}
    (he : e ∈ l.held) (id : Nat) : (l.owed id).filter Debt.isClosing = none := by
  have hc := hl.closing
  rw [(hl.shows e he).unclosed] at hc
  exact congrFun hc.of_nil id

section Moves

variable {ttl now id : Nat} {l : Life} {d : Deed} {o : Option (Entry Session)}
  {debt : Option Debt} (hl : l.Sound ttl) (hm : Move ttl now l.held (l.owed id) d o debt)
include hl hm

theorem Sound.scanning_move : Scanning (trace Deed.isScan (l.acts ++ [⟨id, now, d⟩]))
    (owing Debt.isScan (Function.update l.owed id debt)) := by
  have hs := hl.scanning
  have hc := hl.closing
  have hp := fun e he => (hl.shows e he).of_pending
  have ho : owing Debt.isScan l.owed id = (l.owed id).filter Debt.isScan := rfl
  have ho' : owing Debt.isClosing l.owed id = (l.owed id).filter Debt.isClosing := rfl
  have hu (h : (l.owed id).filter Debt.isScan = none) (h' : debt.filter Debt.isScan = none) :
      owing Debt.isScan (Function.update l.owed id debt) = owing Debt.isScan l.owed :=
    owing_update_of_none h h'
  have hw := owing_update Debt.isScan l.owed id debt
  generalize l.held = held, l.owed id = owed at hm hp ho ho' hu
  cases hm with
  | scan hx hst =>
    rw [hp _ rfl hst] at hs
    rw [hw, trace_concat_pos rfl, hp _ rfl hst, hs.of_nil]
    exact .owed id
  | tellScan =>
    obtain ⟨ht, hf, -⟩ := hs.of_owed ho
    rw [hw, trace_concat_pos rfl, ht, hf, update_only, Option.filter_none, update_nobody_none]
    exact .told id
  | tell =>
    have ht := (hc.of_ending ho').1.isTerminal
    rw [hu rfl rfl, trace_concat_neg (by simp [Deed.isScan, ht])]
    exact hs
  | issue | read | take | mint | unmint | delete =>
    rw [hu rfl rfl, trace_concat_neg rfl]
    exact hs

theorem Sound.closing_move : Closing (trace Deed.isClosing (l.acts ++ [⟨id, now, d⟩]))
    (owing Debt.isClosing (Function.update l.owed id debt)) := by
  have hc := hl.closing
  have hn := fun e he => (hl.shows e he).unclosed
  have ho : owing Debt.isClosing l.owed id = (l.owed id).filter Debt.isClosing := rfl
  have hu (h : (l.owed id).filter Debt.isClosing = none)
      (h' : debt.filter Debt.isClosing = none) :
      owing Debt.isClosing (Function.update l.owed id debt) = owing Debt.isClosing l.owed :=
    owing_update_of_none h h'
  have hw := owing_update Debt.isClosing l.owed id debt
  generalize l.held = held, l.owed id = owed at hm hn ho hu
  cases hm with
  | take =>
    rw [hn _ rfl] at hc
    rw [hw, trace_concat_pos rfl, hn _ rfl, hc.of_nil]
    exact .minting id
  | delete =>
    rw [hn _ rfl] at hc
    rw [hw, trace_concat_pos rfl, hn _ rfl, hc.of_nil]
    exact .owed .cancelled
  | mint session =>
    obtain ⟨ht, hf⟩ := hc.of_minting ho
    rw [hw, trace_concat_pos rfl, ht, hf, update_only]
    exact .owed (.confirmed session)
  | unmint =>
    obtain ⟨ht, hf⟩ := hc.of_minting ho
    rw [hw, trace_concat_pos rfl, ht, hf, update_only]
    exact .owed .failed
  | tell =>
    obtain ⟨he, hf⟩ := hc.of_ending ho
    rw [hw, trace_concat_pos he.isTerminal, hf, update_only, Option.filter_none,
      update_nobody_none]
    exact .told he
  | issue | read | scan | tellScan =>
    rw [hu rfl rfl, trace_concat_neg rfl]
    exact hc

omit hl in
theorem needsEntry_move (hd : d.needsEntry = true) :
    ∃ e ∈ l.held, e.isExpired now = false ∧ (d = .taken → e.payload.status = .scanned) := by
  generalize l.held = held, l.owed id = owed at hm
  cases hm with
  | read hx => exact ⟨_, rfl, hx, fun h => by cases h⟩
  | scan hx => exact ⟨_, rfl, hx, fun h => by cases h⟩
  | take hx hs => exact ⟨_, rfl, hx, fun _ => hs⟩
  | issue | tellScan | mint | unmint | delete | tell => cases hd

theorem Sound.lifecycle_move : Lifecycle ttl (l.acts ++ [⟨id, now, d⟩]) where
  scanned_once := by
    have hq (e : Deed) (he : decide (e = .scanned) = true) : e.isScan = true := by
      rw [of_decide_eq_true he]
      rfl
    rw [← countP_trace hq]
    exact (hl.scanning_move hm).count_le
  taken_once := by
    have hq (e : Deed) (he : decide (e = .taken) = true) : e.isClosing = true := by
      rw [of_decide_eq_true he]
      rfl
    rw [← countP_trace hq]
    exact (hl.closing_move hm).count_le
  taken_after_scan := by
    apply hl.lifecycle.taken_after_scan.concat
    intro hd
    obtain ⟨e, he, -, hs⟩ := needsEntry_move hm (by rw [show d = .taken from hd]; rfl)
    exact mem_of_trace_ne_nil hl.scanning ((hl.shows e he).of_scanned (hs hd))
  final := by
    refine List.pairwise_append.2 ⟨hl.lifecycle.final, List.pairwise_singleton _ _, ?_⟩
    intro a ha b hb hr
    rw [List.mem_singleton.1 hb, Bool.eq_false_iff]
    intro hd
    obtain ⟨e, he, -⟩ := needsEntry_move hm hd
    rw [not_removes_of_trace (hl.shows e he).unclosed a ha] at hr
    cases hr
  in_time := by
    apply hl.lifecycle.in_time.concat
    intro hd
    obtain ⟨e, he, hx, -⟩ := needsEntry_move hm hd
    obtain ⟨a, ha, hi, ht⟩ := (hl.shows e he).issued
    refine ⟨a, ha, hi, Nat.le_trans ?_ ht⟩
    simpa [Entry.isExpired] using hx

theorem Sound.shows_move (hd : d = .issued → l.acts = []) :
    ∀ e ∈ o, Shows ttl (l.acts ++ [⟨id, now, d⟩]) e := by
  have hs := hl.shows
  have hsc := hl.scanning
  have hn := fun e he => hl.not_closing_of_held (e := e) he id
  have ho : owing Debt.isScan l.owed id = (l.owed id).filter Debt.isScan := rfl
  have hmem (a : Act) (ha : a ∈ l.acts) : a ∈ l.acts ++ [⟨id, now, d⟩] :=
    List.mem_append_left _ ha
  generalize l.held = held, l.owed id = owed at hm hs hn ho
  cases hm with
  | issue hv hst hx =>
    intro e he
    cases he
    rw [hd rfl]
    exact ⟨.inl ⟨hst, rfl⟩, rfl, _, List.mem_singleton_self _, rfl, hx⟩
  | read hx =>
    intro e he
    cases he
    obtain ⟨hst, hc, a, ha, hi⟩ := hs _ rfl
    refine ⟨?_, ?_, a, hmem a ha, hi⟩
    · rwa [trace_concat_neg rfl]
    · rwa [trace_concat_neg rfl]
  | scan hx hst =>
    intro e he
    cases he
    obtain ⟨-, hc, a, ha, hi⟩ := hs _ rfl
    refine ⟨.inr ⟨rfl, ?_⟩, ?_, a, hmem a ha, hi⟩
    · rw [trace_concat_pos rfl]
      simp
    · rwa [trace_concat_neg rfl]
  | tellScan =>
    intro e he
    obtain ⟨hst, hc, a, ha, hi⟩ := hs e he
    obtain ⟨ht, -, -⟩ := hsc.of_owed ho
    have hst : e.payload.status = .scanned := by
      cases hst with
      | inl hst => cases ht.symm.trans hst.2
      | inr hst => exact hst.1
    refine ⟨.inr ⟨hst, ?_⟩, ?_, a, hmem a ha, hi⟩
    · rw [trace_concat_pos rfl]
      simp
    · rwa [trace_concat_neg rfl]
  | take | delete =>
    intro e he
    cases he
  | mint | unmint | tell =>
    intro e he
    cases hn e he

end Moves

theorem Sound.turn {ttl now : Nat} {l l' : Life} (hl : l.Sound ttl) (ht : Turn ttl now l l') :
    l'.Sound ttl := by
  cases ht with
  | @fade o drawn ho hd =>
    refine ⟨?_, ?_, hl.scanning, hl.closing, hl.lifecycle⟩
    · intro hn
      have hu : l.drawn = false := by
        cases hl : l.drawn with
        | false => rfl
        | true => cases (hd hl).symm.trans hn
      obtain ⟨hh, hw, ha⟩ := hl.undrawn hu
      rw [hh] at ho
      exact ⟨fades_none.1 ho, hw, ha⟩
    · intro e he
      cases ho with
      | inl ho => exact hl.shows e (ho ▸ he)
      | inr ho => cases ho.1.symm.trans he
  | @act id d o debt drawn hm hd hdr =>
    have hi : d = .issued → l.acts = [] := fun hi => (hl.undrawn (hd hi).1).2.2
    refine ⟨?_, hl.shows_move hm hi, hl.scanning_move hm, hl.closing_move hm,
      hl.lifecycle_move hm⟩
    intro hn
    have hu : l.drawn = false := by
      cases hl : l.drawn with
      | false => rfl
      | true => cases (hdr hl).symm.trans hn
    obtain ⟨hh, hw, -⟩ := hl.undrawn hu
    rw [hh, hw] at hm
    cases (hd hm.of_unborn).2.symm.trans hn

end Life

end Handoff.Qr
