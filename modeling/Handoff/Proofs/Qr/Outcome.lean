import Handoff.Proofs.Qr.Lifecycle
import Mathlib.Data.Fintype.Card
import Mathlib.Data.List.Nodup

namespace Handoff.Qr

def Message.isLast (m : Message) : Bool := m.status.isTerminal

def Deed.told? : Deed → Option Message
  | .told m => some m
  | _ => none

def Deed.isMinted : Deed → Bool
  | minted _ => true
  | _ => false

def tellings (as : List Act) : List Message := as.filterMap (·.deed.told?)

def Did (as : List Act) (i : Nat) (d : Deed) : Prop := ∃ a ∈ as, a.id = i ∧ a.deed = d

theorem mem_trace {p : Deed → Bool} {as : List Act} {i : Nat} {d : Deed} (hd : p d = true) :
    (i, d) ∈ trace p as ↔ Did as i d := by
  simp only [trace, List.mem_map, List.mem_filter, Prod.mk.injEq, Did]
  constructor
  · rintro ⟨a, ⟨ha, -⟩, hi, rfl⟩
    exact ⟨a, ha, hi, rfl⟩
  · rintro ⟨a, ha, hi, rfl⟩
    exact ⟨a, ⟨ha, hd⟩, hi, rfl⟩

theorem filter_tellings {p : Deed → Bool} {q : Message → Bool}
    (hpq : ∀ m, p (.told m) = q m) (as : List Act) :
    (tellings as).filter q = (trace p as).filterMap (·.2.told?) := by
  induction as with
  | nil => rfl
  | cons a as ih =>
    obtain ⟨i, t, d⟩ := a
    have hc : trace p (⟨i, t, d⟩ :: as) = (if p d then [(i, d)] else []) ++ trace p as := by
      simp only [trace, List.filter_cons]
      split <;> rfl
    have ht : tellings (⟨i, t, d⟩ :: as) = d.told?.toList ++ tellings as := by
      cases h : d.told? <;> simp [tellings, h]
    rw [hc, ht, List.filter_append, List.filterMap_append, ih]
    congr 1
    cases d with
    | told m =>
      rw [hpq]
      cases hq : q m <;> simp [Deed.told?, hq]
    | _ => split <;> rfl

/-- Messages of which no two end the topic and no two do not. -/
def Distinct (ms : List Message) : Prop := (ms.map Message.isLast).Nodup

theorem Distinct.sublist {ms ms' : List Message} (h : ms.Sublist ms') (hd : Distinct ms') :
    Distinct ms :=
  List.Nodup.sublist (h.map _) hd

theorem Distinct.length_le {ms : List Message} (hd : Distinct ms) : ms.length ≤ 2 := by
  simpa using List.Nodup.length_le_card hd

def endings (as : List Act) : List Message := (tellings as).filter Message.isLast

theorem endings_eq (as : List Act) :
    endings as = (trace Deed.isClosing as).filterMap (·.2.told?) :=
  filter_tellings (p := Deed.isClosing) (fun _ => rfl) as

theorem filter_not_isLast (as : List Act) :
    (tellings as).filter (!·.isLast) = (trace Deed.isScan as).filterMap (·.2.told?) :=
  filter_tellings (p := Deed.isScan) (fun _ => rfl) as

structure Outcome (as : List Act) : Prop where
  once : (endings as).length ≤ 1
  confirmed_iff : ∀ m ∈ endings as, ∀ session, m = .confirmed session ↔
    ∃ i, Did as i .taken ∧ Did as i (.minted session)
  minted_alone : ∀ i session, Did as i (.minted session) →
    as.countP (·.deed.isMinted) = 1 ∧ (∀ j, ¬ Did as j .deleted) ∧
      .ofStatus .cancelled ∉ endings as
  cancelled : ∀ m ∈ endings as, (∀ session, m ≠ .confirmed session) →
    m = .ofStatus .cancelled ∧ ∀ a ∈ as, a.deed.isMinted = false

theorem Outcome.of_unminted {as : List Act} (hn : ∀ a ∈ as, a.deed.isMinted = false)
    (he : endings as = [] ∨ endings as = [.ofStatus .cancelled]) : Outcome as := by
  have hm (i : Nat) (session : String) : ¬ Did as i (.minted session) := by
    rintro ⟨a, ha, -, hd⟩
    cases (hd ▸ hn a ha : (Deed.minted session).isMinted = false)
  have hc (m : Message) (hm : m ∈ endings as) : m = .ofStatus .cancelled := by
    obtain he | he := he <;> rw [he] at hm
    · cases hm
    · exact List.mem_singleton.1 hm
  refine ⟨?_, ?_, ?_, ?_⟩
  · obtain he | he := he <;> simp [he]
  · intro m hm' session
    rw [hc m hm']
    refine ⟨fun h => ?_, fun ⟨i, _, hd⟩ => absurd hd (hm i session)⟩
    cases congrArg Message.status h
  · intro i session hd
    exact absurd hd (hm i session)
  · intro m hm' _
    exact ⟨hc m hm', hn⟩

theorem Outcome.of_minted {as : List Act} {i : Nat} {session : String}
    (hone : as.countP (·.deed.isMinted) = 1) (ht : Did as i .taken)
    (hall : ∀ j t, Did as j (.minted t) ↔ j = i ∧ t = session) (hd : ∀ j, ¬ Did as j .deleted)
    (he : endings as = [] ∨ endings as = [.confirmed session]) : Outcome as := by
  have hc (m : Message) (hm : m ∈ endings as) : m = .confirmed session := by
    obtain he | he := he <;> rw [he] at hm
    · cases hm
    · exact List.mem_singleton.1 hm
  refine ⟨?_, ?_, ?_, ?_⟩
  · obtain he | he := he <;> simp [he]
  · intro m hm t
    rw [hc m hm]
    constructor
    · intro h
      cases congrArg Message.sessionToken h
      exact ⟨i, ht, (hall i session).2 ⟨rfl, rfl⟩⟩
    · rintro ⟨j, -, hj⟩
      rw [((hall j t).1 hj).2]
  · intro j t hj
    refine ⟨hone, hd, fun hm => ?_⟩
    cases congrArg Message.status (hc _ hm)
  · intro m hm hne
    exact absurd (hc m hm) (hne session)

theorem Closing.cases_minted {tr : List (Nat × Deed)} {f : Nat → Option Debt}
    (h : Closing tr f) :
    (∃ i session, tr.countP (·.2.isMinted) = 1 ∧ (i, .taken) ∈ tr ∧
      (∀ j t, (j, .minted t) ∈ tr ↔ j = i ∧ t = session) ∧ (∀ j, (j, .deleted) ∉ tr) ∧
      (tr.filterMap (·.2.told?) = [] ∨ tr.filterMap (·.2.told?) = [.confirmed session])) ∨
    (∀ x ∈ tr, x.2.isMinted = false) ∧
      (tr.filterMap (·.2.told?) = [] ∨ tr.filterMap (·.2.told?) = [.ofStatus .cancelled]) := by
  cases h with
  | idle => right; simp
  | minting i => right; simp [Deed.isMinted, Deed.told?]
  | @owed i _ _ he =>
    cases he with
    | confirmed session => exact .inl ⟨i, session, by simp [Deed.isMinted, Deed.told?]⟩
    | failed => right; simp [Deed.isMinted, Deed.told?]
    | cancelled => right; simp [Deed.isMinted, Deed.told?]
  | @told i _ _ he =>
    cases he with
    | confirmed session => exact .inl ⟨i, session, by simp [Deed.isMinted, Deed.told?]⟩
    | failed => right; simp [Deed.isMinted, Deed.told?]
    | cancelled => right; simp [Deed.isMinted, Deed.told?]

theorem Deed.isClosing_of_isMinted {d : Deed} (h : d.isMinted = true) : d.isClosing = true := by
  cases d <;> first | rfl | cases h

theorem Closing.outcome {as : List Act} {f : Nat → Option Debt}
    (h : Closing (trace Deed.isClosing as) f) : Outcome as := by
  have he := endings_eq as
  have hcl (d : Deed) (hd : d.isMinted = true) : d.isClosing = true := Deed.isClosing_of_isMinted hd
  obtain ⟨i, session, hone, ht, hall, hd, htold⟩ | ⟨hn, htold⟩ := h.cases_minted
  · rw [countP_trace (q := Deed.isMinted) hcl] at hone
    rw [mem_trace rfl] at ht
    rw [← he] at htold
    refine .of_minted hone ht (fun j t => ?_) (fun j hj => ?_) htold
    · rw [← hall j t, mem_trace rfl]
    · exact hd j ((mem_trace rfl).2 hj)
  · rw [← he] at htold
    refine .of_unminted (fun a ha => ?_) htold
    cases hm : a.deed.isMinted with
    | false => rfl
    | true =>
      have hx := hn (a.id, a.deed) ((mem_trace (hcl _ hm)).2 ⟨a, ha, rfl, rfl⟩)
      cases hx.symm.trans hm

/-- A scan is told once at most, and so is the end. -/
theorem Life.Sound.distinct {ttl : Nat} {l : Life} (hl : l.Sound ttl) :
    Distinct (tellings l.acts) ∧
      ∀ m ∈ tellings l.acts, m = .ofStatus .scanned ∨ m.isLast = true := by
  have hsc : (tellings l.acts).filter (!·.isLast) = [] ∨
      (tellings l.acts).filter (!·.isLast) = [.ofStatus .scanned] := by
    rw [filter_not_isLast]
    have h := hl.scanning
    generalize trace Deed.isScan l.acts = tr, owing Debt.isScan l.owed = f at h
    cases h <;> simp [Deed.told?]
  constructor
  · refine List.nodup_iff_count_le_one.2 fun b => ?_
    rw [List.count_eq_countP, List.countP_map]
    cases b with
    | true =>
      have ho := hl.closing.outcome.once
      rw [endings, ← List.countP_eq_length_filter] at ho
      refine Nat.le_trans (Nat.le_of_eq ?_) ho
      congr 1
      funext m
      cases h : m.isLast <;> simp [h]
    | false =>
      have ho : ((tellings l.acts).filter (!·.isLast)).length ≤ 1 := by
        obtain hsc | hsc := hsc <;> simp [hsc]
      rw [← List.countP_eq_length_filter] at ho
      refine Nat.le_trans (Nat.le_of_eq ?_) ho
      congr 1
      funext m
      cases h : m.isLast <;> simp [h]
  · intro m hm
    cases h : m.isLast with
    | true => exact .inr rfl
    | false =>
      have hm' : m ∈ (tellings l.acts).filter (!·.isLast) := List.mem_filter.2 ⟨hm, by simp [h]⟩
      obtain hsc | hsc := hsc <;> rw [hsc] at hm'
      · cases hm'
      · exact .inl (List.mem_singleton.1 hm')

end Handoff.Qr
