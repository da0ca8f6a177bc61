import Handoff.Proofs.Rendezvous.Table

namespace Handoff

namespace Table

variable {α : Type} {κ : Kind} {h : Handle} {t : Table}

def only (p : Row → Bool) (t : Table) : Table := { t with rows := t.rows.filter p }

/-- The operation has to do with the rows that meet `q`, and with no others. -/
structure Local (q : Row → Bool) (f : Table → α × Table) : Prop where
  alone {p : Row → Bool} (t : Table) : (∀ r, q r = true → p r = true) →
    f (t.only p) = Prod.map id (only p) (f t)
  aside {p : Row → Bool} (t : Table) : (∀ r, q r = true → p r = false) →
    (f t).2.only p = t.only p

theorem Local.mono {q q' : Row → Bool} {f : Table → α × Table} (hf : Local q f)
    (hq : ∀ r, q r = true → q' r = true) : Local q' f where
  alone t hp := hf.alone t fun r hr => hp r (hq r hr)
  aside t hp := hf.aside t fun r hr => hp r (hq r hr)

theorem only_removeIf (p c : Row → Bool) (t : Table) :
    (t.only p).removeIf c = (t.removeIf c).only p := by
  unfold only removeIf
  simp only [List.filter_filter, Bool.and_comm]

section Rows

variable {p c : Row → Bool}

theorem only_removeIf_of_disjoint (hc : ∀ r, c r = true → p r = false) :
    (t.removeIf c).only p = t.only p := by
  unfold only removeIf
  rw [List.filter_filter, Table.mk.injEq]
  refine ⟨List.filter_congr fun r _ => ?_, rfl⟩
  cases hr : c r with
  | false => simp
  | true => simp [hc r hr]

theorem countIf_only (hc : ∀ r, c r = true → p r = true) : (t.only p).countIf c = t.countIf c := by
  unfold countIf only
  rw [List.filter_filter]
  refine congrArg _ (List.filter_congr fun r _ => ?_)
  cases hr : c r with
  | false => rfl
  | true => simp [hc r hr]

theorem find?_only (hp : ∀ r, Row.isAt κ h r = true → p r = true) :
    (t.only p).find? κ h = t.find? κ h := by
  unfold find? only
  rw [List.find?_filter]
  congr 1
  funext r
  cases hr : Row.isAt κ h r with
  | false => simp
  | true => simp [hp r hr]

variable {f : Row → Row} (hf : ∀ r, c r = true → p (f r) = p r)
include hf

theorem only_rewrite :
    only p { t with rows := t.rows.map fun r => if c r then f r else r } =
      { t with rows := (t.rows.filter p).map fun r => if c r then f r else r } := by
  unfold only
  rw [List.filter_map, Table.mk.injEq]
  refine ⟨congrArg _ (List.filter_congr fun r _ => ?_), rfl⟩
  dsimp only [Function.comp_apply]
  split
  · next hr => exact hf r hr
  · rfl

theorem only_rewrite_of_disjoint (hc : ∀ r, c r = true → p r = false) :
    only p { t with rows := t.rows.map fun r => if c r then f r else r } = t.only p := by
  rw [only_rewrite hf]
  unfold only
  rw [Table.mk.injEq]
  refine ⟨?_, rfl⟩
  calc
    _ = (t.rows.filter p).map id := by
      refine List.map_congr_left fun r hr => if_neg fun hcr => ?_
      exact Bool.eq_false_iff.1 (hc r hcr) (List.mem_filter.1 hr).2
    _ = t.rows.filter p := List.map_id _

end Rows

/-- A table where the rows that are hit have come to their end, or are rewritten in their places. -/
def moved (isLast : Bool) (hit : Row → Bool) (f : Row → Row) (t : Table) : Table :=
  if isLast then t.removeIf hit
  else { t with rows := t.rows.map fun r => if hit r then f r else r }

theorem local_moved {q hit : Row → Bool} {f : Row → Row} (hq : ∀ r, hit r = true → q r = true)
    (hf : ∀ r, q r = true → q (f r) = true) (isLast : Bool) :
    Local q fun t => ((), moved isLast hit f t) where
  alone {p} t hp := by
    have hr (r : Row) (hr : hit r = true) : p (f r) = p r := by
      rw [hp r (hq r hr), hp _ (hf r (hq r hr))]
    refine congrArg (Prod.mk ()) ?_
    unfold moved
    split
    · exact only_removeIf p hit t
    · exact (only_rewrite hr).symm
  aside {p} t hp := by
    have hr (r : Row) (hr : hit r = true) : p (f r) = p r := by
      rw [hp r (hq r hr), hp _ (hf r (hq r hr))]
    have hc (r : Row) (hr : hit r = true) : p r = false := hp r (hq r hr)
    change only p (moved isLast hit f t) = _
    unfold moved
    split
    · exact only_removeIf_of_disjoint hc
    · exact only_rewrite_of_disjoint hr hc

section Operations

variable {P S : Type} [Stage S] [Staged P S] (db : Engine) (now : Nat) (h : Handle)

@[simp] theorem refuses_only (st : Statement) (p : Row → Bool) (t : Table) :
    (t.only p).refuses db st = t.refuses db st := rfl

theorem isAt_of_expired {r : Row}
    (hr : decide (Row.isAt κ h r = true ∧ r.expireAt < toColumn now) = true) :
    Row.isAt κ h r = true :=
  (of_decide_eq_true hr).1

theorem local_purge : Local (Row.isAt κ h) fun t => ((), purge κ now h t) where
  alone t _ := congrArg (Prod.mk ()) (only_removeIf _ _ t)
  aside _ hp := only_removeIf_of_disjoint fun r hr => hp r (isAt_of_expired now h hr)

theorem purge_only {p : Row → Bool} (hp : ∀ r, Row.isAt κ h r = true → p r = true) :
    (t.only p).purge κ now h = (t.purge κ now h).only p :=
  congrArg Prod.snd ((local_purge now h).alone t hp)

theorem local_live : Local (Row.isAt κ h) (live db κ now h) where
  alone {p} t hp := by
    unfold live
    simp only [refuses_only, find?_only hp]
    split
    · rfl
    · split
      · rfl
      · split
        · split
          · rfl
          · rw [purge_only now h hp]
            rfl
        · rfl
  aside {p} t hp := by
    unfold live
    split
    · rfl
    · split
      · rfl
      · split
        · split
          · rfl
          · exact (local_purge now h).aside t hp
        · rfl

theorem local_put (p : P) (ttl : Nat) :
    Local (Row.isAt (Staged.kind P) h) (Table.put db now h p ttl) where
  alone {c} t hc := by
    have hr : c ⟨Staged.kind P, h.text, Stage.text (Staged.stage p), (Staged.toJson p).compact,
        toColumn now, toColumn (Entry.expireAt ⟨h, now, ttl, p⟩)⟩ = true :=
      hc _ (isAt_iff.2 ⟨rfl, rfl⟩)
    unfold Table.put
    simp only [refuses_only, purge_only now h hc, refuses_purge, find?_only hc]
    split
    · rfl
    · split
      · rfl
      · split
        · rfl
        · simp [only, Prod.map, hr]
  aside {c} t hc := by
    have he := (local_purge now h).aside t hc
    unfold Table.put
    dsimp only
    split
    · rfl
    · split
      · exact he
      · split
        · exact he
        · have hr : c ⟨Staged.kind P, h.text, Stage.text (Staged.stage p),
              (Staged.toJson p).compact, toColumn now,
              toColumn (Entry.expireAt ⟨h, now, ttl, p⟩)⟩ = false :=
            hc _ (isAt_iff.2 ⟨rfl, rfl⟩)
          refine Eq.trans ?_ he
          simp [only, hr]

theorem local_get : Local (Row.isAt (Staged.kind P) h) (Table.get (P := P) db now h) where
  alone {c} t hc := by
    unfold Table.get
    rw [(local_live db now h).alone t hc]
    generalize t.live db (Staged.kind P) now h = x
    obtain ⟨r, u⟩ := x
    cases r <;> rfl
  aside {c} t hc := by
    have hl := (local_live db now h).aside t hc
    unfold Table.get
    generalize t.live db (Staged.kind P) now h = x at hl
    obtain ⟨r, u⟩ := x
    cases r <;> exact hl

theorem lost_only {c : Row → Bool} (hc : ∀ r, Row.isAt κ h r = true → c r = true) :
    (t.only c).lost db κ h = t.lost db κ h := by
  rw [lost, find?_only hc]
  rfl

theorem local_take [DecidableEq S] (expected next : S) :
    Local (Row.isAt (Staged.kind P) h) (Table.take (P := P) db now h expected next) := by
  have hit (r : Row) (hr : decide (Row.isAt (Staged.kind P) h r = true ∧
      r.status = Stage.text expected ∧ toColumn now ≤ r.expireAt) = true) :
      Row.isAt (Staged.kind P) h r = true := (of_decide_eq_true hr).1
  have hm (e : Entry P) := local_moved (f := fun r => { r with
    status := Stage.text next
    payload := (Staged.toJson (Staged.advance next now e.payload)).compact }) hit
    (fun _ hr => hr) (Stage.isTerminal next)
  constructor
  · intro c t hc
    unfold Table.take
    dsimp only
    rw [(local_live db now h).alone t hc]
    generalize t.live db (Staged.kind P) now h = x
    obtain ⟨r, u⟩ := x
    cases r with
    | error e => rfl
    | ok r =>
      dsimp only [Prod.map_apply, id_eq]
      split
      · rfl
      · split
        · rfl
        · next e _ =>
          rw [refuses_only, countIf_only fun r hr => hc r (hit r hr), lost_only db h hc]
          split
          · rfl
          · split
            · rfl
            · exact congrArg (Prod.mk _) (congrArg Prod.snd ((hm e).alone u hc))
  · intro c t hc
    have hl := (local_live db now h).aside t hc
    unfold Table.take
    dsimp only
    generalize t.live db (Staged.kind P) now h = x at hl
    obtain ⟨r, u⟩ := x
    cases r with
    | error e => exact hl
    | ok r =>
      dsimp only
      split
      · exact hl
      · split
        · exact hl
        · next e _ =>
          split
          · exact hl
          · split
            · exact hl
            · exact ((hm e).aside u hc).trans hl

theorem local_delete : Local (Row.isAt κ h) (delete db κ h) where
  alone {c} t hc := by
    unfold delete
    rw [refuses_only, find?_only hc, only_removeIf]
    split <;> rfl
  aside {c} t hc := by
    unfold delete
    split
    · rfl
    · exact only_removeIf_of_disjoint hc

theorem only_sweep (p : Row → Bool) (t : Table) :
    ((t.only p).sweep db κ now).2 = (t.sweep db κ now).2.only p := by
  unfold sweep
  rw [refuses_only]
  split
  · rfl
  · exact only_removeIf p _ t

theorem local_sweep : Local (fun r => r.kind = κ) (sweep db κ now) where
  alone {c} t hc := by
    refine Prod.ext ?_ (only_sweep db now c t)
    unfold sweep
    rw [refuses_only]
    split
    · rfl
    · exact congrArg Except.ok
        (countIf_only fun r hr => hc r (decide_eq_true (of_decide_eq_true hr).1))
  aside {c} t hc := by
    unfold sweep
    split
    · rfl
    · exact only_removeIf_of_disjoint fun r hr => hc r (decide_eq_true (of_decide_eq_true hr).1)

theorem local_size : Local (fun r => r.kind = κ) (size db κ) where
  alone {c} t hc := by
    unfold size
    rw [refuses_only, countIf_only hc]
    split <;> rfl
  aside {c} t hc := by
    unfold size
    split <;> rfl

end Operations

end Table

end Handoff
