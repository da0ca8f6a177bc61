import Handoff.Proofs.Rendezvous.Memory

namespace Handoff

section Rows

variable {P S : Type} [Stage S] [Staged P S]

namespace Entry

/-- The entry as a table keeps it, its times cut off at the latest one. -/
def clip (e : Entry P) : Entry P :=
  { e with
    createdAt := min e.createdAt Text.maxSigned
    ttl := min e.expireAt Text.maxSigned - min e.createdAt Text.maxSigned }

def IsColumnar [Staged.Lawful P] (e : Entry P) : Prop :=
  Staged.Lawful.Fits e.payload ∧ e.createdAt + e.ttl ≤ Text.maxSigned

theorem expireAt_eq {e : Entry P} (he : e.createdAt + e.ttl ≤ Text.maxSigned) :
    e.expireAt = e.createdAt + e.ttl := by
  unfold expireAt Text.addTime
  unfold Text.maxSigned at he
  unfold Text.maxWord
  omega

theorem clip_times (e : Entry P) :
    e.clip.createdAt + e.clip.ttl = min e.expireAt Text.maxSigned := by
  simp only [clip, expireAt, Text.addTime, Text.maxSigned, Text.maxWord]
  omega

theorem clip_expireAt (e : Entry P) : e.clip.expireAt = min e.expireAt Text.maxSigned := by
  rw [← clip_times]
  apply expireAt_eq
  rw [clip_times]
  exact Nat.min_le_right _ _

theorem clip_isColumnar [Staged.Lawful P] {e : Entry P} (hp : Staged.Lawful.Fits e.payload) :
    e.clip.IsColumnar := by
  refine ⟨hp, ?_⟩
  rw [clip_times]
  exact Nat.min_le_right _ _

end Entry

def Row.of (e : Entry P) : Row :=
  ⟨Staged.kind P, e.handle.text, Stage.text (Staged.stage e.payload),
    (Staged.toJson e.payload).compact, e.createdAt, e.expireAt⟩

end Rows

namespace Table

open View

variable {t : Table} {κ : Kind} {h k : Handle}

theorem refuses_of_closed (ho : t.isClosed = true) (db : Engine) (st : Statement) :
    t.refuses db st = some refusal := if_pos ho

theorem refuses_of_open (ho : t.isClosed = false) (st : Statement) :
    t.refuses .willing st = none := if_neg (Bool.eq_false_iff.1 ho)

@[simp] theorem refuses_purge (κ : Kind) (now : Nat) (h : Handle) (t : Table) (db : Engine)
    (st : Statement) : (t.purge κ now h).refuses db st = t.refuses db st := rfl

theorem live_closed (ho : t.isClosed = true) (db : Engine) (κ : Kind) (now : Nat) (h : Handle) :
    t.live db κ now h = (.error refusal, t) := by
  rw [live, refuses_of_closed ho]

theorem ofColumn_natCast (n : Nat) : ofColumn n = n := rfl

theorem toColumn_natCast (n : Nat) : toColumn n = (min n Text.maxSigned : Nat) := by
  unfold toColumn maxColumn
  omega

@[simp] theorem isAt_iff {r : Row} : Row.isAt κ h r = true ↔ r.kind = κ ∧ r.handle = h.text := by
  simp [Row.isAt]

def Unique (t : Table) : Prop :=
  t.rows.Pairwise fun r s => ¬(r.kind = s.kind ∧ r.handle = s.handle)

theorem Unique.not_both (ht : t.Unique) (κ : Kind) (h : Handle) :
    t.rows.Pairwise fun r s => ¬(Row.isAt κ h r = true ∧ Row.isAt κ h s = true) := by
  apply List.Pairwise.imp _ ht
  intro r s hrs hq
  simp only [isAt_iff] at hq
  exact hrs ⟨hq.1.1.trans hq.2.1.symm, hq.1.2.trans hq.2.2.symm⟩

theorem Unique.find?_removeIf (ht : t.Unique) (c : Row → Bool) (κ : Kind) (h : Handle) :
    (t.removeIf c).find? κ h = (t.find? κ h).filter (!c ·) :=
  find?_filter_of_unique _ (ht.not_both κ h)

theorem Unique.find?_eq_some (ht : t.Unique) {r : Row} (hr : r ∈ t.rows)
    (ha : Row.isAt κ h r = true) : t.find? κ h = some r :=
  find?_of_unique (ht.not_both κ h) hr ha

theorem Unique.removeIf (ht : t.Unique) (c : Row → Bool) : (t.removeIf c).Unique :=
  List.Pairwise.filter _ ht

theorem Unique.append (ht : t.Unique) {r : Row} (hr : t.find? r.kind ⟨r.handle⟩ = none) :
    Unique { t with rows := t.rows ++ [r] } := by
  refine List.pairwise_append.2 ⟨ht, List.pairwise_singleton _ _, ?_⟩
  intro s hs r' hr' he
  rw [List.mem_singleton.1 hr'] at he
  have hn := List.find?_eq_none.1 hr s hs
  exact hn (isAt_iff.2 he)

theorem Unique.map (ht : t.Unique) {f : Row → Row}
    (hf : ∀ r, (f r).kind = r.kind ∧ (f r).handle = r.handle) :
    Unique { t with rows := t.rows.map f } := by
  refine List.pairwise_map.2 (List.Pairwise.imp ?_ ht)
  intro r s hrs he
  rw [(hf r).1, (hf r).2, (hf s).1, (hf s).2] at he
  exact hrs he

def ofKind (κ : Kind) (t : Table) : List Row := t.rows.filter (·.kind = κ)

theorem find?_ofKind (κ : Kind) (h : Handle) (t : Table) :
    t.find? κ h = (t.ofKind κ).find? (Row.isAt κ h) := by
  rw [ofKind, List.find?_filter, find?]
  congr 1
  funext r
  by_cases hr : r.kind = κ <;> simp [Row.isAt, hr]

/-- What touches rows of the kind `κ` only, leaves those of another kind as they are. -/
structure Aside (κ : Kind) (t t' : Table) : Prop where
  unique : t.Unique → t'.Unique
  ofKind {μ : Kind} : μ ≠ κ → t'.ofKind μ = t.ofKind μ
  isClosed : t'.isClosed = t.isClosed

namespace Aside

theorem refl (κ : Kind) (t : Table) : Aside κ t t := ⟨id, fun _ => rfl, rfl⟩

theorem trans {t u v : Table} (h : Aside κ t u) (h' : Aside κ u v) : Aside κ t v :=
  ⟨h'.unique ∘ h.unique, fun hμ => (h'.ofKind hμ).trans (h.ofKind hμ),
    h'.isClosed.trans h.isClosed⟩

theorem removeIf {c : Row → Bool} (hc : ∀ r, c r = true → r.kind = κ) :
    Aside κ t (t.removeIf c) := by
  refine ⟨fun ht => ht.removeIf c, ?_, rfl⟩
  intro μ hμ
  rw [Table.ofKind, Table.ofKind, Table.removeIf, List.filter_filter]
  apply List.filter_congr
  intro r _
  by_cases hr : r.kind = μ
  · have hn : c r = false := by
      rw [Bool.eq_false_iff]
      exact fun hcr => hμ (hr.symm.trans (hc r hcr))
    simp [hr, hn]
  · simp [hr]

theorem append {r : Row} (hr : t.find? κ ⟨r.handle⟩ = none) (hk : r.kind = κ) :
    Aside κ t { t with rows := t.rows ++ [r] } := by
  subst hk
  refine ⟨fun ht => ht.append hr, ?_, rfl⟩
  intro μ hμ
  simp [Table.ofKind, Ne.symm hμ]

theorem rewrite {c : Row → Bool} {f : Row → Row} (hc : ∀ r, c r = true → r.kind = κ)
    (hf : ∀ r, (f r).kind = r.kind ∧ (f r).handle = r.handle) :
    Aside κ t { t with rows := t.rows.map fun r => if c r then f r else r } := by
  have hk : ∀ r, (if c r then f r else r).kind = r.kind ∧
      (if c r then f r else r).handle = r.handle := by
    intro r
    split
    · exact hf r
    · exact ⟨rfl, rfl⟩
  refine ⟨fun ht => ht.map hk, ?_, rfl⟩
  intro μ hμ
  have hp : (fun r : Row => decide (r.kind = μ)) ∘ (fun r => if c r then f r else r) =
      fun r => decide (r.kind = μ) := by
    funext r
    simp [hk r]
  rw [Table.ofKind, Table.ofKind, List.filter_map, hp]
  calc
    _ = (t.rows.filter (·.kind = μ)).map id := by
      apply List.map_congr_left
      intro r hr
      have hr : r.kind = μ := by simpa using (List.mem_filter.1 hr).2
      exact if_neg fun hcr => hμ (hr.symm.trans (hc r hcr))
    _ = t.rows.filter (·.kind = μ) := List.map_id _

end Aside

section Payload

variable {P S : Type} [Stage S] [Staged P S]

variable (P) in
def view (t : Table) : View P := fun h =>
  (t.find? (Staged.kind P) h).bind fun r => (decode h r).toOption

theorem isAt_of (e : Entry P) (h : Handle) :
    Row.isAt (Staged.kind P) h (.of e) = decide (e.handle = h) := by
  rw [Row.isAt]
  congr 1
  rw [Handle.mk.injEq]
  simp [Row.of]

variable [Staged.Lawful P]

variable (P) in
structure Sound (t : Table) : Prop where
  unique : t.Unique
  rows : ∀ r ∈ t.ofKind (Staged.kind P), ∃ e : Entry P, e.IsColumnar ∧ r = .of e

theorem decode_of {e : Entry P} (he : e.IsColumnar) : decode e.handle (.of e) = .ok e := by
  unfold decode Row.of
  rw [Staged.Lawful.read_compact he.1]
  simp only [ofColumn_natCast, Entry.expireAt_eq he.2, Nat.add_sub_cancel_left]

theorem view_of_find? {o : Option (Entry P)}
    (hf : t.find? (Staged.kind P) h = o.map .of) (ho : ∀ e ∈ o, e.IsColumnar ∧ e.handle = h) :
    t.view P h = o := by
  rw [view, hf]
  cases o with
  | none => rfl
  | some e =>
    obtain ⟨hc, hh⟩ := ho e rfl
    rw [Option.map_some, Option.bind_some, ← hh, decode_of hc]
    rfl

theorem sound_empty : empty.Sound P := by
  constructor
  · exact List.Pairwise.nil
  · intro r hr
    cases hr

namespace Sound

variable (ht : t.Sound P)
include ht

theorem exists_of_mem {r : Row} (hr : r ∈ t.rows) (hk : r.kind = Staged.kind P) :
    ∃ e : Entry P, e.IsColumnar ∧ r = .of e :=
  ht.rows r (List.mem_filter.2 ⟨hr, by simpa using hk⟩)

theorem exists_of_find? {r : Row} (hf : t.find? (Staged.kind P) h = some r) :
    ∃ e : Entry P, t.view P h = some e ∧ e.IsColumnar ∧ e.handle = h ∧ r = .of e := by
  have ha := isAt_iff.1 (List.find?_some hf)
  obtain ⟨e, hc, hr⟩ := ht.exists_of_mem (List.mem_of_find?_eq_some hf) ha.1
  have hh : e.handle = h := by
    rw [hr] at ha
    exact congrArg Handle.mk ha.2
  refine ⟨e, ?_, hc, hh, hr⟩
  apply view_of_find?
  · rw [hf, hr]
    rfl
  · intro e' he'
    cases he'
    exact ⟨hc, hh⟩

theorem of_view {e : Entry P} (he : t.view P h = some e) :
    t.find? (Staged.kind P) h = some (.of e) ∧ e.IsColumnar ∧ e.handle = h := by
  cases hf : t.find? (Staged.kind P) h with
  | none => simp [view, hf] at he
  | some r =>
    obtain ⟨e', he', hc, hh, hr⟩ := ht.exists_of_find? hf
    rw [he] at he'
    cases he'
    exact ⟨congrArg some hr, hc, hh⟩

theorem find?_eq (h : Handle) : t.find? (Staged.kind P) h = (t.view P h).map .of := by
  cases hv : t.view P h with
  | some e => exact (ht.of_view hv).1
  | none =>
    cases hf : t.find? (Staged.kind P) h with
    | none => rfl
    | some r =>
      obtain ⟨e, he, -⟩ := ht.exists_of_find? hf
      rw [hv] at he
      cases he

theorem isSome_find? (h : Handle) :
    (t.find? (Staged.kind P) h).isSome = (t.view P h).isSome := by
  rw [ht.find?_eq, Option.isSome_map]

theorem removeIf (c : Row → Bool) : (t.removeIf c).Sound P := by
  constructor
  · exact ht.unique.removeIf c
  · intro r hr
    obtain ⟨hr, hk⟩ := List.mem_filter.1 hr
    exact ht.exists_of_mem (List.mem_filter.1 hr).1 (by simpa using hk)

theorem view_removeIf (c : Row → Bool) (h : Handle) :
    (t.removeIf c).view P h = (t.view P h).filter fun e => !c (.of e) := by
  apply view_of_find?
  · rw [ht.unique.find?_removeIf, ht.find?_eq]
    cases t.view P h with
    | none => rfl
    | some e =>
      rw [Option.map_some, Option.filter_some, Option.filter_some]
      cases c (.of e) <;> rfl
  · intro e he
    exact (ht.of_view (Option.mem_filter_iff.1 he).1).2

theorem view_removeAt (c : Row → Prop) [DecidablePred c] (h : Handle) :
    (t.removeIf fun r => Row.isAt (Staged.kind P) h r ∧ c r).view P =
      Function.update (t.view P) h ((t.view P h).filter fun e => !c (.of e)) := by
  funext k
  rw [ht.view_removeIf]
  by_cases hk : k = h
  · subst hk
    rw [Function.update_self]
    cases he : t.view P k with
    | none => rfl
    | some e => simp only [Option.filter_some, isAt_of, (ht.of_view he).2.2, decide_true, true_and]
  · rw [Function.update_of_ne hk]
    cases he : t.view P k with
    | none => rfl
    | some e => simp [Option.filter_some, isAt_of, (ht.of_view he).2.2, hk]

theorem view_remove (h : Handle) :
    (t.removeIf (Row.isAt (Staged.kind P) h)).view P = Function.update (t.view P) h none := by
  have hv := ht.view_removeAt (fun _ => True) h
  have hn : ((t.view P h).filter fun _ => !decide True) = none := by
    cases t.view P h <;> rfl
  rw [hn] at hv
  simpa only [and_true, Bool.decide_eq_true] using hv

theorem sound_append {e : Entry P} (hc : e.IsColumnar) (hv : t.view P e.handle = none) :
    Sound P { t with rows := t.rows ++ [.of e] } := by
  constructor
  · apply ht.unique.append
    exact (ht.find?_eq e.handle).trans (congrArg _ hv)
  · intro r hr
    obtain ⟨hr, hk⟩ := List.mem_filter.1 hr
    cases List.mem_append.1 hr with
    | inl hr => exact ht.exists_of_mem hr (by simpa using hk)
    | inr hr => exact ⟨e, hc, List.mem_singleton.1 hr⟩

theorem view_append {e : Entry P} (hc : e.IsColumnar) (hv : t.view P e.handle = none) :
    view P { t with rows := t.rows ++ [.of e] } = Function.update (t.view P) e.handle (some e) := by
  funext k
  apply view_of_find?
  · have hf : find? (Staged.kind P) k { t with rows := t.rows ++ [.of e] } =
        (t.find? (Staged.kind P) k).or ([Row.of e].find? (Row.isAt (Staged.kind P) k)) :=
      List.find?_append
    rw [hf, ht.find?_eq]
    by_cases hk : k = e.handle
    · subst hk
      simp [hv, isAt_of]
    · simp [hk, Ne.symm hk, isAt_of]
  · intro e' he'
    by_cases hk : k = e.handle
    · subst hk
      rw [Function.update_self] at he'
      cases he'
      exact ⟨hc, rfl⟩
    · rw [Function.update_of_ne hk] at he'
      exact (ht.of_view he').2

section Picked

/-! A condition that only the row of the entry `e` meets. -/

variable {e : Entry P} {c : Row → Bool} (he : t.view P h = some e) (hr : c (.of e) = true)
  (hc : ∀ r, c r = true → Row.isAt (Staged.kind P) h r = true)
include he hr

theorem countIf_ne_zero : t.countIf c ≠ 0 := by
  rw [countIf, ← List.countP_eq_length_filter]
  have hm := List.mem_of_find?_eq_some (ht.of_view he).1
  exact Nat.ne_of_gt (List.countP_pos_iff.2 ⟨_, hm, hr⟩)

include hc

theorem view_drop : (t.removeIf c).view P = Function.update (t.view P) h none := by
  funext k
  rw [ht.view_removeIf]
  by_cases hk : k = h
  · subst hk
    rw [he, Function.update_self, Option.filter_some_neg (by simp [hr])]
  · rw [Function.update_of_ne hk]
    cases hv : t.view P k with
    | none => rfl
    | some o =>
      apply Option.filter_some_pos
      rw [Bool.not_eq_true', Bool.eq_false_iff]
      intro ho
      have ha := hc _ ho
      rw [isAt_of, (ht.of_view hv).2.2] at ha
      exact hk (of_decide_eq_true ha)

variable {e' : Entry P} {f : Row → Row} (hc' : e'.IsColumnar) (hr' : f (.of e) = .of e')
  (hf : ∀ r, (f r).kind = r.kind ∧ (f r).handle = r.handle)
include hc' hr' hf

omit hr in
theorem sound_rewrite : Sound P { t with rows := t.rows.map fun r => if c r then f r else r } := by
  constructor
  · apply ht.unique.map
    intro r
    split
    · exact hf r
    · exact ⟨rfl, rfl⟩
  · intro r' hm'
    obtain ⟨hm', hk⟩ := List.mem_filter.1 hm'
    obtain ⟨r, hm, rfl⟩ := List.mem_map.1 hm'
    split
    · next hcr =>
      have hs := ht.unique.find?_eq_some hm (hc r hcr)
      rw [(ht.of_view he).1] at hs
      cases hs
      exact ⟨e', hc', hr'⟩
    · next hcr =>
      rw [if_neg hcr] at hk
      exact ht.exists_of_mem hm (by simpa using hk)

theorem view_rewrite (hh : e'.handle = h) :
    view P { t with rows := t.rows.map fun r => if c r then f r else r } =
      Function.update (t.view P) h (some e') := by
  funext k
  have hp : Row.isAt (Staged.kind P) k ∘ (fun r => if c r then f r else r) =
      Row.isAt (Staged.kind P) k := by
    funext r
    dsimp only [Function.comp_apply]
    split
    · simp [Row.isAt, hf r]
    · rfl
  have hm : find? (Staged.kind P) k { t with rows := t.rows.map fun r => if c r then f r else r } =
      (t.find? (Staged.kind P) k).map fun r => if c r then f r else r := by
    rw [find?, List.find?_map, hp]
    rfl
  apply view_of_find?
  · rw [hm, ht.find?_eq]
    by_cases hk : k = h
    · subst hk
      rw [he, Function.update_self]
      simp [hr, hr']
    · rw [Function.update_of_ne hk]
      cases hv : t.view P k with
      | none => rfl
      | some o =>
        have hn : ¬c (.of o) = true := by
          intro ho
          have ha := hc _ ho
          rw [isAt_of, (ht.of_view hv).2.2] at ha
          exact hk (of_decide_eq_true ha)
        simp [hn]
  · intro o ho
    by_cases hk : k = h
    · subst hk
      rw [Function.update_self] at ho
      cases ho
      exact ⟨hc', hh⟩
    · rw [Function.update_of_ne hk] at ho
      exact (ht.of_view ho).2

end Picked

end Sound

end Payload

section Operations

variable {P S : Type} [Stage S] [Staged P S]

theorem toColumn_le_natCast {x y : Nat} (h : x ≤ y) : toColumn x ≤ y := by
  rw [toColumn_natCast]
  omega

theorem fades_filter (now : Nat) (o : Option (Entry P)) :
    Fades now o (o.filter fun e => !decide ((Row.of e).expireAt < toColumn now)) := by
  cases o with
  | none => exact .refl now none
  | some e =>
    by_cases hx : (Row.of e).expireAt < toColumn now
    · refine .inr ⟨by simp [hx], ?_⟩
      rw [vacant_some, Entry.isExpired, decide_eq_true_iff]
      by_contra hn
      have hle := toColumn_le_natCast (Nat.le_of_not_lt hn)
      exact absurd hx (Int.not_lt.2 hle)
    · exact .inl (by simp [Option.filter_some, hx])

theorem row_clip (e : Entry P) :
    (⟨Staged.kind P, e.handle.text, Stage.text (Staged.stage e.payload),
      (Staged.toJson e.payload).compact, toColumn e.createdAt, toColumn e.expireAt⟩ : Row) =
      .of e.clip := by
  rw [Row.of, Entry.clip_expireAt, toColumn_natCast, toColumn_natCast]
  rfl

variable [Staged.Lawful P]

variable (now : Nat) (h : Handle) (ht : t.Sound P)
include ht

theorem Sound.live_view (ho : t.isClosed = false) :
    (∃ e, t.live .willing (Staged.kind P) now h = (.ok (.of e), t) ∧ t.view P h = some e ∧
      e.isExpired now = false) ∨
    ∃ t' o, t.live .willing (Staged.kind P) now h = (.error .notFound, t') ∧ Vacant now (t.view P h) ∧
      Fades now (t.view P h) o ∧ t'.view P = Function.update (t.view P) h o ∧ t'.Sound P := by
  rw [live, refuses_of_open ho, refuses_of_open ho]
  dsimp only
  cases hf : t.find? (Staged.kind P) h with
  | none =>
    have hv : t.view P h = none := by simpa [hf] using (ht.find?_eq h).symm
    exact .inr ⟨t, t.view P h, rfl, by simp [hv], .refl _ _, by rw [Function.update_eq_self], ht⟩
  | some r =>
    obtain ⟨e, he, hc, hh, rfl⟩ := ht.exists_of_find? hf
    have hx : (ofColumn (Row.of e).expireAt < now) ↔ e.isExpired now = true := by
      simp [Row.of, ofColumn_natCast, Entry.isExpired]
    dsimp only
    split
    · next hl =>
      refine .inr ⟨_, _, rfl, by simpa [he] using hx.1 hl, fades_filter now _, ?_, ht.removeIf _⟩
      exact ht.view_removeAt _ h
    · next hl =>
      exact .inl ⟨e, rfl, he, by simpa [hx] using hl⟩

theorem Sound.view_purge : (t.purge (Staged.kind P) now h).view P =
    Function.update (t.view P) h
      ((t.view P h).filter fun e => !decide ((Row.of e).expireAt < toColumn now)) :=
  ht.view_removeAt (fun r => r.expireAt < toColumn now) h

theorem Sound.put {p : P} (hp : Staged.Lawful.Fits p) (ttl : Nat) :
    (t.put .willing now h p ttl).2.Sound P ∧
      Put now ⟨h, now, ttl, p⟩ (Entry.clip ⟨h, now, ttl, p⟩) (t.view P)
        (t.put .willing now h p ttl).1 ((t.put .willing now h p ttl).2.view P) := by
  cases hc : t.isClosed with
  | true =>
    rw [Table.put, refuses_of_closed hc]
    exact ⟨ht, .refused⟩
  | false =>
    have hs : (t.purge (Staged.kind P) now h).Sound P := ht.removeIf _
    have hv := ht.view_purge now h
    simp only [Table.put, refuses_purge, refuses_of_open hc]
    rw [hs.isSome_find?, hv, Function.update_self]
    have ho := fades_filter now (t.view P h)
    generalize (t.view P h).filter _ = o at ho hv
    split
    · next hd =>
      cases ho with
      | inl ho =>
        rw [ho] at hd
        rw [hv, ho, Function.update_eq_self]
        exact ⟨hs, .duplicate hd⟩
      | inr ho => simp [ho.1] at hd
    · next hd =>
      have hn' := Option.not_isSome_iff_eq_none.1 hd
      have hvac : Vacant now (t.view P h) := by
        cases ho with
        | inl ho => simp [← ho, hn']
        | inr ho => exact ho.2
      have hc := Entry.clip_isColumnar (e := ⟨h, now, ttl, p⟩) hp
      rw [hn'] at hv
      have hv' := congrFun hv h
      rw [Function.update_self] at hv'
      have hu := hs.view_append hc hv'
      rw [hv] at hu
      rw [row_clip (⟨h, now, ttl, p⟩ : Entry P)]
      refine ⟨hs.sound_append hc hv', ?_⟩
      rw [hu.trans (Function.update_idem ..)]
      exact .stored hvac

theorem Sound.get : (t.get (P := P) .willing now h).2.Sound P ∧
    Get now h (t.view P) (t.get .willing now h).1 ((t.get (P := P) .willing now h).2.view P) := by
  unfold Table.get
  cases hc : t.isClosed with
  | true =>
    rw [live_closed hc]
    exact ⟨ht, .refused⟩
  | false =>
    obtain ⟨e, hl, he, hx⟩ | ⟨t', o, hl, ha, ho, hv, hs⟩ := ht.live_view now h hc
    · have hh := (ht.of_view he).2
      rw [hl]
      dsimp only
      rw [← hh.2, decode_of hh.1, hh.2]
      exact ⟨ht, .found he hx⟩
    · rw [hl]
      dsimp only
      rw [hv]
      exact ⟨hs, .absent ha ho⟩

theorem Sound.take_live [DecidableEq S] (ho : t.isClosed = false) (hn : now ≤ Text.maxWord)
    {e : Entry P} (he : t.view P h = some e) (hx : e.isExpired now = false) (expected next : S) :
    (t.take (P := P) .willing now h expected next).2.Sound P ∧
      (if Staged.stage e.payload = expected then
        (t.take .willing now h expected next).1 = .ok e ∧
          (t.take (P := P) .willing now h expected next).2.view P =
            Function.update (t.view P) h (moved now next e)
      else
        t.take (P := P) .willing now h expected next =
          (.error (.conflict (Stage.text (Staged.stage e.payload))), t)) := by
  obtain ⟨hf, hc, hh⟩ := ht.of_view he
  have hl : t.live .willing (Staged.kind P) now h = (.ok (.of e), t) := by
    obtain ⟨e', hl, he', -⟩ | ⟨-, -, -, ha, -⟩ := ht.live_view now h ho
    · cases he.symm.trans he'
      exact hl
    · cases (ha e he).symm.trans hx
  unfold Table.take
  dsimp only
  rw [hl]
  dsimp only
  split
  · next hs =>
    have hse : Staged.stage e.payload ≠ expected := fun hse => hs (congrArg Stage.text hse)
    rw [if_neg hse]
    exact ⟨ht, rfl⟩
  · next hs =>
    have hs := not_not.1 hs
    rw [if_pos (Staged.Lawful.text_injective P hs)]
    have hle : toColumn now ≤ (Row.of e).expireAt := by
      apply toColumn_le_natCast
      simpa [Entry.isExpired] using hx
    rw [← hh, decode_of hc, hh]
    dsimp only
    have hr : (fun r : Row => decide (Row.isAt (Staged.kind P) h r = true ∧
        r.status = Stage.text expected ∧ toColumn now ≤ r.expireAt)) (.of e) = true := by
      simp [isAt_of, hh, hs, hle]
    have ha : ∀ r : Row, decide (Row.isAt (Staged.kind P) h r = true ∧
        r.status = Stage.text expected ∧ toColumn now ≤ r.expireAt) = true →
        Row.isAt (Staged.kind P) h r = true :=
      fun r hr => (of_decide_eq_true hr).1
    rw [refuses_of_open ho]
    dsimp only
    rw [if_neg (ht.countIf_ne_zero he hr)]
    dsimp only
    unfold moved
    split
    · exact ⟨ht.removeIf _, rfl, ht.view_drop he hr ha⟩
    · have hc' : Entry.IsColumnar { e with payload := Staged.advance next now e.payload } :=
        ⟨Staged.Lawful.fits_advance next hn hc.1, hc.2⟩
      have hr' : { Row.of e with
          status := Stage.text next
          payload := (Staged.toJson (Staged.advance next now e.payload)).compact } =
          Row.of { e with payload := Staged.advance next now e.payload } := by
        simp only [Row.of, Staged.Lawful.stage_advance]
        rfl
      have hf' : ∀ r : Row, r.kind = r.kind ∧ r.handle = r.handle := fun r => ⟨rfl, rfl⟩
      have hv := ht.view_rewrite (f := fun r => { r with
        status := Stage.text next
        payload := (Staged.toJson (Staged.advance next now e.payload)).compact })
        he hr ha hc' hr' hf' hh
      exact ⟨ht.sound_rewrite he ha hc' hr' hf', rfl, hv⟩

theorem Sound.take [DecidableEq S] (hn : now ≤ Text.maxWord) (expected next : S) :
    (t.take (P := P) .willing now h expected next).2.Sound P ∧
      Take now h expected next (t.view P) (t.take .willing now h expected next).1
        ((t.take (P := P) .willing now h expected next).2.view P) := by
  cases ho : t.isClosed with
  | true =>
    rw [Table.take, live_closed ho]
    exact ⟨ht, .refused⟩
  | false =>
    obtain ⟨e, -, he, hx⟩ | ⟨t', o, hl, ha, hf, hv, hs⟩ := ht.live_view now h ho
    · obtain ⟨hs, ht'⟩ := ht.take_live now h ho hn he hx expected next
      refine ⟨hs, ?_⟩
      split at ht'
      · next hse =>
        rw [ht'.1, ht'.2]
        exact .taken he hx hse
      · next hse =>
        rw [ht']
        exact .conflict he hx hse
    · unfold Table.take
      dsimp only
      rw [hl]
      dsimp only
      rw [hv]
      exact ⟨hs, .absent ha hf⟩

theorem Sound.delete : (t.delete .willing (Staged.kind P) h).2.Sound P ∧
    Delete h (t.view P) (t.delete .willing (Staged.kind P) h).1
      ((t.delete .willing (Staged.kind P) h).2.view P) := by
  unfold Table.delete
  cases ho : t.isClosed with
  | true =>
    rw [refuses_of_closed ho]
    exact ⟨ht, .refused⟩
  | false =>
    rw [refuses_of_open ho]
    refine ⟨ht.removeIf _, ?_⟩
    dsimp only
    rw [ht.isSome_find?, ht.view_remove]
    exact .deleted

theorem Sound.sweep (db : Engine) : (t.sweep db (Staged.kind P) now).2.Sound P ∧
    Swept now (t.view P) ((t.sweep db (Staged.kind P) now).2.view P) := by
  unfold Table.sweep
  split
  · exact ⟨ht, fun k => .refl now _⟩
  · refine ⟨ht.removeIf _, fun k => ?_⟩
    rw [ht.view_removeIf]
    have hc : (fun e : Entry P => !decide ((Row.of e).kind = Staged.kind P ∧
        (Row.of e).expireAt < toColumn now)) =
        fun e => !decide ((Row.of e).expireAt < toColumn now) := by
      funext e
      exact congrArg not (decide_eq_decide.2 (and_iff_right rfl))
    rw [hc]
    exact fades_filter now _

end Operations

section Aside

/-! Each operation works on the rows of its own kind. -/

variable {P S : Type} [Stage S] [Staged P S] (db : Engine) (now : Nat) (h : Handle) (t : Table)

theorem aside_purge : Aside κ t (t.purge κ now h) := by
  apply Aside.removeIf
  intro r hr
  exact (isAt_iff.1 (of_decide_eq_true hr).1).1

theorem live_aside : Aside κ t (t.live db κ now h).2 := by
  unfold live
  split
  · exact .refl κ t
  · split
    · exact .refl κ t
    · split
      · split
        · exact .refl κ t
        · exact aside_purge now h t
      · exact .refl κ t

theorem put_aside (p : P) (ttl : Nat) : Aside (Staged.kind P) t (t.put db now h p ttl).2 := by
  unfold Table.put
  dsimp only
  split
  · exact .refl _ t
  · split
    · exact aside_purge now h t
    · split
      · exact aside_purge now h t
      · next hn =>
        apply (aside_purge now h t).trans
        exact .append (Option.not_isSome_iff_eq_none.1 hn) rfl

theorem get_aside : Aside (Staged.kind P) t (t.get (P := P) db now h).2 := by
  have hl : Aside (Staged.kind P) t (t.live db (Staged.kind P) now h).2 := live_aside db now h t
  unfold Table.get
  split
  · next hr => rwa [hr] at hl
  · next hr => rwa [hr] at hl

theorem take_aside [DecidableEq S] (expected next : S) :
    Aside (Staged.kind P) t (t.take (P := P) db now h expected next).2 := by
  have hl : Aside (Staged.kind P) t (t.live db (Staged.kind P) now h).2 := live_aside db now h t
  unfold Table.take
  dsimp only
  split
  · next hr => rwa [hr] at hl
  · next r u hr =>
    rw [hr] at hl
    split
    · exact hl
    · split
      · exact hl
      · split
        · exact hl
        · split
          · exact hl
          · apply hl.trans
            have hc : ∀ r : Row, decide (Row.isAt (Staged.kind P) h r = true ∧
                r.status = Stage.text expected ∧ toColumn now ≤ r.expireAt) = true →
                r.kind = Staged.kind P :=
              fun r hr => (isAt_iff.1 (of_decide_eq_true hr).1).1
            dsimp only
            split
            · exact .removeIf hc
            · exact .rewrite hc fun r => ⟨rfl, rfl⟩

theorem delete_aside : Aside κ t (t.delete db κ h).2 := by
  unfold Table.delete
  split
  · exact .refl κ t
  · apply Aside.removeIf
    intro r hr
    exact (isAt_iff.1 hr).1

theorem sweep_aside : Aside κ t (t.sweep db κ now).2 := by
  unfold Table.sweep
  split
  · exact .refl κ t
  · apply Aside.removeIf
    intro r hr
    exact (of_decide_eq_true hr).1

variable {t}

theorem Aside.view {t' : Table} (ha : Aside κ t t') (hκ : Staged.kind P ≠ κ) :
    t'.view P = t.view P := by
  funext k
  rw [Table.view, Table.view, find?_ofKind, find?_ofKind _ _ t, ha.ofKind hκ]

theorem Aside.sound [Staged.Lawful P] {t' : Table} (ha : Aside κ t t') (hκ : Staged.kind P ≠ κ)
    (ht : t.Sound P) : t'.Sound P := by
  refine ⟨ha.unique ht.unique, ?_⟩
  rw [ha.ofKind hκ]
  exact ht.rows

end Aside

end Table

end Handoff
