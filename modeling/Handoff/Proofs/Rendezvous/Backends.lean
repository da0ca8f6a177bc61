import Handoff.Proofs.Rendezvous.Payload
import Handoff.Proofs.Rendezvous.Script

namespace Handoff

variable {P S : Type}

def Timed.Fits [Stage S] [Staged P S] [Staged.Lawful P] (q : Timed P S) : Prop :=
  ∀ h p ttl, q.operation = .put h p ttl → Staged.Lawful.Fits p

/-- `e'` is what a table gives back for `e`. -/
structure Entry.ReadBack (e e' : Entry P) : Prop where
  handle : e'.handle = e.handle
  payload : e'.payload = e.payload
  createdAt : e'.createdAt = e.createdAt
  expireAt : e'.expireAt = min e.expireAt Text.maxSigned

inductive Reply.Agree : Operation P S → Reply P → Reply P → Prop
  | stored {h p ttl e} : Agree (.put h p ttl) (.entry (.ok e)) (.entry (.ok e))
  | found {h e e'} : e.ReadBack e' → Agree (.get h) (.entry (.ok e)) (.entry (.ok e'))
  | taken {h expected next e e'} : e.ReadBack e' →
    Agree (.take h expected next) (.entry (.ok e)) (.entry (.ok e'))
  | failed {o err} : Agree o (.entry (.error err)) (.entry (.error err))
  | deleted {h r} : Agree (.delete h) (.removed r) (.removed r)
  | swept {r} : Agree .sweep (.counted r) (.counted r)
  | sized {r} : Agree .size (.counted r) (.counted r)

namespace Entry

@[simp] theorem clip_clip (e : Entry P) : e.clip.clip = e.clip := by
  have hx := e.clip_expireAt
  have ht := e.clip_times
  have hc : e.clip.createdAt = min e.createdAt Text.maxSigned := rfl
  rw [clip, mk.injEq]
  refine ⟨rfl, ?_, ?_, rfl⟩ <;> omega

theorem clip_of_columnar [Stage S] [Staged P S] [Staged.Lawful P] {e : Entry P}
    (he : e.IsColumnar) : e.clip = e := by
  have hx := expireAt_eq he.2
  have hc := he.2
  rw [clip, mk.injEq]
  refine ⟨rfl, ?_, ?_, rfl⟩ <;> omega

theorem clip_isExpired {now : Nat} (hn : now ≤ Text.maxSigned) (e : Entry P) :
    e.clip.isExpired now = e.isExpired now := by
  rw [isExpired, isExpired, clip_expireAt, decide_eq_decide]
  omega

theorem readBack_clip {e : Entry P} (he : e.createdAt ≤ Text.maxSigned) : e.ReadBack e.clip :=
  ⟨rfl, rfl, Nat.min_eq_left he, e.clip_expireAt⟩

end Entry

namespace View

variable {v : View P} {now : Nat} {h : Handle}

def clip (v : View P) : View P := fun h => (v h).map Entry.clip

def Timely (v : View P) : Prop := ∀ h, ∀ e ∈ v h, e.createdAt ≤ Text.maxSigned

theorem clip_update (v : View P) (h : Handle) (o : Option (Entry P)) :
    clip (Function.update v h o) = Function.update v.clip h (o.map Entry.clip) := by
  funext k
  exact Function.apply_update (fun _ o => o.map Entry.clip) v h o k

@[simp] theorem clip_clip (v : View P) : v.clip.clip = v.clip := by
  funext h
  simp [clip, Function.comp_def]

theorem live_clip (hn : now ≤ Text.maxSigned) :
    v.clip.live now h = (v.live now h).map Entry.clip := by
  rw [live, live, clip, Option.filter_map]
  congr 2
  funext e
  exact congrArg not (e.clip_isExpired hn)

theorem count_clip {c : Entry P → Bool} (hc : ∀ e, c e.clip = c e) :
    v.clip.count c = v.count c := by
  rw [count, count]
  congr 1
  ext h
  simp [clip, hc]

theorem Timely.live (hv : v.Timely) {e : Entry P} (he : v.live now h = some e) :
    e.createdAt ≤ Text.maxSigned :=
  hv h e (live_eq_some.1 he).1

theorem Timely.update (hv : v.Timely) {o : Option (Entry P)}
    (ho : ∀ e ∈ o, e.createdAt ≤ Text.maxSigned) : Timely (Function.update v h o) := by
  intro k
  by_cases hk : k = h
  · subst hk
    rwa [Function.update_self]
  · rw [Function.update_of_ne hk]
    exact hv k

variable [Stage S] [Staged P S]

theorem moved_clip (next : S) (e : Entry P) :
    moved now next e.clip = (moved now next e).map Entry.clip := by
  unfold moved
  split <;> rfl

theorem createdAt_moved {next : S} {e e' : Entry P} (he : e' ∈ moved now next e) :
    e'.createdAt = e.createdAt := by
  unfold moved at he
  split at he <;> cases he
  rfl

variable [DecidableEq S] {q : Timed P S}

theorem Timely.perform (hv : v.Timely) (hn : q.now ≤ Text.maxSigned) :
    (v.perform q).2.Timely := by
  have hnone (h : Handle) : Timely (Function.update v h none) := hv.update (by simp)
  obtain ⟨now, o⟩ := q
  cases o with
  | put h p ttl =>
    dsimp only [View.perform]
    split
    · exact hv
    · apply hv.update
      rintro e ⟨⟩
      exact hn
  | get h =>
    dsimp only [View.perform]
    split
    · exact hv
    · exact hnone h
  | take h expected next =>
    dsimp only [View.perform]
    split
    · next e he =>
      split
      · apply hv.update
        intro e' he'
        rw [createdAt_moved he']
        exact hv.live he
      · exact hv
    · exact hnone h
  | delete h => exact hnone h
  | sweep => exact fun h e he => hv.live he
  | size => exact hv

/-- A clock that stays below the latest time of a column does not tell the entries from those that a
table keeps of them. -/
theorem Timely.perform_clip (hv : v.Timely) (hn : q.now ≤ Text.maxSigned) :
    Reply.Agree q.operation (v.perform q).1 (v.clip.perform q).1 ∧
      (v.clip.perform q).2.clip = (v.perform q).2.clip := by
  obtain ⟨now, o⟩ := q
  have hn : now ≤ Text.maxSigned := hn
  have hnone (h : Handle) :
      clip (Function.update v.clip h none) = clip (Function.update v h none) := by
    rw [clip_update, clip_update, clip_clip]
  cases o with
  | put h p ttl =>
    simp only [View.perform, live_clip hn]
    cases v.live now h with
    | some e => exact ⟨.failed, clip_clip v⟩
    | none =>
      refine ⟨.stored, ?_⟩
      dsimp only [Option.map_none]
      rw [clip_update, clip_update, clip_clip]
  | get h =>
    simp only [View.perform, live_clip hn]
    cases he : v.live now h with
    | some e => exact ⟨.found (Entry.readBack_clip (hv.live he)), clip_clip v⟩
    | none => exact ⟨.failed, hnone h⟩
  | take h expected next =>
    simp only [View.perform, live_clip hn]
    cases he : v.live now h with
    | none => exact ⟨.failed, hnone h⟩
    | some e =>
      have hs : Staged.stage e.clip.payload = Staged.stage e.payload := rfl
      simp only [Option.map_some, hs]
      split
      · refine ⟨.taken (Entry.readBack_clip (hv.live he)), ?_⟩
        dsimp only
        rw [clip_update, clip_update, clip_clip, moved_clip, Option.map_map]
        simp [Function.comp_def]
      · exact ⟨.failed, clip_clip v⟩
  | delete h =>
    refine ⟨?_, hnone h⟩
    have hi : (v.clip h).isSome = (v h).isSome := Option.isSome_map
    simp only [View.perform, hi]
    exact .deleted
  | sweep =>
    have hc := count_clip (v := v) fun e => e.clip_isExpired hn
    refine ⟨?_, ?_⟩
    · simp only [View.perform, hc]
      exact .swept
    · have hl : (fun h => v.clip.live now h) = clip fun h => v.live now h :=
        funext fun h => live_clip hn
      simp only [View.perform, hl, clip_clip]
  | size =>
    have hc : v.clip.count (fun _ => true) = v.count fun _ => true := count_clip fun _ => rfl
    refine ⟨?_, clip_clip v⟩
    simp only [View.perform, hc]
    exact .sized

end View

namespace Table

open View

section Timely

variable [Stage S] [Staged P S] {t : Table} {now : Nat}

theorem isOld_of (hn : now ≤ Text.maxSigned) (e : Entry P) :
    decide ((Row.of e).expireAt < toColumn now) = e.isExpired now := by
  rw [toColumn_natCast, Nat.min_eq_left hn]
  simp [Row.of, Entry.isExpired]

variable [Staged.Lawful P] (ht : t.Sound P)
include ht

theorem Sound.clip_view : (t.view P).clip = t.view P := by
  funext h
  rw [View.clip]
  cases he : t.view P h with
  | none => rfl
  | some e => exact congrArg some (Entry.clip_of_columnar (ht.of_view he).2.1)

theorem Sound.countIf_eq (c : Row → Bool) :
    t.countIf (fun r => r.kind = Staged.kind P ∧ c r) = (t.view P).count fun e => c (.of e) := by
  have hp : (t.rows.filter fun r => decide (r.kind = Staged.kind P ∧ c r = true)).Pairwise
      fun r s => Handle.mk r.handle ≠ Handle.mk s.handle := by
    apply (List.Pairwise.filter _ ht.unique).imp_of_mem
    intro r s hr hs hrs he
    have hr := of_decide_eq_true (List.mem_filter.1 hr).2
    have hs := of_decide_eq_true (List.mem_filter.1 hs).2
    exact hrs ⟨hr.1.trans hs.1.symm, congrArg Handle.text he⟩
  rw [countIf, length_eq_ncard hp, View.count]
  congr 1
  ext h
  constructor
  · rintro ⟨r, hr, rfl⟩
    obtain ⟨hm, hc⟩ := List.mem_filter.1 hr
    obtain ⟨hk, hc⟩ := of_decide_eq_true hc
    have hf := ht.unique.find?_eq_some (h := ⟨r.handle⟩) hm (isAt_iff.2 ⟨hk, rfl⟩)
    obtain ⟨e, he, -, -, rfl⟩ := ht.exists_of_find? hf
    exact ⟨e, he, hc⟩
  · rintro ⟨e, he, hc⟩
    obtain ⟨hf, -, rfl⟩ := ht.of_view he
    refine ⟨.of e, List.mem_filter.2 ⟨List.mem_of_find?_eq_some hf, ?_⟩, rfl⟩
    exact decide_eq_true ⟨rfl, hc⟩

variable (hn : now ≤ Text.maxSigned)
include hn

theorem Sound.view_expire (h : Handle) : (t.purge (Staged.kind P) now h).view P =
    Function.update (t.view P) h ((t.view P).live now h) := by
  rw [ht.view_purge, View.live]
  simp only [isOld_of hn]

theorem Sound.live_absent (ho : t.isClosed = false) {h : Handle}
    (hl : (t.view P).live now h = none) :
    ∃ t', t.live .willing (Staged.kind P) now h = (.error .notFound, t') ∧
      t'.view P = Function.update (t.view P) h none := by
  obtain ⟨e, -, he, hx⟩ | ⟨t', o, ht', -⟩ := ht.live_view now h ho
  · cases hl.symm.trans (live_eq_some.2 ⟨he, hx⟩)
  · refine ⟨t', ht', ?_⟩
    rw [live, refuses_of_open ho, refuses_of_open ho] at ht'
    dsimp only at ht'
    rw [ht.find?_eq] at ht'
    cases hv : t.view P h with
    | none =>
      rw [hv] at ht'
      cases ht'
      rw [← hv, Function.update_eq_self]
    | some e =>
      rw [hv] at ht'
      dsimp only [Option.map_some] at ht'
      split at ht'
      · cases ht'
        rw [ht.view_expire hn, hl]
      · cases ht'

variable (ho : t.isClosed = false)
include ho

theorem Sound.put_live {h : Handle} {e : Entry P} (hl : (t.view P).live now h = some e) (p : P)
    (ttl : Nat) :
    (t.put .willing now h p ttl).1 = .error .duplicate ∧
      (t.put .willing now h p ttl).2.view P = t.view P := by
  have hv := ht.view_expire hn h
  have hs : (t.purge (Staged.kind P) now h).Sound P := ht.removeIf _
  have hd : ((t.purge (Staged.kind P) now h).find? (Staged.kind P) h).isSome = true := by
    rw [hs.isSome_find?, hv, Function.update_self, hl]
    rfl
  simp only [Table.put, refuses_purge, refuses_of_open ho]
  rw [if_pos hd, hv, hl, ← (live_eq_some.1 hl).1, Function.update_eq_self]
  exact ⟨rfl, rfl⟩

theorem Sound.put_absent {h : Handle} (hl : (t.view P).live now h = none) {p : P}
    (hp : Staged.Lawful.Fits p) (ttl : Nat) :
    (t.put .willing now h p ttl).1 = .ok ⟨h, now, ttl, p⟩ ∧ (t.put .willing now h p ttl).2.view P =
      Function.update (t.view P) h (some (Entry.clip ⟨h, now, ttl, p⟩)) := by
  have hv := ht.view_expire hn h
  rw [hl] at hv
  have hs : (t.purge (Staged.kind P) now h).Sound P := ht.removeIf _
  have hnone := (congrFun hv h).trans (Function.update_self ..)
  have hd : ((t.purge (Staged.kind P) now h).find? (Staged.kind P) h).isSome = false := by
    rw [hs.isSome_find?, hnone]
    rfl
  have hc : (Entry.clip ⟨h, now, ttl, p⟩ : Entry P).IsColumnar := Entry.clip_isColumnar hp
  simp only [Table.put, refuses_purge, refuses_of_open ho]
  rw [if_neg (Bool.eq_false_iff.1 hd), row_clip (⟨h, now, ttl, p⟩ : Entry P)]
  refine ⟨rfl, (hs.view_append hc hnone).trans ?_⟩
  rw [hv]
  exact Function.update_idem ..

omit hn in
theorem Sound.get_live {h : Handle} {e : Entry P} (hl : (t.view P).live now h = some e) :
    (t.get .willing now h).1 = .ok e ∧ (t.get (P := P) .willing now h).2.view P = t.view P := by
  obtain ⟨he, hx⟩ := live_eq_some.1 hl
  obtain ⟨e', hr, he', -⟩ | ⟨-, -, -, ha, -⟩ := ht.live_view now h ho
  · cases he.symm.trans he'
    obtain ⟨-, hc, rfl⟩ := ht.of_view he
    rw [Table.get, hr]
    exact ⟨decode_of hc, rfl⟩
  · cases (ha e he).symm.trans hx

theorem Sound.get_absent {h : Handle} (hl : (t.view P).live now h = none) :
    (t.get (P := P) .willing now h).1 = .error .notFound ∧
      (t.get (P := P) .willing now h).2.view P = Function.update (t.view P) h none := by
  obtain ⟨t', hr, hv⟩ := ht.live_absent hn ho hl
  rw [Table.get, hr]
  exact ⟨rfl, hv⟩

theorem Sound.take_absent [DecidableEq S] {h : Handle} (hl : (t.view P).live now h = none)
    (expected next : S) :
    (t.take (P := P) .willing now h expected next).1 = .error .notFound ∧
      (t.take (P := P) .willing now h expected next).2.view P =
        Function.update (t.view P) h none := by
  obtain ⟨t', hr, hv⟩ := ht.live_absent hn ho hl
  unfold Table.take
  dsimp only
  rw [hr]
  exact ⟨rfl, hv⟩

theorem Sound.sweep_live :
    (t.sweep .willing (Staged.kind P) now).1 = .ok ((t.view P).count (·.isExpired now)) ∧
      (t.sweep .willing (Staged.kind P) now).2.view P = fun h => (t.view P).live now h := by
  have hc := ht.countIf_eq fun r => decide (r.expireAt < toColumn now)
  simp only [isOld_of hn, decide_eq_true_eq] at hc
  unfold Table.sweep
  rw [refuses_of_open ho]
  dsimp only
  refine ⟨congrArg _ hc, ?_⟩
  funext h
  rw [ht.view_removeIf, View.live]
  congr 1
  funext e
  have hk : (Row.of e).kind = Staged.kind P := rfl
  simp only [hk, true_and, isOld_of hn]

omit hn

theorem Sound.delete_eq (h : Handle) :
    (t.delete .willing (Staged.kind P) h).1 = .ok (t.view P h).isSome ∧
      (t.delete .willing (Staged.kind P) h).2.view P = Function.update (t.view P) h none := by
  unfold Table.delete
  rw [refuses_of_open ho, ht.isSome_find?]
  exact ⟨rfl, ht.view_remove h⟩

theorem Sound.size_eq :
    (t.size .willing (Staged.kind P)).1 = .ok ((t.view P).count fun _ => true) ∧
      (t.size .willing (Staged.kind P)).2.view P = t.view P := by
  have hc := ht.countIf_eq fun _ => true
  simp only [and_true] at hc
  unfold Table.size
  rw [refuses_of_open ho, hc]
  exact ⟨rfl, rfl⟩

end Timely

variable [DecidableEq S] [Stage S] [Staged P S]

def perform (q : Timed P S) (t : Table) : Reply P × Table :=
  match q.operation with
  | .put h p ttl => Prod.map .entry id (t.put .willing q.now h p ttl)
  | .get h => Prod.map .entry id (t.get .willing q.now h)
  | .take h expected next => Prod.map .entry id (t.take .willing q.now h expected next)
  | .delete h => Prod.map .removed id (t.delete .willing (Staged.kind P) h)
  | .sweep => Prod.map .counted id (t.sweep .willing (Staged.kind P) q.now)
  | .size => Prod.map .counted id (t.size .willing (Staged.kind P))

def after (qs : List (Timed P S)) : Table := qs.foldl (fun t q => (t.perform q).2) .empty

theorem after_concat (qs : List (Timed P S)) (q : Timed P S) :
    after (qs ++ [q]) = ((after qs).perform q).2 := by
  simp [after]

theorem perform_aside (q : Timed P S) (t : Table) :
    Aside (Staged.kind P) t (t.perform q).2 := by
  obtain ⟨now, o⟩ := q
  cases o with
  | put h p ttl => exact put_aside .willing now h t p ttl
  | get h => exact get_aside (P := P) .willing now h t
  | take h expected next => exact take_aside (P := P) .willing now h t expected next
  | delete h => exact delete_aside .willing h t
  | sweep => exact sweep_aside .willing now t
  | size =>
    change Aside _ t (t.size .willing _).2
    unfold Table.size
    split <;> exact .refl _ t

variable [Staged.Lawful P] {t : Table} {q : Timed P S}

theorem Sound.perform (ht : t.Sound P) (hn : q.now ≤ Text.maxWord) (hq : q.Fits) :
    (t.perform q).2.Sound P := by
  obtain ⟨now, o⟩ := q
  cases o with
  | put h p ttl => exact (ht.put now h (hq h p ttl rfl) ttl).1
  | get h => exact (ht.get now h).1
  | take h expected next => exact (ht.take now h hn expected next).1
  | delete h => exact (ht.delete h).1
  | sweep => exact (ht.sweep now .willing).1
  | size =>
    change (t.size .willing _).2.Sound P
    unfold Table.size
    split <;> exact ht

theorem Sound.perform_view (ht : t.Sound P) (ho : t.isClosed = false)
    (hn : q.now ≤ Text.maxSigned) (hq : q.Fits) :
    (t.perform q).1 = ((t.view P).perform q).1 ∧
      (t.perform q).2.view P = ((t.view P).perform q).2.clip := by
  have hw : q.now ≤ Text.maxWord := hn.trans (by decide)
  have hclip {v : View P} (hv : (t.perform q).2.view P = v) :
      (t.perform q).2.view P = v.clip := by
    rw [← hv, (ht.perform hw hq).clip_view]
  obtain ⟨now, o⟩ := q
  have hn : now ≤ Text.maxSigned := hn
  cases o with
  | put h p ttl =>
    cases hl : (t.view P).live now h with
    | some e =>
      obtain ⟨hr, hv⟩ := ht.put_live hn ho hl p ttl
      simp only [View.perform, hl]
      exact ⟨congrArg _ hr, hclip hv⟩
    | none =>
      obtain ⟨hr, hv⟩ := ht.put_absent hn ho hl (hq h p ttl rfl) ttl
      simp only [View.perform, hl, clip_update, ht.clip_view]
      exact ⟨congrArg _ hr, hv⟩
  | get h =>
    cases hl : (t.view P).live now h with
    | some e =>
      obtain ⟨hr, hv⟩ := ht.get_live ho hl
      simp only [View.perform, hl]
      exact ⟨congrArg _ hr, hclip hv⟩
    | none =>
      obtain ⟨hr, hv⟩ := ht.get_absent hn ho hl
      simp only [View.perform, hl]
      exact ⟨congrArg _ hr, hclip hv⟩
  | take h expected next =>
    cases hl : (t.view P).live now h with
    | some e =>
      obtain ⟨he, hx⟩ := live_eq_some.1 hl
      have hr := (ht.take_live now h ho hw he hx expected next).2
      simp only [View.perform, hl]
      split at hr
      · next hs =>
        rw [if_pos hs]
        exact ⟨congrArg _ hr.1, hclip hr.2⟩
      · next hs =>
        rw [if_neg hs]
        obtain ⟨hr, ht'⟩ := Prod.ext_iff.1 hr
        exact ⟨congrArg _ hr, hclip (congrArg (view P) ht')⟩
    | none =>
      obtain ⟨hr, hv⟩ := ht.take_absent hn ho hl expected next
      simp only [View.perform, hl]
      exact ⟨congrArg _ hr, hclip hv⟩
  | delete h =>
    obtain ⟨hr, hv⟩ := ht.delete_eq ho h
    exact ⟨congrArg _ hr, hclip hv⟩
  | sweep =>
    obtain ⟨hr, hv⟩ := ht.sweep_live hn ho
    exact ⟨congrArg _ hr, hclip hv⟩
  | size =>
    obtain ⟨hr, hv⟩ := ht.size_eq ho
    exact ⟨congrArg _ hr, hclip hv⟩

end Table

/-- The table holds what the store in memory does, with the times that its columns can hold. -/
structure Mirrors [Stage S] [Staged P S] [Staged.Lawful P] (m : Memory P) (t : Table) : Prop where
  memory : m.Sound
  timely : m.view.Timely
  table : t.Sound P
  isOpen : t.isClosed = false
  view_eq : t.view P = m.view.clip

namespace Mirrors

variable [DecidableEq S] [Stage S] [Staged P S] [Staged.Lawful P] {m : Memory P} {t : Table}
  {q : Timed P S}

theorem step (h : Mirrors m t) (hn : q.now ≤ Text.maxSigned) (hq : q.Fits) :
    Reply.Agree q.operation (m.perform q).1 (t.perform q).1 ∧
      Mirrors (m.perform q).2 (t.perform q).2 := by
  obtain ⟨hm, hmv⟩ := h.memory.perform_view q
  obtain ⟨ht, htv⟩ := h.table.perform_view h.isOpen hn hq
  obtain ⟨ha, hv⟩ := h.timely.perform_clip hn
  rw [h.view_eq] at ht htv
  constructor
  · rwa [hm, ht]
  · exact {
      memory := h.memory.perform q
      timely := hmv ▸ h.timely.perform hn
      table := h.table.perform (hn.trans (by decide)) hq
      isOpen := (Table.perform_aside q t).isClosed.trans h.isOpen
      view_eq := by rw [htv, hv, hmv] }

theorem after {qs : List (Timed P S)} (hq : ∀ q ∈ qs, q.now ≤ Text.maxSigned ∧ q.Fits) :
    Mirrors (Memory.after qs) (Table.after qs) := by
  induction qs using List.reverseRecOn with
  | nil =>
    exact {
      memory := Memory.sound_empty
      timely := fun h e he => nomatch he
      table := Table.sound_empty
      isOpen := rfl
      view_eq := rfl }
  | append_singleton qs q ih =>
    have hl := hq q (List.mem_append_right _ (List.mem_singleton_self q))
    rw [Memory.after_concat, Table.after_concat]
    exact ((ih fun x hx => hq x (List.mem_append_left _ hx)).step hl.1 hl.2).2

/-- After any script, whichever way its clock goes, a fresh store in memory and a fresh table answer
the next operation alike; an entry read back from the table expires when the one in memory does, or
at the latest time of a column. -/
theorem agree_after {qs : List (Timed P S)} {q : Timed P S}
    (hq : ∀ x ∈ qs ++ [q], x.now ≤ Text.maxSigned ∧ x.Fits) :
    Reply.Agree q.operation ((Memory.after qs).perform q).1 ((Table.after qs).perform q).1 := by
  have hl := hq q (List.mem_append_right _ (List.mem_singleton_self q))
  have hm : Mirrors (Memory.after qs) (Table.after qs) :=
    .after fun x hx => hq x (List.mem_append_left _ hx)
  exact (hm.step hl.1 hl.2).1

section Example

/-- The sign-in never expires in memory, and the clock goes back before it is looked for. -/
def backdating : List (Timed Qr.Session Qr.Status) :=
  [⟨9, .put ⟨"a"⟩ (.pending "10.0.0.8" "Mozilla") Text.maxWord⟩]

def lapsing : List (Timed OAuth.State OneShot) :=
  [⟨0, .put ⟨"b"⟩ ⟨.issued, .link, some 7⟩ 8⟩, ⟨9, .sweep⟩]

def keeping : List (Timed OAuth.PendingLink OneShot) :=
  [⟨0, .put ⟨"c"⟩ ⟨.issued, 7, ⟨"ext", "Ext", none, some "a@x.io"⟩⟩ 8⟩]

theorem agree_after_scripts :
    Reply.Agree (S := Qr.Status) (.get ⟨"a"⟩)
        ((Memory.after backdating).perform ⟨4, .get ⟨"a"⟩⟩).1
        ((Table.after backdating).perform ⟨4, .get ⟨"a"⟩⟩).1 ∧
      Reply.Agree (S := OneShot) .size ((Memory.after lapsing).perform ⟨9, .size⟩).1
        ((Table.after lapsing).perform ⟨9, .size⟩).1 ∧
      Reply.Agree (S := OneShot) (.take ⟨"c"⟩ .consumed .consumed)
        ((Memory.after keeping).perform ⟨8, .take ⟨"c"⟩ .consumed .consumed⟩).1
        ((Table.after keeping).perform ⟨8, .take ⟨"c"⟩ .consumed .consumed⟩).1 := by
  refine ⟨agree_after (q := ⟨4, .get ⟨"a"⟩⟩) ?_, agree_after (q := ⟨9, .size⟩) ?_,
    agree_after (q := ⟨8, .take ⟨"c"⟩ OneShot.consumed .consumed⟩) ?_⟩
  · intro x hx
    obtain rfl | rfl : x = ⟨9, .put ⟨"a"⟩ (.pending "10.0.0.8" "Mozilla") Text.maxWord⟩ ∨
        x = ⟨4, .get ⟨"a"⟩⟩ := by simpa [backdating] using hx
    · refine ⟨by decide, ?_⟩
      rintro _ _ _ ⟨⟩
      exact Qr.Session.fits_pending _ _
    · exact ⟨by decide, by rintro _ _ _ ⟨⟩⟩
  · intro x hx
    refine ⟨?_, fun _ _ _ _ => trivial⟩
    have hle : ∀ x ∈ lapsing ++ [⟨9, .size⟩], x.now ≤ 9 := by simp [lapsing]
    exact (hle x hx).trans (by decide)
  · intro x hx
    refine ⟨?_, fun _ _ _ _ => trivial⟩
    have hle : ∀ x ∈ keeping ++ [⟨8, .take ⟨"c"⟩ .consumed .consumed⟩], x.now ≤ 8 := by
      simp [keeping]
    exact (hle x hx).trans (by decide)

end Example

end Mirrors

end Handoff
