import Handoff.Proofs.Rendezvous.Payload
import Handoff.Proofs.Rendezvous.Script

namespace Handoff

open View

variable {P S : Type} [DecidableEq S] [Stage S] [Staged P S]

namespace Ideal

def step (q : Timed P S) (v : View P) : View P :=
  match q.operation with
  | .put h p ttl =>
    match v.live q.now h with
    | some _ => v
    | none => Function.update v h (some ⟨h, q.now, ttl, p⟩)
  | .take h expected next =>
    match v.live q.now h with
    | some e =>
      if Staged.stage e.payload = expected then Function.update v h (moved q.now next e) else v
    | none => v
  | .delete h => Function.update v h none
  | .get _ => v
  | .sweep => v
  | .size => v

def after (qs : List (Timed P S)) : View P := qs.foldl (fun v q => step q v) fun _ => none

theorem after_concat (qs : List (Timed P S)) (q : Timed P S) :
    after (qs ++ [q]) = step q (after qs) := by
  simp [after]

theorem after_filter (qs : List (Timed P S)) : after (qs.filter (!·.isSweep)) = after qs := by
  induction qs using List.reverseRecOn with
  | nil => rfl
  | append_singleton qs q ih =>
    obtain ⟨now, o⟩ := q
    rw [List.filter_append, after_concat, ← ih]
    cases o with
    | sweep => exact congrArg after (List.append_nil _)
    | put | get | take | delete | size => exact after_concat _ _

theorem step_eq_some {q : Timed P S} {v : View P} {h : Handle} {e : Entry P}
    (he : step q v h = some e) :
    ((∃ x, v h = some x ∧ e = { x with payload := e.payload }) ∧
      ∀ p ttl, q.operation = .put h p ttl → ∃ y, v.live q.now h = some y) ∨
    ∃ p ttl, q.operation = .put h p ttl ∧ v.live q.now h = none ∧ e = ⟨h, q.now, ttl, p⟩ := by
  obtain ⟨now, o⟩ := q
  cases o with
  | put k p ttl =>
    dsimp only [step] at he
    cases hl : v.live now k with
    | some y =>
      rw [hl] at he
      refine .inl ⟨⟨e, he, rfl⟩, ?_⟩
      rintro _ _ ⟨⟩
      exact ⟨y, hl⟩
    | none =>
      rw [hl] at he
      dsimp only at he
      rw [Function.update_apply] at he
      split at he
      · next hk =>
        subst hk
        cases he
        exact .inr ⟨p, ttl, rfl, hl, rfl⟩
      · next hk =>
        refine .inl ⟨⟨e, he, rfl⟩, ?_⟩
        rintro _ _ ⟨⟩
        exact absurd rfl hk
  | take k expected next =>
    refine .inl ⟨?_, by rintro _ _ ⟨⟩⟩
    dsimp only [step] at he
    cases hl : v.live now k with
    | none =>
      rw [hl] at he
      exact ⟨e, he, rfl⟩
    | some x =>
      rw [hl] at he
      dsimp only at he
      split at he
      · rw [Function.update_apply] at he
        split at he
        · next hk =>
          subst hk
          unfold moved at he
          split at he <;> cases he
          exact ⟨x, (live_eq_some.1 hl).1, rfl⟩
        · exact ⟨e, he, rfl⟩
      · exact ⟨e, he, rfl⟩
  | delete k =>
    refine .inl ⟨⟨e, ?_, rfl⟩, by rintro _ _ ⟨⟩⟩
    simp only [step, Function.update_apply] at he
    split at he
    · cases he
    · exact he
  | get | sweep | size => exact .inl ⟨⟨e, he, rfl⟩, by rintro _ _ ⟨⟩⟩

end Ideal

namespace View

variable {now : Nat} {v v' : View P}

omit [DecidableEq S] [Stage S] [Staged P S] in
theorem Swept.update₂ (hv : Swept now v v') (h : Handle) (o : Option (Entry P)) :
    Swept now (Function.update v h o) (Function.update v' h o) := by
  intro k
  by_cases hk : k = h
  · subst hk
    rw [Function.update_self, Function.update_self]
    exact .refl now o
  · rw [Function.update_of_ne hk, Function.update_of_ne hk]
    exact hv k

omit [DecidableEq S] [Stage S] [Staged P S] in
theorem Swept.live_eq (hv : Swept now v v') (h : Handle) : v'.live now h = v.live now h := by
  obtain ho | ⟨ho, hx⟩ := hv h
  · rw [live, ho, live]
  · rw [live, ho, live_eq_none.2 hx]
    rfl

omit [DecidableEq S] [Stage S] [Staged P S] in
theorem Swept.forget (hv : Swept now v v') {h : Handle} (hl : v.live now h = none) :
    Swept now v (Function.update v' h none) := by
  intro k
  by_cases hk : k = h
  · subst hk
    rw [Function.update_self]
    exact .inr ⟨rfl, live_eq_none.1 hl⟩
  · rw [Function.update_of_ne hk]
    exact hv k

/-- A store that forgets goes on with the ideal one: it lacks expired entries only. -/
theorem Swept.step {q : Timed P S} (hv : Swept q.now v v') :
    Swept q.now (Ideal.step q v) (v'.perform q).2 := by
  obtain ⟨now, o⟩ := q
  cases o with
  | put h p ttl =>
    simp only [Ideal.step, perform, hv.live_eq h]
    cases hl : v.live now h with
    | some e => exact hv
    | none => exact hv.update₂ h _
  | get h =>
    simp only [Ideal.step, perform, hv.live_eq h]
    cases hl : v.live now h with
    | some e => exact hv
    | none => exact hv.forget hl
  | take h expected next =>
    simp only [Ideal.step, perform, hv.live_eq h]
    cases hl : v.live now h with
    | some e =>
      dsimp only
      split
      · exact hv.update₂ h _
      · exact hv
    | none => exact hv.forget hl
  | delete h => exact hv.update₂ h none
  | sweep =>
    intro h
    change Fades now (v h) (v'.live now h)
    rw [hv.live_eq h]
    cases hx : v.live now h with
    | some e => exact .inl (live_eq_some.1 hx).1.symm
    | none => exact .inr ⟨rfl, live_eq_none.1 hx⟩
  | size => exact hv

end View

namespace Memory

/-- The store answers at `now` as one that holds the entries `v` and shows the live ones. -/
structure Shows (now : Nat) (v : View P) (m : Memory P) : Prop where
  put_duplicate (h : Handle) (p : P) (ttl : Nat) :
    (m.put now h p ttl).1 = .error .duplicate ↔ ∃ e, v.live now h = some e
  put_ok (h : Handle) (p : P) (ttl : Nat) :
    (m.put now h p ttl).1 = .ok ⟨h, now, ttl, p⟩ ↔ v.live now h = none
  get_notFound (h : Handle) : (m.get now h).1 = .error .notFound ↔ v.live now h = none
  get_ok (h : Handle) (e : Entry P) : (m.get now h).1 = .ok e ↔ v.live now h = some e
  take_notFound (h : Handle) (expected next : S) :
    (m.take now h expected next).1 = .error .notFound ↔ v.live now h = none
  take_conflict (h : Handle) (expected next : S) (current : String) :
    (m.take now h expected next).1 = .error (.conflict current) ↔ ∃ e, v.live now h = some e ∧
      Staged.stage e.payload ≠ expected ∧ current = Stage.text (Staged.stage e.payload)
  take_ok (h : Handle) (expected next : S) (e : Entry P) :
    (m.take now h expected next).1 = .ok e ↔
      v.live now h = some e ∧ Staged.stage e.payload = expected

theorem shows_of_live {now : Nat} {v : View P} {m : Memory P}
    (hl : ∀ h, m.view.live now h = v.live now h) : m.Shows now v where
  put_duplicate h p ttl := by
    rw [put_eq, hl]
    cases v.live now h <;> simp
  put_ok h p ttl := by
    rw [put_eq, hl]
    cases v.live now h <;> simp
  get_notFound h := by
    rw [get_eq, hl]
    cases v.live now h <;> simp
  get_ok h e := by
    rw [get_eq, hl]
    cases v.live now h <;> simp
  take_notFound h expected next := by
    rw [take_eq, hl]
    cases v.live now h with
    | none => simp
    | some e => by_cases hs : Staged.stage e.payload = expected <;> simp [hs]
  take_conflict h expected next current := by
    rw [take_eq, hl]
    cases v.live now h with
    | none => simp
    | some e =>
      by_cases hs : Staged.stage e.payload = expected
      · simp [hs]
      · simp [hs, eq_comm (a := current)]
  take_ok h expected next e := by
    rw [take_eq, hl]
    cases v.live now h with
    | none => simp
    | some e' =>
      by_cases hs : Staged.stage e'.payload = expected
      · simp [hs]
        rintro rfl
        exact hs
      · simp [hs]
        rintro rfl
        exact hs

/-- The last put under `h` that succeeded was at `now`, for `ttl` milliseconds. -/
inductive StoredAt (h : Handle) (now ttl : Nat) : List (Timed P S) → Prop
  | put {qs : List (Timed P S)} {p : P} : ((after qs).put now h p ttl).1 = .ok ⟨h, now, ttl, p⟩ →
    StoredAt h now ttl (qs ++ [⟨now, .put h p ttl⟩])
  | later {qs : List (Timed P S)} {q : Timed P S} : StoredAt h now ttl qs →
    (∀ p ttl', q.operation = .put h p ttl' →
      ((after qs).put q.now h p ttl').1 = .error .duplicate) →
    StoredAt h now ttl (qs ++ [q])

theorem swept_after {qs : List (Timed P S)} {now : Nat} (ho : Timed.InOrder qs now) :
    Swept now (Ideal.after qs) (after qs).view := by
  induction qs using List.reverseRecOn generalizing now with
  | nil => exact .refl now _
  | append_singleton qs q ih =>
    obtain ⟨hq, -, hle⟩ := Timed.inOrder_concat.1 ho
    rw [after_concat, Ideal.after_concat, ((sound_after qs).perform_view q).2]
    exact (ih hq).step.later hle

theorem shows_after {qs : List (Timed P S)} {now : Nat} (ho : Timed.InOrder qs now) :
    (after qs).Shows now (Ideal.after qs) :=
  shows_of_live (swept_after ho).live_eq

theorem storedAt_after {qs : List (Timed P S)} {now : Nat} (ho : Timed.InOrder qs now)
    {h : Handle} {e : Entry P} (he : Ideal.after qs h = some e) :
    e.handle = h ∧ StoredAt h e.createdAt e.ttl qs := by
  induction qs using List.reverseRecOn generalizing now e with
  | nil => cases he
  | append_singleton qs q ih =>
    obtain ⟨hq, -, -⟩ := Timed.inOrder_concat.1 ho
    have hs := shows_after hq
    rw [Ideal.after_concat] at he
    obtain ⟨⟨x, hx, hd⟩, hp⟩ | ⟨p, ttl, hp, hl, rfl⟩ := Ideal.step_eq_some he
    · obtain ⟨hh, hst⟩ := ih hq hx
      rw [hd]
      exact ⟨hh, hst.later fun p ttl ho => (hs.put_duplicate h p ttl).2 (hp p ttl ho)⟩
    · obtain ⟨t, o⟩ := q
      cases hp
      exact ⟨rfl, .put ((hs.put_ok h p ttl).2 hl)⟩

theorem stage_after_take [Staged.Lawful P] {qs : List (Timed P S)} {now : Nat}
    (ho : Timed.InOrder qs now) {h : Handle} {expected next : S} {e : Entry P}
    (ht : ((after qs).take now h expected next).1 = .ok e) :
    (Ideal.after (qs ++ [⟨now, .take h expected next⟩]) h).map (Staged.stage ·.payload) =
      if Stage.isTerminal next then none else some next := by
  obtain ⟨hl, hs⟩ := ((shows_after ho).take_ok h expected next e).1 ht
  rw [Ideal.after_concat]
  dsimp only [Ideal.step]
  rw [hl]
  dsimp only
  rw [if_pos hs, Function.update_self, moved]
  split
  · rfl
  · exact congrArg some (Staged.Lawful.stage_advance ..)

theorem found?_after {qs qs' : List (Timed P S)} {now : Nat} (ho : Timed.InOrder qs now)
    (ho' : Timed.InOrder qs' now) (hf : qs'.filter (!·.isSweep) = qs.filter (!·.isSweep))
    (o : Operation P S) :
    ((after qs').perform ⟨now, o⟩).1.found? = ((after qs).perform ⟨now, o⟩).1.found? := by
  have hi : Ideal.after qs' = Ideal.after qs := by
    rw [← Ideal.after_filter, hf, Ideal.after_filter]
  have hl (h : Handle) : (after qs').view.live now h = (after qs).view.live now h := by
    rw [(swept_after ho').live_eq, (swept_after ho).live_eq, hi]
  cases o with
  | put h p ttl =>
    simp only [perform, put_eq, hl]
    cases (after qs).view.live now h <;> rfl
  | get h =>
    simp only [perform, get_eq, hl]
    cases (after qs).view.live now h <;> rfl
  | take h expected next =>
    simp only [perform, take_eq, hl]
    cases (after qs).view.live now h with
    | none => rfl
    | some e =>
      dsimp only
      split <;> rfl
  | delete | sweep | size => rfl

/-- After any script whose clock does not go back, the store in memory answers as the ideal store
that never forgets and ignores sweeps: the times of what it keeps are those of the last put, its
stage that of the last take, and sweeps put in or left out anywhere change no answer. -/
theorem ideal_after [Staged.Lawful P] {qs : List (Timed P S)} {now : Nat}
    (ho : Timed.InOrder qs now) :
    (after qs).Shows now (Ideal.after qs) ∧
      (∀ h e, Ideal.after qs h = some e → e.handle = h ∧ StoredAt h e.createdAt e.ttl qs) ∧
      (∀ h expected next e, ((after qs).take now h expected next).1 = .ok e →
        (Ideal.after (qs ++ [⟨now, .take h expected next⟩]) h).map (Staged.stage ·.payload) =
          if Stage.isTerminal next then none else some next) ∧
      ∀ qs' : List (Timed P S), Timed.InOrder qs' now →
        qs'.filter (!·.isSweep) = qs.filter (!·.isSweep) → ∀ o : Operation P S,
        ((after qs').perform ⟨now, o⟩).1.found? = ((after qs).perform ⟨now, o⟩).1.found? :=
  ⟨shows_after ho, fun _ _ => storedAt_after ho, fun _ _ _ _ => stage_after_take ho,
    fun _ ho' hf o => found?_after ho ho' hf o⟩

section Example

/-- The sign-in expires, is put anew for as long as there is time, and is scanned. -/
def scanning : List (Timed Qr.Session Qr.Status) :=
  [⟨0, .put ⟨"a"⟩ (.pending "10.0.0.8" "Mozilla") 10⟩, ⟨11, .get ⟨"a"⟩⟩, ⟨11, .sweep⟩,
    ⟨12, .put ⟨"a"⟩ (.pending "10.0.0.9" "Mozilla") Text.maxWord⟩,
    ⟨12, .take ⟨"a"⟩ .pending .scanned⟩]

def redeeming : List (Timed OAuth.State OneShot) :=
  [⟨0, .put ⟨"b"⟩ ⟨.issued, .login, none⟩ 8⟩, ⟨8, .take ⟨"b"⟩ .issued .consumed⟩]

def offering : List (Timed OAuth.PendingLink OneShot) :=
  [⟨0, .put ⟨"c"⟩ ⟨.issued, 7, ⟨"ext", "Ext", none, some "a@x.io"⟩⟩ 8⟩, ⟨3, .delete ⟨"d"⟩⟩]

theorem ideal_after_scripts :
    (Timed.InOrder scanning Text.maxWord ∧ ((after scanning).get Text.maxWord ⟨"a"⟩).1 =
      .ok ⟨⟨"a"⟩, 12, Text.maxWord, ⟨.scanned, "10.0.0.9", "Mozilla", some 12⟩⟩) ∧
    (Timed.InOrder redeeming 8 ∧
      ((after redeeming).take 8 ⟨"b"⟩ .issued .consumed).1 = .error .notFound) ∧
    Timed.InOrder offering 8 ∧
      ((after offering).take 8 ⟨"c"⟩ .consumed .consumed).1 = .error (.conflict "issued") := by
  have hs : Timed.InOrder scanning Text.maxWord := by simp [Timed.InOrder, scanning, Text.maxWord]
  have hr : Timed.InOrder redeeming 8 := by simp [Timed.InOrder, redeeming]
  have ho : Timed.InOrder offering 8 := by simp [Timed.InOrder, offering]
  exact ⟨⟨hs, ((ideal_after hs).1.get_ok _ _).2 rfl⟩,
    ⟨hr, ((ideal_after hr).1.take_notFound ..).2 rfl⟩,
    ho, ((ideal_after ho).1.take_conflict ..).2 ⟨_, rfl, by decide, rfl⟩⟩

end Example

end Memory

end Handoff
