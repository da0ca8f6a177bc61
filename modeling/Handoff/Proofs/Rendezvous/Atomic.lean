import Handoff.Proofs.Rendezvous.Table
import Handoff.Qr.Session

namespace Handoff

/-- What a put relies on, whose two statements are no transaction: whatever keeps the database from
inserting a row has kept it from removing one just before. -/
def Engine.Steady (db : Engine) : Prop := db .purge = none → db .insert = none

namespace Table

/-- The row of this kind and handle, and the rows around it, which are of another key. -/
structure Stands (κ : Kind) (h : Handle) (r : Row) (before after : List Row) (t : Table) :
    Prop where
  isAt : Row.isAt κ h r = true
  rows : t.rows = before ++ r :: after
  others : ∀ s ∈ before ++ after, Row.isAt κ h s = false

def Replaced (κ : Kind) (h : Handle) (r : Row) (rs : List Row) (t t' : Table) : Prop :=
  ∃ before after, Stands κ h r before after t ∧ t' = { t with rows := before ++ (rs ++ after) }

def Spared (κ : Kind) (now : Nat) (h : Handle) : StoreError → Table → Table → Prop
  | .notFound, t, t' => t' = t ∨ ∃ r, Replaced κ h r [] t t' ∧ ofColumn r.expireAt < now
  | _, t, t' => t' = t

section Rows

variable {κ : Kind} {now : Nat} {h : Handle} {r : Row} {before after : List Row} {t t' : Table}

theorem Spared.refl (κ : Kind) (now : Nat) (h : Handle) (err : StoreError) (t : Table) :
    Spared κ now h err t t := by
  cases err with
  | notFound => exact .inl rfl
  | conflict current => rfl
  | duplicate => rfl
  | backend text => rfl

theorem Unique.stands (ht : t.Unique) (hf : t.find? κ h = some r) :
    ∃ before after, Stands κ h r before after t := by
  obtain ⟨hr, before, after, hrows, hb⟩ := List.find?_eq_some_iff_append.1 hf
  have hp := ht.not_both κ h
  rw [hrows] at hp
  have ha := (List.pairwise_cons.1 (List.pairwise_append.1 hp).2.1).1
  refine ⟨before, after, hr, hrows, fun s hs => ?_⟩
  cases List.mem_append.1 hs with
  | inl hs => simpa using hb s hs
  | inr hs => exact Bool.eq_false_iff.2 fun hs' => ha s hs ⟨hr, hs'⟩

section Picked

/-! A condition on the rows of this kind and handle. -/

variable (q : Row → Prop) [DecidablePred q]

theorem not_picked {s : Row} (hs : Row.isAt κ h s = false) :
    decide (Row.isAt κ h s = true ∧ q s) = false := by
  simp [hs]

theorem removeIf_of_find?_eq_none (hf : t.find? κ h = none) :
    (t.removeIf fun s => Row.isAt κ h s ∧ q s) = t := by
  have hn : ∀ s ∈ t.rows, (!decide (Row.isAt κ h s = true ∧ q s)) = true := by
    intro s hs
    have ha := List.find?_eq_none.1 hf s hs
    rw [not_picked q (Bool.eq_false_iff.2 ha)]
    rfl
  rw [removeIf, List.filter_eq_self.2 hn]

namespace Stands

variable (hs : t.Stands κ h r before after)
include hs

theorem around {s : Row} (hm : s ∈ before ∨ s ∈ after) :
    decide (Row.isAt κ h s = true ∧ q s) = false :=
  not_picked q (hs.others s (List.mem_append.2 hm))

theorem picked : decide (Row.isAt κ h r = true ∧ q r) = decide (q r) := by
  simp [hs.isAt]

theorem countIf_eq : (t.countIf fun s => Row.isAt κ h s ∧ q s) = if q r then 1 else 0 := by
  have hb : before.filter (fun s => Row.isAt κ h s ∧ q s) = [] :=
    List.filter_eq_nil_iff.2 fun s hm => Bool.eq_false_iff.1 (hs.around q (.inl hm))
  have ha : after.filter (fun s => Row.isAt κ h s ∧ q s) = [] :=
    List.filter_eq_nil_iff.2 fun s hm => Bool.eq_false_iff.1 (hs.around q (.inr hm))
  rw [countIf, hs.rows, List.filter_append, List.filter_cons, hb, ha, hs.picked q]
  by_cases hr : q r <;> simp [hr]

theorem removeIf_eq : (t.removeIf fun s => Row.isAt κ h s ∧ q s) =
    if q r then { t with rows := before ++ after } else t := by
  have hb : before.filter (fun s => !decide (Row.isAt κ h s = true ∧ q s)) = before :=
    List.filter_eq_self.2 fun s hm => congrArg not (hs.around q (.inl hm))
  have ha : after.filter (fun s => !decide (Row.isAt κ h s = true ∧ q s)) = after :=
    List.filter_eq_self.2 fun s hm => congrArg not (hs.around q (.inr hm))
  rw [removeIf, hs.rows, List.filter_append, List.filter_cons, hb, ha, hs.picked q]
  by_cases hr : q r <;> simp [hr, ← hs.rows]

theorem replaced_removeIf (hr : q r) :
    Replaced κ h r [] t (t.removeIf fun s => Row.isAt κ h s ∧ q s) := by
  refine ⟨before, after, hs, ?_⟩
  rw [hs.removeIf_eq q, if_pos hr]
  rfl

theorem replaced_map (hr : q r) (f : Row → Row) : Replaced κ h r [f r] t
    { t with rows := t.rows.map fun s =>
        if decide (Row.isAt κ h s = true ∧ q s) then f s else s } := by
  have hb : before.map (fun s => if decide (Row.isAt κ h s = true ∧ q s) then f s else s) =
      before :=
    (List.map_congr_left fun s hm => by rw [hs.around q (.inl hm)]; rfl).trans before.map_id
  have ha : after.map (fun s => if decide (Row.isAt κ h s = true ∧ q s) then f s else s) =
      after :=
    (List.map_congr_left fun s hm => by rw [hs.around q (.inr hm)]; rfl).trans after.map_id
  refine ⟨before, after, hs, ?_⟩
  rw [hs.rows, List.map_append, List.map_cons, hb, ha, hs.picked q, if_pos (decide_eq_true hr)]
  rfl

end Stands

end Picked

theorem Unique.live_spared (ht : t.Unique) (db : Engine) (κ : Kind) (now : Nat) (h : Handle) :
    (∃ r, t.live db κ now h = (.ok r, t) ∧ t.find? κ h = some r) ∨
    ∃ err t', t.live db κ now h = (.error err, t') ∧ Spared κ now h err t t' := by
  unfold live
  split
  · next err _ => exact .inr ⟨err, t, rfl, .refl _ _ _ _ t⟩
  cases hf : t.find? κ h with
  | none => exact .inr ⟨.notFound, t, rfl, .inl rfl⟩
  | some r =>
    obtain ⟨before, after, hs⟩ := ht.stands hf
    dsimp only
    split
    · next hx =>
      split
      · next err _ => exact .inr ⟨err, t, rfl, .refl _ _ _ _ t⟩
      refine .inr ⟨.notFound, _, rfl, ?_⟩
      -- A row that has expired need not be removed: its column may not show that it has.
      by_cases hr : r.expireAt < toColumn now
      · exact .inr ⟨r, hs.replaced_removeIf (·.expireAt < toColumn now) hr, hx⟩
      · exact .inl ((hs.removeIf_eq _).trans (if_neg hr))
    · exact .inl ⟨r, rfl, rfl⟩

end Rows

section Operations

variable {P S : Type} [Stage S] [Staged P S]

def rest (next : S) (now : Nat) (p : P) (r : Row) : List Row :=
  if Stage.isTerminal next then []
  else [{ r with
    status := Stage.text next
    payload := (Staged.toJson (Staged.advance next now p)).compact }]

variable (P) in
/-- Operations on the payloads of one kind do all they are there for, or leave the table alone. -/
structure Atomic [DecidableEq S] (db : Engine) (now : Nat) (h : Handle) (t : Table) : Prop where
  put {p : P} {ttl : Nat} {err : StoreError} {t' : Table} : db.Steady →
    t.put db now h p ttl = (.error err, t') → t' = t
  duplicate {p : P} {ttl : Nat} {t' : Table} :
    t.put db now h p ttl = (.error .duplicate, t') → t' = t
  /-- What a put has done when its last statement is refused. -/
  purged {p : P} {ttl : Nat} {err : StoreError} {t' : Table} :
    t.put db now h p ttl = (.error err, t') → t' = t ∨
      (∃ text, db .insert = some text ∧ err = .backend text) ∧
      ∃ r, Replaced (Staged.kind P) h r [] t t' ∧ r.expireAt < toColumn now
  get {err : StoreError} {t' : Table} : t.get (P := P) db now h = (.error err, t') →
    Spared (Staged.kind P) now h err t t'
  got {e : Entry P} {t' : Table} : t.get db now h = (.ok e, t') → t' = t
  take {expected next : S} {err : StoreError} {t' : Table} :
    t.take (P := P) db now h expected next = (.error err, t') →
    Spared (Staged.kind P) now h err t t'
  taken {expected next : S} {e : Entry P} {t' : Table} :
    t.take db now h expected next = (.ok e, t') →
    ∃ r, r.status = Stage.text expected ∧ decode h r = .ok e ∧
      Replaced (Staged.kind P) h r (rest next now e.payload r) t t'

theorem refuses_purge_eq_none {db : Engine} {t : Table} (h : t.refuses db .purge = none) :
    t.isClosed = false ∧ db .purge = none := by
  unfold refuses at h
  split at h
  · cases h
  · next ho => exact ⟨Bool.eq_false_iff.2 ho, Option.map_eq_none_iff.1 h⟩

variable {t t' : Table} (ht : t.Unique) (db : Engine) (now : Nat) (h : Handle)
include ht

theorem Unique.purge_spared (κ : Kind) : t.purge κ now h = t ∨
    ∃ r, Replaced κ h r [] t (t.purge κ now h) ∧ r.expireAt < toColumn now := by
  cases hf : t.find? κ h with
  | none => exact .inl (removeIf_of_find?_eq_none _ hf)
  | some r =>
    obtain ⟨before, after, hs⟩ := ht.stands hf
    by_cases hr : r.expireAt < toColumn now
    · exact .inr ⟨r, hs.replaced_removeIf (·.expireAt < toColumn now) hr, hr⟩
    · exact .inl ((hs.removeIf_eq _).trans (if_neg hr))

theorem Unique.purge_eq_self {κ : Kind} (hd : ((t.purge κ now h).find? κ h).isSome = true) :
    t.purge κ now h = t := by
  obtain hp | ⟨r, ⟨before, after, hs, hp⟩, -⟩ := ht.purge_spared now h κ
  · exact hp
  · have hn : (t.purge κ now h).find? κ h = none := by
      rw [hp]
      exact List.find?_eq_none.2 fun s hm => Bool.eq_false_iff.1 (hs.others s hm)
    rw [hn] at hd
    cases hd

/-- How a put can fail: its first statement is refused, or its second, or the key is taken. -/
theorem Unique.put_error {p : P} {ttl : Nat} {err : StoreError}
    (hp : t.put db now h p ttl = (.error err, t')) : t' = t ∨
      db .purge = none ∧ (∃ text, db .insert = some text ∧ err = .backend text) ∧
      t' = t.purge (Staged.kind P) now h := by
  unfold Table.put at hp
  dsimp only at hp
  split at hp
  · cases hp
    exact .inl rfl
  · next hr =>
    obtain ⟨ho, hr⟩ := refuses_purge_eq_none hr
    split at hp
    · next hi =>
      cases hp
      rw [refuses_purge, refuses, if_neg (Bool.eq_false_iff.1 ho), Option.map_eq_some_iff] at hi
      obtain ⟨text, hi, he⟩ := hi
      exact .inr ⟨hr, ⟨text, hi, he.symm⟩, rfl⟩
    · split at hp
      · next hd =>
        cases hp
        exact .inl (ht.purge_eq_self now h hd)
      · cases hp

theorem Unique.get_spared {a : Except StoreError (Entry P)} (hg : t.get db now h = (a, t')) :
    match a with
    | .ok _ => t' = t
    | .error err => Spared (Staged.kind P) now h err t t' := by
  unfold Table.get at hg
  obtain ⟨r, hl, -⟩ | ⟨err, u, hl, hu⟩ := ht.live_spared db (Staged.kind P) now h
  · rw [hl] at hg
    cases hg
    split
    · rfl
    · exact .refl _ _ _ _ t
  · rw [hl] at hg
    cases hg
    exact hu

theorem Unique.take_spared [DecidableEq S] {expected next : S} {a : Except StoreError (Entry P)}
    (hk : t.take db now h expected next = (a, t')) :
    match a with
    | .ok e => ∃ r, r.status = Stage.text expected ∧ decode h r = .ok e ∧
        Replaced (Staged.kind P) h r (rest next now e.payload r) t t'
    | .error err => Spared (Staged.kind P) now h err t t' := by
  unfold Table.take at hk
  dsimp only at hk
  obtain ⟨r, hl, hf⟩ | ⟨err, u, hl, hu⟩ := ht.live_spared db (Staged.kind P) now h
  · rw [hl] at hk
    dsimp only at hk
    split at hk
    · cases hk
      exact .refl _ _ _ _ t
    cases hd : decode (P := P) h r with
    | error err =>
      rw [hd] at hk
      cases hk
      exact .refl _ _ _ _ t
    | ok e =>
      rw [hd] at hk
      dsimp only at hk
      split at hk
      · cases hk
        exact .refl _ _ _ _ t
      split at hk
      · cases hk
        exact .refl _ _ _ _ t
      next hn =>
      obtain ⟨before, after, hs⟩ := ht.stands hf
      -- The statement met a row, and the one that was read is the only one it could meet.
      have hr : r.status = Stage.text expected ∧ toColumn now ≤ r.expireAt := by
        by_contra hr
        exact hn ((hs.countIf_eq _).trans (if_neg hr))
      cases hk
      refine ⟨r, hr.1, hd, ?_⟩
      unfold rest
      split
      · exact hs.replaced_removeIf _ hr
      · exact hs.replaced_map _ hr _
  · rw [hl] at hk
    cases hk
    exact hu

end Operations

/-- Rows that no operation here writes: stages and payloads that nothing reads, times before the
beginning and at the end of what a column holds. -/
def strays : Table :=
  ⟨[⟨.qrSession, "d00d", "no such stage", "\x7b", -7, -1⟩, ⟨.oauthState, "d00d", "", "null", 0, 0⟩,
    ⟨.qrSession, "cafe", "pending", "", -maxColumn - 1, maxColumn⟩], false⟩

theorem strays_unique : strays.Unique := by
  unfold Unique
  decide

/-- A time before the beginning is read as zero, so at zero the row is still there. -/
example : strays.take (P := Qr.Session) .willing 0 ⟨"d00d"⟩ .pending .scanned =
    (.error (.conflict "no such stage"), strays) :=
  rfl

/-- A disk that is full after the removal. -/
example : strays.put (fun st => if st = .insert then some "disk is full" else none) 0 ⟨"d00d"⟩
    (Qr.Session.pending "" "") 1 =
      (.error (.backend "disk is full"), { strays with rows := strays.rows.tail }) :=
  rfl

end Table

end Handoff
