import Handoff.Users
import Mathlib.Data.List.Nodup

namespace Handoff.Users

variable {t t' : Users} {u v : User} {id : Int64} {i : Identity}

def Keyed (t : Users) : Prop := (t.records.map User.id).Nodup

def Exclusive (t : Users) : Prop := ∀ u ∈ t.records, ∀ v ∈ t.records, u.providerId.isSome = true →
  u.providerId = v.providerId → u.id = v.id

instance (t : Users) : Decidable t.Exclusive :=
  inferInstanceAs (Decidable (∀ u ∈ t.records, ∀ v ∈ t.records, _ → _ → _))

def Spares (t : Users) (id : Int64) (provider : String) : Prop :=
  ∀ v ∈ t.records, v.providerId = some provider → v.id = id

section Table

theorem mem_insert : v ∈ (t.insert u).records ↔ v = u ∨ v ∈ t.records ∧ v.id ≠ u.id := by
  unfold insert
  split
  · next h =>
    obtain ⟨x, hx, hid⟩ := List.any_eq_true.1 h
    rw [decide_eq_true_eq] at hid
    rw [List.mem_map]
    constructor
    · rintro ⟨y, hy, rfl⟩
      split
      · exact .inl rfl
      · next hn => exact .inr ⟨hy, hn⟩
    · rintro (rfl | ⟨hv, hn⟩)
      · exact ⟨x, hx, if_pos hid⟩
      · exact ⟨v, hv, if_neg hn⟩
  · next h =>
    rw [Bool.not_eq_true, List.any_eq_false] at h
    rw [List.mem_append, List.mem_singleton, or_comm]
    refine or_congr_right ⟨fun hv => ⟨hv, fun hid => h v hv (decide_eq_true hid)⟩, And.left⟩

theorem mem_remove : v ∈ (t.remove id).records ↔ v ∈ t.records ∧ v.id ≠ id := by
  simp [remove]

theorem findById_eq_none_iff : t.findById id = none ↔ ∀ v ∈ t.records, v.id ≠ id := by
  simp [findById]

theorem mem_of_findById (h : t.findById id = some u) : u ∈ t.records ∧ u.id = id := by
  rw [findById] at h
  exact ⟨List.mem_of_find?_eq_some h, by simpa using List.find?_some h⟩

theorem findByProvider_eq_none_iff {p : String} :
    t.findByProvider p = none ↔ ∀ v ∈ t.records, v.providerId ≠ some p := by
  simp [findByProvider]

theorem mem_of_findByProvider {p : String} (h : t.findByProvider p = some u) :
    u ∈ t.records ∧ u.providerId = some p := by
  rw [findByProvider] at h
  exact ⟨List.mem_of_find?_eq_some h, by simpa using List.find?_some h⟩

theorem keyed_empty : empty.Keyed := List.nodup_nil

theorem Keyed.insert (ht : t.Keyed) (u : User) : (t.insert u).Keyed := by
  unfold Users.insert Keyed
  split
  · have hids : (t.records.map fun v => if v.id = u.id then u else v).map User.id =
        t.records.map User.id := by
      rw [List.map_map]
      refine List.map_congr_left fun v _ => ?_
      by_cases h : v.id = u.id <;> simp [h]
    rw [hids]
    exact ht
  · next h =>
    rw [Bool.not_eq_true, List.any_eq_false] at h
    rw [List.map_append, List.map_singleton]
    refine List.nodup_append.2 ⟨ht, List.nodup_singleton _, ?_⟩
    intro a ha b hb
    obtain ⟨v, hv, rfl⟩ := List.mem_map.1 ha
    rw [List.mem_singleton.1 hb]
    exact fun hid => h v hv (decide_eq_true hid)

theorem Keyed.remove (ht : t.Keyed) (id : Int64) : (t.remove id).Keyed :=
  List.Nodup.sublist (List.filter_sublist.map _) ht

theorem keyed_ofList (us : List User) : (ofList us).Keyed := by
  have h (us : List User) {t : Users} (ht : t.Keyed) :
      (us.foldl (fun t u => t.insert u) t).Keyed := by
    induction us generalizing t with
    | nil => exact ht
    | cons u us ih => exact ih (ht.insert u)
  exact h us keyed_empty

theorem Keyed.eq_of_id (ht : t.Keyed) (hu : u ∈ t.records) (hv : v ∈ t.records)
    (h : u.id = v.id) : u = v := List.inj_on_of_nodup_map ht hu hv h

theorem Keyed.records_insert (ht : t.Keyed) (hu : u ∈ t.records) {f : User → User}
    (hf : (f u).id = u.id) :
    (t.insert (f u)).records = t.records.map fun v => if v.id = u.id then f v else v := by
  have hany : t.records.any (·.id = (f u).id) = true :=
    List.any_eq_true.2 ⟨u, hu, decide_eq_true hf.symm⟩
  rw [Users.insert, if_pos hany]
  refine List.map_congr_left fun v hv => ?_
  rw [hf]
  split
  · next hid => rw [ht.eq_of_id hv hu hid]
  · rfl

end Table

/-- What comes of linking: who has the identity is looked at first, then the user. -/
inductive Linking (t : Users) (id : Int64) (i : Identity) : Except UserError Users → Prop
  | taken {o : User} : o ∈ t.records → o.id ≠ id → o.providerId = some i.providerId →
    Linking t id i (.error (.alreadyLinked o.id))
  | missing : t.Spares id i.providerId → (∀ v ∈ t.records, v.id ≠ id) →
    Linking t id i (.error .notFound)
  | other {u : User} {p : String} : t.Spares id i.providerId → u ∈ t.records → u.id = id →
    u.providerId = some p → p ≠ i.providerId → Linking t id i (.error (.alreadyLinked id))
  | bound {u : User} : t.Spares id i.providerId → u ∈ t.records → u.id = id →
    (∀ p ∈ u.providerId, p = i.providerId) → Linking t id i (.ok (t.insert (bind i u)))

section Exclusive

variable (he : t.Exclusive)
include he

theorem Exclusive.spares_of_filter {p : String}
    (h : (t.findByProvider p).filter (·.id ≠ id) = none) : t.Spares id p := by
  intro v hv hp
  cases hf : t.findByProvider p with
  | none => exact absurd hp (findByProvider_eq_none_iff.1 hf v hv)
  | some o =>
    obtain ⟨ho, hop⟩ := mem_of_findByProvider hf
    rw [hf, Option.filter_eq_none_iff] at h
    have hid : o.id = id := by simpa using h o rfl
    exact (he o ho v hv (hop ▸ rfl) (hop.trans hp.symm)).symm.trans hid

theorem Exclusive.linking (id : Int64) (i : Identity) : Linking t id i (t.link id i) := by
  unfold link
  split
  · next o ho =>
    obtain ⟨ho, hid⟩ := Option.filter_eq_some_iff.1 ho
    obtain ⟨ho, hp⟩ := mem_of_findByProvider ho
    exact .taken ho (of_decide_eq_true hid) hp
  · next hn =>
    have hs := he.spares_of_filter hn
    split
    · next hf => exact .missing hs (findById_eq_none_iff.1 hf)
    · next u hf =>
      obtain ⟨hu, hid⟩ := mem_of_findById hf
      split
      · next hall =>
        refine .bound hs hu hid fun p hp => ?_
        rw [Option.mem_def.1 hp] at hall
        exact of_decide_eq_true hall
      · next hall =>
        cases hp : u.providerId with
        | none =>
          rw [hp] at hall
          exact absurd rfl hall
        | some p =>
          rw [hp] at hall
          exact .other hs hu hid hp fun h => hall (decide_eq_true h)

theorem Exclusive.remove (id : Int64) : (t.remove id).Exclusive := fun u hu v hv =>
  he u (mem_remove.1 hu).1 v (mem_remove.1 hv).1

theorem Exclusive.link (h : t.link id i = .ok t') : t'.Exclusive := by
  have hl := he.linking id i
  rw [h] at hl
  cases hl with
  | bound hs hu hid hp =>
    intro v hv w hw hsome hvw
    obtain rfl | ⟨hv, hvid⟩ := mem_insert.1 hv
    · obtain rfl | ⟨hw, hwid⟩ := mem_insert.1 hw
      · rfl
      · exact hid.trans (hs w hw hvw.symm).symm
    · obtain rfl | ⟨hw, hwid⟩ := mem_insert.1 hw
      · exact (hs v hv hvw).trans hid.symm
      · exact he v hv w hw hsome hvw

end Exclusive

@[simp] theorem bind_bind (i : Identity) (u : User) : bind i (bind i u) = bind i u := by
  simp [bind, Option.or_assoc]

section Links

variable (ht : t.Keyed) (he : t.Exclusive)
include ht he

/-- A user is linked if he exists, nobody else has the identity and he has no other one. -/
theorem link_ok_iff : (∃ t', t.link id i = .ok t') ↔
    (∃ u ∈ t.records, u.id = id ∧ ∀ p ∈ u.providerId, p = i.providerId) ∧
      t.Spares id i.providerId := by
  have hl := he.linking id i
  constructor
  · rintro ⟨t', h⟩
    rw [h] at hl
    cases hl with
    | bound hs hu hid hp => exact ⟨⟨_, hu, hid, hp⟩, hs⟩
  · rintro ⟨⟨u, hu, hid, hp⟩, hs⟩
    generalize t.link id i = x at hl
    cases hl with
    | taken ho hne hprov => exact absurd (hs _ ho hprov) hne
    | missing _ hn => exact absurd hid (hn u hu)
    | other _ hv hvid hprov hne =>
      cases ht.eq_of_id hu hv (hid.trans hvid.symm)
      exact absurd (hp _ hprov) hne
    | bound => exact ⟨_, rfl⟩

variable (h : t.link id i = .ok t')
include h

theorem Keyed.link : t'.Keyed := by
  have hl := he.linking id i
  rw [h] at hl
  cases hl with
  | bound => exact ht.insert _

theorem records_link :
    t'.records = t.records.map fun v => if v.id = id then bind i v else v := by
  have hl := he.linking id i
  rw [h] at hl
  cases hl with
  | bound _ hu hid =>
    rw [ht.records_insert hu rfl, hid]

theorem link_link : t'.link id i = .ok t' := by
  have ht' := ht.link he h
  have he' := he.link h
  have hok : ∃ t'', t'.link id i = .ok t'' := by
    obtain ⟨⟨u, hu, hid, hp⟩, hs⟩ := (link_ok_iff ht he).1 ⟨t', h⟩
    refine (link_ok_iff ht' he').2 ⟨⟨bind i u, ?_, hid, ?_⟩, ?_⟩
    · rw [records_link ht he h]
      exact List.mem_map.2 ⟨u, hu, if_pos hid⟩
    · rintro p ⟨⟩
      rfl
    · intro v hv hprov
      rw [records_link ht he h] at hv
      obtain ⟨w, hw, rfl⟩ := List.mem_map.1 hv
      by_cases hwid : w.id = id
      · rw [if_pos hwid]
        exact hwid
      · rw [if_neg hwid] at hprov
        exact absurd (hs w hw hprov) hwid
  obtain ⟨t'', h'⟩ := hok
  have hrec : t''.records = t'.records := by
    rw [records_link ht' he' h', records_link ht he h, List.map_map]
    refine List.map_congr_left fun v _ => ?_
    by_cases hid : v.id = id <;> simp [hid, show (bind i v).id = v.id from rfl]
  rw [h', show t'' = t' by cases t''; cases t'; exact congrArg _ hrec]

end Links

/-- Everybody has been there before, and still has the identity that he had. -/
def Descends (t t' : Users) : Prop :=
  ∀ v ∈ t'.records, ∃ u ∈ t.records, u.id = v.id ∧ ∀ p ∈ u.providerId, v.providerId = some p

theorem Descends.refl (t : Users) : t.Descends t := fun v hv => ⟨v, hv, rfl, fun _ hp => hp⟩

theorem Descends.trans {t'' : Users} (h : t.Descends t') (h' : t'.Descends t'') :
    t.Descends t'' := by
  intro w hw
  obtain ⟨v, hv, hvw, hpw⟩ := h' w hw
  obtain ⟨u, hu, huv, hpv⟩ := h v hv
  exact ⟨u, hu, huv.trans hvw, fun p hp => hpw p (hpv p hp)⟩

theorem descends_remove (t : Users) (id : Int64) : t.Descends (t.remove id) := fun v hv =>
  ⟨v, (mem_remove.1 hv).1, rfl, fun _ hp => hp⟩

theorem Exclusive.descends_link (he : t.Exclusive) (h : t.link id i = .ok t') :
    t.Descends t' := by
  have hl := he.linking id i
  rw [h] at hl
  cases hl with
  | @bound u hs hu hid hp =>
    intro v hv
    obtain rfl | ⟨hv, -⟩ := mem_insert.1 hv
    · refine ⟨u, hu, rfl, fun p hprov => ?_⟩
      rw [hp p hprov]
      rfl
    · exact ⟨v, hv, rfl, fun _ hp => hp⟩

theorem Descends.provider (h : t.Descends t') (ht : t.Keyed) {p : String} (hu : u ∈ t.records)
    (hv : v ∈ t'.records) (hid : u.id = v.id) (hp : u.providerId = some p) :
    v.providerId = some p := by
  obtain ⟨w, hw, hwv, hkeep⟩ := h v hv
  cases ht.eq_of_id hw hu (hwv.trans hid.symm)
  exact hkeep p hp

inductive Change (t : Users) : Users → Prop
  | same : Change t t
  | linked {id : Int64} {i : Identity} {t' : Users} : t.link id i = .ok t' → Change t t'
  | removed (id : Int64) : Change t (t.remove id)

namespace Change

variable (h : t.Change t') (he : t.Exclusive)
include h he

theorem keyed (ht : t.Keyed) : t'.Keyed := by
  cases h with
  | same => exact ht
  | linked hl => exact ht.link he hl
  | removed id => exact ht.remove id

theorem exclusive : t'.Exclusive := by
  cases h with
  | same => exact he
  | linked hl => exact he.link hl
  | removed id => exact he.remove id

theorem descends : t.Descends t' := by
  cases h with
  | same => exact .refl t
  | linked hl => exact he.descends_link hl
  | removed id => exact descends_remove t id

end Change

end Handoff.Users
