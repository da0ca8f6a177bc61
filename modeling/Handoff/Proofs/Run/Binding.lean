import Handoff.Proofs.Run.Minting
import Handoff.Proofs.Users.Linking

namespace Handoff

open OAuth

theorem Call.users_change (elapsed : Nat) (c : Call) (s : Service) :
    s.users.Change (c.step elapsed s).2.users := by
  obtain hu | ⟨uid, i, -, hl⟩ | ⟨l, random, -, hl⟩ := c.users_step elapsed s
  · rw [hu]
    exact .same
  · exact .linked hl
  · exact .linked hl

/-- A turn of the world, or an identity that is linked to a user beside all calls. -/
inductive Dealing
  | turn (e : Event)
  | link (uid : Int64) (i : Identity)

namespace World

variable {w : World}

def deal (w : World) : Dealing → World
  | .turn e => w.next e
  | .link uid i => { w with service := (w.service.linkUser uid i).2 }

def deals (w : World) (ds : List Dealing) : World := ds.foldl deal w

theorem deals_append (w : World) (ds ds' : List Dealing) :
    w.deals (ds ++ ds') = (w.deals ds).deals ds' := List.foldl_append

theorem users_next (w : World) (e : Event) : w.service.users.Change (w.next e).service.users := by
  have ht := w.turned e
  generalize (w.next e).service = s at ht
  cases ht with
  | stepped c elapsed => exact c.users_change elapsed w.service
  | swept t =>
    cases t with
    | topics => exact .same
    | store kind =>
      cases kind with
      | qrSession => exact (Service.access_sweep Qr.Session w.service).users ▸ .same
      | oauthState => exact (Service.access_sweep State w.service).users ▸ .same
      | pendingLink => exact (Service.access_sweep PendingLink w.service).users ▸ .same
  | removed uid => exact .removed uid
  | rest => exact .same

theorem users_deal (w : World) (d : Dealing) :
    w.service.users.Change (w.deal d).service.users := by
  cases d with
  | turn e => exact w.users_next e
  | link uid i =>
    rw [deal]
    cases hl : w.service.linkUser uid i with
    | mk r s =>
      cases r with
      | error e =>
        rw [linkUser_error hl]
        exact .same
      | ok => exact .linked (linkUser_ok hl).1

/-- What holds of the users in the beginning holds throughout, and who has an identity keeps it. -/
theorem users_deals (ht : w.service.users.Keyed) (he : w.service.users.Exclusive)
    (ds : List Dealing) : (w.deals ds).service.users.Keyed ∧
      (w.deals ds).service.users.Exclusive ∧
      w.service.users.Descends (w.deals ds).service.users := by
  induction ds generalizing w with
  | nil => exact ⟨ht, he, .refl _⟩
  | cons d ds ih =>
    have hd := w.users_deal d
    obtain ⟨hk, hx, hdesc⟩ := ih (hd.keyed he ht) (hd.exclusive he)
    exact ⟨hk, hx, (hd.descends he).trans hdesc⟩

structure Binding (w : World) : Prop where
  keyed (ds : List Dealing) : (w.deals ds).service.users.Keyed
  exclusive (ds : List Dealing) : (w.deals ds).service.users.Exclusive
  lasting {ds ds' : List Dealing} {u v : User} {p : String} :
    u ∈ (w.deals ds).service.users.records → u.providerId = some p →
    v ∈ (w.deals (ds ++ ds')).service.users.records → v.id = u.id → v.providerId = some p
  change (ds : List Dealing) (d : Dealing) :
    (w.deals ds).service.users.Change ((w.deals ds).deal d).service.users
  link_iff (ds : List Dealing) (uid : Int64) (i : Identity) :
    (∃ t, (w.deals ds).service.users.link uid i = .ok t) ↔
      (∃ u ∈ (w.deals ds).service.users.records, u.id = uid ∧
        ∀ p ∈ u.providerId, p = i.providerId) ∧
      ∀ v ∈ (w.deals ds).service.users.records, v.providerId = some i.providerId → v.id = uid
  linked {ds : List Dealing} {uid : Int64} {i : Identity} {t : Users} :
    (w.deals ds).service.users.link uid i = .ok t →
    t.records = (w.deals ds).service.users.records.map (fun u =>
      if u.id = uid then
        { u with providerId := some i.providerId, avatarUrl := u.avatarUrl.or i.avatarUrl }
      else u) ∧
    t.link uid i = .ok t
  /-- Who is named has the identity, or is the user himself and has another one. -/
  refused {ds : List Dealing} {uid : Int64} {i : Identity} {e : UserError} :
    (w.deals ds).service.users.link uid i = .error e →
    (∃ o ∈ (w.deals ds).service.users.records, o.id ≠ uid ∧ o.providerId = some i.providerId ∧
      e = .alreadyLinked o.id) ∨
    (∃ o ∈ (w.deals ds).service.users.records, ∃ p, o.id = uid ∧ o.providerId = some p ∧
      p ≠ i.providerId ∧ e = .alreadyLinked o.id) ∨
    (∀ o ∈ (w.deals ds).service.users.records, o.id ≠ uid) ∧ e = .notFound
  unchanged {ds : List Dealing} {uid : Int64} {i : Identity} {e : UserError} {s : Service} :
    (w.deals ds).service.linkUser uid i = (.error e, s) → s = (w.deals ds).service

theorem start_binding (setup : Setup) (backend : Backend) (limit : Nat) {us : List User}
    (now : UInt64) (hx : (Users.ofList us).Exclusive) :
    Binding (start setup backend limit (.ofList us) now) := by
  have hinv := users_deals (w := start setup backend limit (.ofList us) now)
    (Users.keyed_ofList us) hx
  generalize start setup backend limit (.ofList us) now = w at hinv
  constructor
  case keyed => exact fun ds => (hinv ds).1
  case exclusive => exact fun ds => (hinv ds).2.1
  case lasting =>
    intro ds ds' u v p hu hp hv hid
    obtain ⟨ht, he, -⟩ := hinv ds
    rw [deals_append] at hv
    exact (users_deals ht he ds').2.2.provider ht hu hv hid.symm hp
  case change => exact fun ds d => users_deal _ d
  case link_iff =>
    intro ds uid i
    obtain ⟨ht, he, -⟩ := hinv ds
    exact Users.link_ok_iff ht he
  case linked =>
    intro ds uid i t hl
    obtain ⟨ht, he, -⟩ := hinv ds
    exact ⟨Users.records_link ht he hl, Users.link_link ht he hl⟩
  case refused =>
    intro ds uid i e hl
    obtain ⟨-, he, -⟩ := hinv ds
    have h := he.linking uid i
    rw [hl] at h
    cases h with
    | taken ho hne hp => exact .inl ⟨_, ho, hne, hp, rfl⟩
    | other _ ho hid hp hne => exact .inr (.inl ⟨_, ho, _, hid, hp, hne, hid ▸ rfl⟩)
    | missing _ hn => exact .inr (.inr ⟨hn, rfl⟩)
  case unchanged => exact fun hl => linkUser_error hl

section Example

def ada : User := ⟨1, "ada", some "ada@x.io", none, none⟩

def bob : User := ⟨2, "bob", some "bob@x.io", none, some "ext-2"⟩

def stranger : Identity := ⟨"ext-1", "Ada", some "https://x.io/a.png", none⟩

/-- Once Ada is linked Bob does not get her identity, nor she his, and she keeps hers when he is
removed. -/
theorem start_binding_linked :
    let w := start Visit.setup .memory 1 (.ofList [ada, bob]) 0
    let t := (w.deals [.link 1 stranger]).service.users
    (Users.ofList [ada, bob]).Exclusive ∧ t.Exclusive ∧ t.link 1 stranger = .ok t ∧
      t.link 2 stranger = .error (.alreadyLinked 1) ∧
      t.link 1 ⟨"ext-2", "Bob", none, none⟩ = .error (.alreadyLinked 2) ∧
      ∀ v ∈ (w.deals ([.link 1 stranger] ++ [.turn (.removeUser 2)])).service.users.records,
        v.id = 1 → v.providerId = some "ext-1" := by
  intro w t
  have hx : (Users.ofList [ada, bob]).Exclusive := by decide
  have hb := start_binding Visit.setup .memory 1 0 hx
  have hl : (w.deals []).service.users.link 1 stranger = .ok t := rfl
  have hu : ⟨1, "ada", some "ada@x.io", some "https://x.io/a.png", some "ext-1"⟩ ∈ t.records := by
    decide
  exact ⟨hx, hb.exclusive [.link 1 stranger], (hb.linked hl).2, rfl, rfl,
    fun v hv hid => hb.lasting hu rfl hv hid⟩

end Example

end World

end Handoff
