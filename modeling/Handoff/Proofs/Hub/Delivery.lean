import Handoff.Proofs.Hub.Ideal

namespace Handoff

namespace Qr

theorem upToTerminal_prefix_append (ms ks : List Message) :
    upToTerminal ms <+: upToTerminal (ms ++ ks) := by
  induction ms with
  | nil => exact List.nil_prefix
  | cons m ms ih =>
    rw [List.cons_append, upToTerminal, upToTerminal]
    split
    · exact List.prefix_rfl
    · exact (List.prefix_cons_inj m).2 ih

theorem length_upToTerminal_le (ms : List Message) : (upToTerminal ms).length ≤ ms.length := by
  induction ms with
  | nil => exact Nat.le_refl _
  | cons m ms ih =>
    rw [upToTerminal]
    split
    · exact Nat.succ_le_succ (Nat.zero_le _)
    · exact Nat.succ_le_succ ih

end Qr

namespace Hub

open Qr (upToTerminal upToTerminal_prefix_append length_upToTerminal_le Message)

def readAt (id : Nat) : Request × Reply → Option Message
  | (.recv k, .received r) => if k = id then r.message? else none
  | (.tryRecv k, .tried m) => if k = id then m else none
  | _ => none

def read (id : Nat) (xs : List (Request × Reply)) : List Message := xs.filterMap (readAt id)

theorem read_singleton (id : Nat) (x : Request × Reply) : read id [x] = (readAt id x).toList := by
  rw [read, List.filterMap_cons]
  cases readAt id x <;> rfl

def published (h : Handle) (qs : List Request) : List Message :=
  qs.filterMap fun
    | .publish k m => if k = h then some m else none
    | _ => none

/-- What is read of `n` messages or fewer: some of them in their order, and from the first on
without a gap where a buffer holds them all. -/
structure Reads (n : Nat) (read due : List Message) : Prop where
  ordered : read.Sublist due
  gapless : n ≤ capacity → read <+: due

theorem Reads.nil {n : Nat} {due : List Message} : Reads n [] due :=
  ⟨List.nil_sublist due, fun _ => List.nil_prefix⟩

namespace Ideal

variable {i : Ideal} {topics : List Handle}

theorem trace_hub (hi : i.Orderly) (hc : i.Covered topics) (qs : List Request) :
    ((i.hub topics).trace qs).filter (!·.1.isSweep) = i.trace (qs.filter (!·.isSweep)) := by
  induction qs generalizing i topics with
  | nil => rfl
  | cons q qs ih =>
    cases hq : q.isSweep with
    | false =>
      obtain ⟨topics', hc', hp⟩ := perform_hub hi hq hc
      have hk : (!q.isSweep) = true := by rw [hq]; rfl
      rw [Hub.trace, hp, List.filter_cons_of_pos (a := (q, (i.perform q).1)) hk,
        List.filter_cons_of_pos (p := fun q : Request => !q.isSweep) hk, trace,
        ih (hi.perform q) hc']
    | true =>
      cases q with
      | sweep =>
        rw [Hub.trace, List.filter_cons_of_neg (by rw [hq]; decide),
          List.filter_cons_of_neg (by rw [hq]; decide)]
        obtain ⟨topics', hc', hp⟩ := exists_topics hi hc .sweep
        rw [hp]
        exact ih hi hc'
      | _ => cases hq

theorem exists_hub (hi : i.Orderly) (hc : i.Covered topics) (qs : List Request) :
    ∃ i' topics', i'.Orderly ∧ i'.Covered topics' ∧ (i.hub topics).after qs = hub topics' i' := by
  induction qs generalizing i topics with
  | nil => exact ⟨i, topics, hi, hc, rfl⟩
  | cons q qs ih =>
    obtain ⟨topics', hc', hp⟩ := exists_topics hi hc q
    rw [after, List.foldl_cons, hp]
    exact ih (hi.perform q) hc'

end Ideal

namespace Listener

variable {l : Listener}

def perform (q : Request) (l : Listener) : Option Listener :=
  match q with
  | .publish h m => some (l.hear h m)
  | .recv id => some (if id = l.id then l.receive.2 else l)
  | .tryRecv id => some (if id = l.id then l.receive.2 else l)
  | .drop id => if id = l.id then none else some l
  | _ => some l

def readNow (q : Request) (l : Listener) : List Message :=
  match q with
  | .recv id => if id = l.id then l.receive.1.message?.toList else []
  | .tryRecv id => if id = l.id then l.receive.1.message?.toList else []
  | _ => []

def reads : List Request → Option Listener → List Message
  | q :: qs, some l => l.readNow q ++ reads qs (l.perform q)
  | _, _ => []

theorem reads_none (qs : List Request) : reads qs none = [] := by
  cases qs <;> rfl

theorem Sound.receive (hl : l.Sound) : l.receive.2.Sound := (subscription_receive hl).2

theorem published_cons_of_ne {h : Handle} {q : Request} (hq : ∀ m, q ≠ .publish h m)
    (qs : List Request) : Hub.published h (q :: qs) = Hub.published h qs := by
  cases q with
  | publish k m =>
    have hk : k ≠ h := fun hk => hq m (hk ▸ rfl)
    simp [Hub.published, hk]
  | _ => rfl

theorem hear_published (k : Handle) (m : Message) (qs : List Request) :
    (l.hear k m).published ++ Hub.published l.handle qs =
      l.published ++ Hub.published l.handle (.publish k m :: qs) := by
  by_cases hk : l.handle = k
  · subst hk
    simp [hear, Hub.published]
  · rw [hear, if_neg hk, published_cons_of_ne fun m' hm => hk (by cases hm; rfl)]

theorem receive_of_due {due : List Message} {n : Nat} (hp : l.due <+: due) (hn : l.due.length ≤ n)
    {read : List Message} (hr : Reads n read (due.drop l.receive.2.position)) :
    Reads n (l.receive.1.message?.toList ++ read) (due.drop l.position) := by
  cases hm : l.due[l.next]? with
  | none =>
    rw [receive_of_none hm] at hr ⊢
    have hf : (if l.hasEnded then Received.closed else .nothing).message? = none := by
      split <;> rfl
    rw [hf]
    exact hr
  | some m =>
    rw [receive_of_some hm] at hr ⊢
    obtain ⟨hlt, rfl⟩ := List.getElem?_eq_some_iff.1 hm
    obtain ⟨hlt, hx⟩ := List.getElem?_eq_some_iff.1 (List.prefix_iff_getElem?.1 hp l.next hlt)
    have hd : due.drop l.next = l.due[l.next] :: due.drop (l.next + 1) := by
      rw [List.drop_eq_getElem_cons hlt, hx]
    refine ⟨?_, fun hc => ?_⟩
    · have hs : (due.drop l.next).Sublist (due.drop l.position) :=
        List.drop_sublist_drop_left due (Nat.le_max_left ..)
      exact ((hr.ordered.cons_cons _).trans (hd ▸ List.Sublist.refl _)).trans hs
    · -- A buffer that holds all that is due passes nothing over.
      have he : l.next = l.position := by
        unfold next
        omega
      rw [← he, hd]
      exact (List.prefix_cons_inj _).2 (hr.gapless hc)

/-- A subscription reads in the order in which was published, nothing twice and nothing after the
message that ends the topic. -/
theorem reads_published (hl : l.Sound) {n : Nat} (qs : List Request)
    (hn : (l.published ++ Hub.published l.handle qs).length ≤ n) :
    Reads n (reads qs (some l))
      ((upToTerminal (l.published ++ Hub.published l.handle qs)).drop l.position) := by
  induction qs generalizing l with
  | nil => exact .nil
  | cons q qs ih =>
    have receives : ∀ id, (l.published ++ Hub.published l.handle qs).length ≤ n →
        Reads n ((if id = l.id then l.receive.1.message?.toList else []) ++
            reads qs (some (if id = l.id then l.receive.2 else l)))
          ((upToTerminal (l.published ++ Hub.published l.handle qs)).drop l.position) := by
      intro id hn
      split
      · refine receive_of_due (upToTerminal_prefix_append ..) ?_ ?_
        · exact (length_upToTerminal_le l.published).trans
            (Nat.le_trans (by rw [List.length_append]; exact Nat.le_add_right ..) hn)
        · obtain ⟨p, hp⟩ := l.receive_moves
          have hr := ih hl.receive
          rw [hp] at hr ⊢
          exact hr hn
      · exact ih hl hn
    cases q with
    | publish k m =>
      rw [← hear_published k m qs] at hn ⊢
      have hk : (l.hear k m).handle = l.handle ∧ (l.hear k m).position = l.position := by
        unfold hear
        split <;> exact ⟨rfl, rfl⟩
      have hr := ih (hl.hear k m)
      rw [hk.1, hk.2] at hr
      exact hr hn
    | recv id => exact receives id hn
    | tryRecv id => exact receives id hn
    | drop id =>
      change Reads n (reads qs (if id = l.id then none else some l)) _
      split
      · rw [reads_none]
        exact .nil
      · exact ih hl hn
    | _ => exact ih hl hn

end Listener

namespace Ideal

variable {i : Ideal} {id : Nat}

theorem find?_map {f : Listener → Listener} (hf : ∀ l, (f l).id = l.id) :
    (i.listeners.map f).find? (·.id = id) = (i.find? id).map f := by
  have hp : (fun l : Listener => decide (l.id = id)) ∘ f = fun l => decide (l.id = id) := by
    funext l
    rw [Function.comp_apply, hf]
  rw [List.find?_map, hp, find?]

theorem id_of_find? {l : Listener} (hl : i.find? id = some l) : l.id = id := by
  simpa using List.find?_some hl

theorem find?_receive (id k : Nat) : (i.receive k).2.find? id =
    (i.find? id).map fun l => if k = l.id then l.receive.2 else l := by
  unfold receive
  cases hk : i.find? k with
  | none =>
    cases hl : i.find? id with
    | none => rfl
    | some l =>
      have hn : k ≠ l.id := fun hkl => by simp [hkl, id_of_find? hl, hl] at hk
      rw [Option.map_some, if_neg hn]
  | some r =>
    obtain ⟨p, hp⟩ := r.receive_moves
    have hr := id_of_find? hk
    refine (find?_map ?_).trans ?_
    · intro l
      split
      · next hlk => rw [hp, hlk, ← hr]
      · rfl
    · cases hl : i.find? id with
      | none => rfl
      | some l =>
        by_cases hlk : k = l.id
        · have hrl : r = l := by
            rw [hlk, id_of_find? hl, hl] at hk
            exact (Option.some.inj hk).symm
          rw [Option.map_some, Option.map_some, if_pos hlk.symm, if_pos hlk, hrl]
        · rw [Option.map_some, Option.map_some, if_neg (Ne.symm hlk), if_neg hlk]

theorem find?_perform (hid : id < i.fresh) (q : Request) :
    (i.perform q).2.find? id = (i.find? id).bind (Listener.perform q) := by
  cases q with
  | subscribe h =>
    have hn : ([⟨i.fresh, h, i.topic h, [], 0⟩] : List Listener).find? (·.id = id) = none := by
      simp [Nat.ne_of_gt hid]
    refine .trans ?_ (Option.bind_fun_some _).symm
    rw [perform]
    split
    · rw [find?, List.find?_append, hn, Option.or_none, find?]
    · rfl
  | publish h m =>
    refine (find?_map fun l => ?_).trans (Option.map_eq_bind ..)
    unfold Listener.hear
    split <;> rfl
  | recv k => exact (find?_receive id k).trans (Option.map_eq_bind ..)
  | tryRecv k => exact (find?_receive id k).trans (Option.map_eq_bind ..)
  | drop k =>
    have hf : (i.perform (.drop k)).2.find? id =
        (i.listeners.filter (·.id ≠ k)).find? (·.id = id) :=
      rfl
    have hb : (i.find? id).bind (Listener.perform (.drop k)) =
        if k = id then none else i.find? id := by
      cases hl : i.find? id with
      | none => exact (ite_self none).symm
      | some l =>
        rw [Option.bind_some, Listener.perform, id_of_find? hl]
    rw [hf, hb, List.find?_filter]
    split
    · next hk =>
      rw [List.find?_eq_none]
      intro l _
      simp [hk]
    · next hk =>
      rw [find?]
      congr 1
      funext l
      by_cases hl : l.id = id <;> simp [hl, Ne.symm hk]
  | sweep => exact (Option.bind_fun_some _).symm

theorem toList_receive (i : Ideal) (id k : Nat) :
    (if k = id then (i.receive k).1.message? else none).toList =
      ((i.find? id).map fun l => if k = l.id then l.receive.1.message?.toList else []).getD [] := by
  cases hl : i.find? id with
  | none =>
    split
    · next hk =>
      rw [hk, receive, hl]
      rfl
    · rfl
  | some l =>
    rw [Option.map_some, Option.getD_some, id_of_find? hl]
    split
    · next hk => rw [hk, receive, hl]
    · rfl

theorem read_perform (q : Request) (i : Ideal) (id : Nat) :
    read id [(q, (i.perform q).1)] = ((i.find? id).map (Listener.readNow q)).getD [] := by
  rw [read_singleton]
  cases q with
  | recv k => exact toList_receive i id k
  | tryRecv k => exact toList_receive i id k
  | _ => cases i.find? id <;> rfl

theorem fresh_receive (i : Ideal) (k : Nat) : (i.receive k).2.fresh = i.fresh := by
  unfold receive
  split <;> rfl

theorem fresh_perform (q : Request) (i : Ideal) : i.fresh ≤ (i.perform q).2.fresh := by
  cases q with
  | subscribe h =>
    rw [perform]
    split
    · exact Nat.le_succ _
    · exact Nat.le_refl _
  | recv k => exact Nat.le_of_eq (fresh_receive i k).symm
  | tryRecv k => exact Nat.le_of_eq (fresh_receive i k).symm
  | _ => exact Nat.le_refl _

theorem read_trace (hid : id < i.fresh) (qs : List Request) :
    read id (i.trace qs) = Listener.reads qs (i.find? id) := by
  induction qs generalizing i with
  | nil => cases i.find? id <;> rfl
  | cons q qs ih =>
    have hc : read id (i.trace (q :: qs)) =
        read id [(q, (i.perform q).1)] ++ read id ((i.perform q).2.trace qs) :=
      List.filterMap_append (l := [_])
    rw [hc, read_perform, ih (Nat.lt_of_lt_of_le hid (fresh_perform q i)), find?_perform hid]
    cases i.find? id with
    | none => exact Listener.reads_none qs
    | some l => rfl

theorem find?_subscribe (hi : i.Orderly) {h : Handle}
    (hs : (i.perform (.subscribe h)).1 = .subscribed (.ok id)) :
    (i.perform (.subscribe h)).2.find? id = some ⟨id, h, i.topic h, [], 0⟩ ∧
      id < (i.perform (.subscribe h)).2.fresh := by
  rw [perform] at hs ⊢
  split at hs
  · next hn =>
    cases hs
    rw [if_pos hn]
    have ho : i.listeners.find? (·.id = i.fresh) = none :=
      List.find?_eq_none.2 fun l hl => by simpa using Nat.ne_of_lt (hi.given l hl)
    refine ⟨?_, Nat.lt_succ_self _⟩
    rw [find?, List.find?_append, ho]
    simp
  · cases hs

end Ideal

theorem read_filter (id : Nat) (xs : List (Request × Reply)) :
    read id (xs.filter (!·.1.isSweep)) = read id xs := by
  induction xs with
  | nil => rfl
  | cons x xs ih =>
    obtain ⟨q, r⟩ := x
    cases q with
    | sweep =>
      have hr : readAt id (Request.sweep, r) = none := by cases r <;> rfl
      rw [List.filter_cons_of_neg (by exact Bool.false_ne_true), ih, read, read,
        List.filterMap_cons_none hr]
    | _ =>
      rw [List.filter_cons_of_pos rfl]
      simp only [read, List.filterMap_cons] at ih ⊢
      rw [ih]

theorem published_filter (h : Handle) (qs : List Request) :
    published h (qs.filter (!·.isSweep)) = published h qs := by
  induction qs with
  | nil => rfl
  | cons q qs ih =>
    cases q with
    | sweep => exact ih
    | _ =>
      rw [List.filter_cons_of_pos rfl]
      simp only [published, List.filterMap_cons] at ih ⊢
      rw [ih]

/-- The hub delivers as the ideal one does, with sweeps anywhere. A subscription reads in their
order messages that were published for its handle after it began, up to the one that ends the topic,
and all of them where no more come than are kept. -/
theorem trace_delivers (limit : Nat) :
    (∀ qs, ((empty limit).trace qs).filter (!·.1.isSweep) =
      (Ideal.start limit).trace (qs.filter (!·.isSweep))) ∧
    (∀ qs qs' : List Request, qs.filter (!·.isSweep) = qs'.filter (!·.isSweep) →
      ((empty limit).trace qs).filter (!·.1.isSweep) =
        ((empty limit).trace qs').filter (!·.1.isSweep)) ∧
    ∀ qs h id qs', (((empty limit).after qs).perform (.subscribe h)).1 = .subscribed (.ok id) →
      Reads (published h qs').length
        (read id ((((empty limit).after qs).perform (.subscribe h)).2.trace qs'))
        (upToTerminal (published h qs')) := by
  have hi := Ideal.orderly_start limit
  have hc := Ideal.covered_start limit
  refine ⟨Ideal.trace_hub hi hc, fun qs qs' hq => ?_, fun qs h id qs' hs => ?_⟩
  · exact (Ideal.trace_hub hi hc qs).trans (hq ▸ (Ideal.trace_hub hi hc qs').symm)
  · obtain ⟨i, topics, ho, hc', ha⟩ := Ideal.exists_hub hi hc qs
    rw [Ideal.hub_start] at ha
    obtain ⟨topics', hc'', hp⟩ := Ideal.perform_hub ho (q := .subscribe h) rfl hc'
    rw [ha, hp] at hs ⊢
    obtain ⟨hf, hid⟩ := Ideal.find?_subscribe ho hs
    rw [← read_filter, Ideal.trace_hub (ho.perform _) hc'', Ideal.read_trace hid, hf]
    have hr := Listener.reads_published (l := ⟨id, h, i.topic h, [], 0⟩) (Nat.zero_le _)
      (qs'.filter (!·.isSweep)) (Nat.le_refl _)
    simpa only [List.nil_append, published_filter, List.drop_zero] using hr

/-- A reader who is in the second topic of its handle reads once when seventeen messages wait, and
the topic ends behind it. -/
theorem trace_delivers_slow :
    let h : Handle := ⟨"a"⟩
    let before : List Request := [.subscribe h, .publish h (.ofStatus .cancelled), .sweep]
    let run := List.replicate 17 (Request.publish h (.ofStatus .scanned)) ++
      [.recv 1, .publish h (.ofStatus .cancelled), .publish h (.confirmed "t"), .recv 1]
    let hub := (((empty 2).after before).perform (.subscribe h)).2
    before.filter (!·.isSweep) = (before.take 2).filter (!·.isSweep) ∧
    ((empty 2).trace before).filter (!·.1.isSweep) =
      ((empty 2).trace (before.take 2)).filter (!·.1.isSweep) ∧
    (((empty 2).after before).perform (.subscribe h)).1 = .subscribed (.ok 1) ∧
    Reads (published h run).length (read 1 (hub.trace run)) (upToTerminal (published h run)) ∧
    (published h run).length = 19 ∧ (upToTerminal (published h run)).length = 18 ∧
    read 1 (hub.trace run) = List.replicate 2 (.ofStatus .scanned) := by
  intro h before run hub
  have hs : (((empty 2).after before).perform (.subscribe h)).1 = .subscribed (.ok 1) := rfl
  have hb : before.filter (!·.isSweep) = (before.take 2).filter (!·.isSweep) := by decide +kernel
  refine ⟨hb, (trace_delivers 2).2.1 _ _ hb, hs, (trace_delivers 2).2.2 before h 1 run hs, ?_⟩
  decide +kernel

end Hub

end Handoff
