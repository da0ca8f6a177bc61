import Handoff.Proofs.Rendezvous.View
import Handoff.Rendezvous.Memory

namespace Handoff

namespace Memory

open View

variable {P S : Type} {now : Nat} {h k : Handle} {m : Memory P}

def view (m : Memory P) : View P := fun h => m.find? h

def Sound (m : Memory P) : Prop := m.entries.Pairwise (·.handle ≠ ·.handle)

theorem sound_empty : (empty : Memory P).Sound := List.Pairwise.nil

theorem Sound.filter (hm : m.Sound) (p : Entry P → Bool) : Sound ⟨m.entries.filter p⟩ :=
  List.Pairwise.filter p hm

theorem Sound.remove (hm : m.Sound) (h : Handle) : (m.remove h).Sound := hm.filter _

theorem Sound.store (hm : m.Sound) (e : Entry P) : (m.store e).Sound := by
  refine List.pairwise_append.2 ⟨hm.remove e.handle, List.pairwise_singleton _ _, ?_⟩
  intro a ha b hb
  rw [List.mem_singleton.1 hb]
  simpa using (List.mem_filter.1 ha).2

theorem handle_of_view {e : Entry P} (he : m.view h = some e) : e.handle = h := by
  simpa using List.find?_some he

theorem Sound.view_filter (hm : m.Sound) (p : Entry P → Bool) (h : Handle) :
    view ⟨m.entries.filter p⟩ h = (m.view h).filter p := by
  apply find?_filter_of_unique
  apply List.Pairwise.imp _ hm
  intro a b hab hq
  apply hab
  simp_all

theorem view_remove (h : Handle) (m : Memory P) :
    (m.remove h).view = Function.update m.view h none := by
  funext k
  by_cases hk : k = h
  · subst hk
    rw [Function.update_self, view, find?, List.find?_eq_none]
    intro e he
    simpa using (List.mem_filter.1 he).2
  · rw [Function.update_of_ne hk, view, view, find?, find?, remove, List.find?_filter]
    congr 1
    funext e
    by_cases he : e.handle = k <;> simp [he, hk]

theorem view_store (e : Entry P) (m : Memory P) :
    (m.store e).view = Function.update m.view e.handle (some e) := by
  funext k
  have hf : (m.store e).view k = ((m.remove e.handle).view k).or ([e].find? (·.handle = k)) :=
    List.find?_append
  rw [hf, view_remove]
  by_cases hk : k = e.handle
  · subst hk
    simp
  · rw [Function.update_of_ne hk, Function.update_of_ne hk]
    simp [Ne.symm hk]

section Operations

variable (now : Nat) (h : Handle) (p : P) (ttl : Nat) (m : Memory P)

theorem put_view :
    Put now ⟨h, now, ttl, p⟩ ⟨h, now, ttl, p⟩ m.view (m.put now h p ttl).1
      (m.put now h p ttl).2.view := by
  unfold Memory.put
  split
  · next hl =>
    apply Put.duplicate
    cases he : m.find? h with
    | none => simp [he] at hl
    | some e => simp [view, he]
  · next hl =>
    rw [view_store]
    apply Put.stored
    intro e he
    have he : m.find? h = some e := he
    simpa [he] using hl

theorem get_view : Get now h m.view (m.get now h).1 (m.get now h).2.view := by
  unfold Memory.get
  split
  · next he =>
    have hv : m.view h = none := he
    have ha : Get now h m.view (.error .notFound) (Function.update m.view h none) :=
      .absent (by simp [hv]) (by simp [hv])
    rwa [← hv, Function.update_eq_self] at ha
  · next e he =>
    have hv : m.view h = some e := he
    split
    · next hx =>
      rw [view_remove]
      exact .absent (by simp [hv, hx]) (.inr ⟨rfl, by simp [hv, hx]⟩)
    · next hx => exact .found hv (by simpa using hx)

theorem take_view [DecidableEq S] [Stage S] [Staged P S] (expected next : S) :
    Take now h expected next m.view (m.take now h expected next).1
      (m.take now h expected next).2.view := by
  have hg := get_view now h m
  unfold Memory.take
  match m.get now h, hg with
  | (.error err, m'), hg =>
    generalize m'.view = v at hg
    cases hg with
    | absent ha ho => exact .absent ha ho
    | refused => exact .refused
  | (.ok e, m'), hg =>
    obtain ⟨he, hx, hv⟩ := hg.of_ok
    have hv : m'.view = m.view := hv
    have hh : e.handle = h := handle_of_view he
    dsimp only
    split
    · next hs =>
      rw [hv]
      exact .conflict he hx hs
    · next hs =>
      have ht : Take now h expected next m.view (.ok e) _ := .taken he hx (not_not.1 hs)
      unfold moved at ht
      split
      · next hn =>
        rw [view_remove, hv]
        rwa [if_pos hn] at ht
      · next hn =>
        rw [view_store, hv, hh]
        rwa [if_neg hn, hh] at ht

variable {now h m} in
theorem take_live [DecidableEq S] [Stage S] [Staged P S] {e : Entry P} (he : m.view h = some e)
    (hx : e.isExpired now = false) (next : S) :
    (m.take now h (Staged.stage e.payload) next).1 = .ok e := by
  have hf : m.find? h = some e := he
  have hg : m.get now h = (.ok e, m) := by simp [Memory.get, hf, hx]
  unfold Memory.take
  rw [hg]
  dsimp only
  rw [if_neg (not_not.2 rfl)]
  split <;> rfl

theorem delete_view : Delete h m.view (m.delete h).1 (m.delete h).2.view := by
  unfold Memory.delete
  rw [view_remove]
  exact .deleted

variable {m}

theorem Sound.sweep_view (hm : m.Sound) : Swept now m.view (m.sweep now).2.view := by
  intro k
  have hf : (m.sweep now).2.view k = (m.view k).filter (!·.isExpired now) := hm.view_filter _ k
  rw [hf]
  cases he : m.view k with
  | none => exact .refl now none
  | some e => cases hx : e.isExpired now <;> simp [Fades, Vacant, hx]

theorem Sound.put (hm : m.Sound) : (m.put now h p ttl).2.Sound := by
  unfold Memory.put
  split
  · exact hm
  · exact hm.store _

theorem Sound.get (hm : m.Sound) : (m.get now h).2.Sound := by
  unfold Memory.get
  split
  · exact hm
  · split
    · exact hm.remove h
    · exact hm

theorem Sound.take [DecidableEq S] [Stage S] [Staged P S] (hm : m.Sound) (expected next : S) :
    (m.take now h expected next).2.Sound := by
  have hg := hm.get now h
  unfold Memory.take
  match m.get now h, hg with
  | (.error err, m'), hg => exact hg
  | (.ok e, m'), hg =>
    dsimp only
    split
    · exact hg
    · split
      · exact hg.remove h
      · exact hg.store _

theorem Sound.delete (hm : m.Sound) : (m.delete h).2.Sound := hm.remove h

theorem Sound.sweep (hm : m.Sound) : (m.sweep now).2.Sound := hm.filter _

end Operations

end Memory

end Handoff
