import Handoff.Crypto.Gcm

namespace Handoff

namespace Aes256

theorem length_xor {xs ys : List UInt8} (h : xs.length ≤ ys.length) :
    (xor xs ys).length = xs.length := by
  rw [xor, List.length_zipWith, Nat.min_eq_left h]

theorem length_xor_eq {n : Nat} {xs ys : List UInt8} (hx : xs.length = n) (hy : ys.length = n) :
    (xor xs ys).length = n :=
  (length_xor (Nat.le_of_eq (hx.trans hy.symm))).trans hx

theorem xor_xor {xs ys : List UInt8} (h : xs.length ≤ ys.length) : xor (xor xs ys) ys = xs := by
  induction xs generalizing ys with
  | nil => rfl
  | cons x xs ih =>
    cases ys with
    | nil => cases h
    | cons y ys =>
      change (x ^^^ y ^^^ y) :: xor (xor xs ys) ys = x :: xs
      rw [UInt8.xor_assoc, UInt8.xor_self, UInt8.xor_zero, ih (Nat.le_of_succ_le_succ h)]

@[simp] theorem length_shiftRows (s : List UInt8) : (shiftRows s).length = s.length := by
  unfold shiftRows
  split <;> rfl

@[simp] theorem length_mixColumns (s : List UInt8) : (mixColumns s).length = s.length := by
  fun_induction mixColumns s with
  | case1 a b c d s _ ih => simp [ih]
  | case2 s => rfl

structure Schedule.Sound (k : Schedule) : Prop where
  whitening : k.whitening.length = 16
  middle : ∀ key ∈ k.middle, key.length = 16
  last : k.last.length = 16

theorem Schedule.Sound.length_encrypt {k : Schedule} (hk : k.Sound) {block : List UInt8}
    (hb : block.length = 16) : (encrypt k block).length = 16 := by
  have hrounds (keys : List (List UInt8)) (hkeys : ∀ key ∈ keys, key.length = 16) {s : List UInt8}
      (hs : s.length = 16) :
      (keys.foldl (fun s key => xor (mixColumns (shiftRows (s.map sub))) key) s).length = 16 := by
    induction keys generalizing s with
    | nil => exact hs
    | cons key keys ih =>
      rw [List.forall_mem_cons] at hkeys
      exact ih hkeys.2 (length_xor_eq (by simp [hs]) hkeys.1)
  have hs := hrounds k.middle hk.middle (length_xor_eq hb hk.whitening)
  exact length_xor_eq (by simp [hs]) hk.last

def AreWords (ws : List (List UInt8)) : Prop := ∀ w ∈ ws, w.length = 4

theorem chain_words {first : List UInt8} {ws : List (List UInt8)} (hf : first.length = 4)
    (hw : AreWords ws) : AreWords (chain first ws) ∧ (chain first ws).length = ws.length + 1 := by
  induction ws generalizing first with
  | nil => simpa [chain, AreWords] using hf
  | cons w ws ih =>
    rw [AreWords, List.forall_mem_cons] at hw
    obtain ⟨hc, hl⟩ := ih (length_xor_eq hf hw.1) hw.2
    exact ⟨List.forall_mem_cons.2 ⟨hf, hc⟩, congrArg (· + 1) hl⟩

theorem AreWords.getD {ws : List (List UInt8)} (hw : AreWords ws) {n : Nat} (hn : n < ws.length) :
    (ws.getD n []).length = 4 := by
  rw [List.getD_eq_getElem?_getD, List.getElem?_eq_getElem hn]
  exact hw _ (List.getElem_mem hn)

@[simp] theorem length_rotateWord (w : List UInt8) : (rotateWord w).length = w.length := by
  cases w <;> simp [rotateWord]

theorem nextRow_words {row : List (List UInt8)} (hw : AreWords row) (hl : row.length = 8)
    (constant : UInt8) :
    AreWords (nextRow constant row) ∧ (nextRow constant row).length = 8 := by
  have h0 := hw.getD (n := 0) (by omega)
  have h4 := hw.getD (n := 4) (by omega)
  have h7 := hw.getD (n := 7) (by omega)
  have hmid : AreWords ((row.drop 1).take 3) := fun w hm =>
    hw w (List.mem_of_mem_drop (List.mem_of_mem_take hm))
  have hend : AreWords (row.drop 5) := fun w hm => hw w (List.mem_of_mem_drop hm)
  unfold nextRow
  dsimp only
  generalize hlow : chain _ ((row.drop 1).take 3) = low
  obtain ⟨hlw, hll⟩ : AreWords low ∧ low.length = 4 := by
    rw [← hlow]
    refine (chain_words (length_xor_eq (length_xor_eq ?_ rfl) h0) hmid).imp_right fun h => ?_
    · rw [List.length_map, length_rotateWord, h7]
    · rw [h, List.length_take, List.length_drop, hl]
      rfl
  have h3 : ((low.getD 3 []).map sub).length = 4 := by
    rw [List.length_map, hlw.getD (by omega)]
  obtain ⟨hhw, hhl⟩ := chain_words (length_xor_eq h3 h4) hend
  refine ⟨fun w hm => ?_, by rw [List.length_append, hll, hhl, List.length_drop, hl]⟩
  exact (List.mem_append.1 hm).elim (hlw w) (hhw w)

theorem rows_words (n : Nat) {row : List (List UInt8)} (hw : AreWords row) (hl : row.length = 8)
    (constant : UInt8) :
    AreWords (rows n constant row) ∧ (rows n constant row).length = 8 * n := by
  induction n generalizing row constant with
  | zero => exact ⟨by simp [rows, AreWords], rfl⟩
  | succ n ih =>
    obtain ⟨hnw, hnl⟩ := nextRow_words hw hl constant
    obtain ⟨hrw, hrl⟩ := ih hnw hnl (double constant)
    refine ⟨fun w hm => ?_, by rw [rows, List.length_append, hl, hrl]; omega⟩
    exact (List.mem_append.1 hm).elim (hw w) (hrw w)

theorem fours_words (n : Nat) {bs : List UInt8} (hb : bs.length = 4 * n) :
    AreWords (fours n bs) ∧ (fours n bs).length = n := by
  induction n generalizing bs with
  | zero => exact ⟨by simp [fours, AreWords], rfl⟩
  | succ n ih =>
    have hd : (bs.drop 4).length = 4 * n := by
      rw [List.length_drop]
      omega
    obtain ⟨hw, hl⟩ := ih hd
    refine ⟨List.forall_mem_cons.2 ⟨?_, hw⟩, congrArg (· + 1) hl⟩
    rw [List.length_take]
    omega

theorem AreWords.length_flatten {ws : List (List UInt8)} (hw : AreWords ws) :
    ws.flatten.length = 4 * ws.length := by
  induction ws with
  | nil => rfl
  | cons w ws ih =>
    rw [AreWords, List.forall_mem_cons] at hw
    rw [List.flatten_cons, List.length_append, hw.1, ih hw.2, List.length_cons]
    omega

theorem columnsOf_blocks (n : Nat) {ws : List (List UInt8)} (hw : AreWords ws)
    (hl : 4 * n ≤ ws.length) :
    (∀ b ∈ columnsOf n ws, b.length = 16) ∧ (columnsOf n ws).length = n := by
  induction n generalizing ws with
  | zero => simp [columnsOf]
  | succ n ih =>
    have ht : AreWords (ws.take 4) := fun w hm => hw w (List.mem_of_mem_take hm)
    have hd : AreWords (ws.drop 4) := fun w hm => hw w (List.mem_of_mem_drop hm)
    obtain ⟨hb, hn⟩ := ih hd (by rw [List.length_drop]; omega)
    refine ⟨List.forall_mem_cons.2 ⟨?_, hb⟩, congrArg (· + 1) hn⟩
    rw [ht.length_flatten, List.length_take]
    omega

theorem Schedule.sound_ofKey {key : List UInt8} (hk : key.length = 32) : (ofKey key).Sound := by
  obtain ⟨hf, hfl⟩ := fours_words 8 (show key.length = 4 * 8 from hk)
  obtain ⟨hr, hrl⟩ := rows_words 8 hf hfl 1
  obtain ⟨hb, hn⟩ := columnsOf_blocks 15 hr (by omega)
  unfold ofKey
  generalize columnsOf 15 (rows 8 1 (fours 8 key)) = keys at hb hn ⊢
  have hget {n : Nat} (h : n < keys.length) : (keys.getD n []).length = 16 := by
    rw [List.getD_eq_getElem?_getD, List.getElem?_eq_getElem h]
    exact hb _ (List.getElem_mem h)
  exact ⟨hget (by omega), fun b hm => hb b (List.mem_of_mem_drop (List.mem_of_mem_take hm)),
    hget (by omega)⟩

end Aes256

@[simp] theorem Sha256.length_bigEndian (n x : Nat) : (bigEndian n x).length = n := by
  induction n generalizing x with
  | zero => rfl
  | succ n ih => rw [bigEndian, List.length_append, ih, List.length_singleton]

theorem Hmac.length_sha256 (key message : List UInt8) : (sha256 key message).length = 32 :=
  rfl

namespace Gcm

theorem Key.sound_ofBytes {key : List UInt8} (hk : key.length = 32) :
    (Key.ofBytes key).schedule.Sound := Aes256.Schedule.sound_ofKey hk

/-- A text is opened if its last octets are the tag of those before them. -/
theorem open?_append {k : Key} {nonce hidden t : List UInt8} (ht : t.length = tagSize) :
    open? k nonce (hidden ++ t) =
      if t = tag k nonce hidden then some (mask k nonce hidden) else none := by
  have hl : (hidden ++ t).length - tagSize = hidden.length := by
    rw [List.length_append, ht, Nat.add_sub_cancel]
  have hn : ¬(hidden ++ t).length < tagSize := by
    rw [List.length_append, ht]
    exact Nat.not_lt.2 (Nat.le_add_left _ _)
  unfold open?
  dsimp only
  rw [if_neg hn, hl, List.take_left, List.drop_left]

section Open

variable {k : Key} (hk : k.schedule.Sound) {nonce : List UInt8} (hn : nonce.length = nonceSize)
  (text : List UInt8)

include hk hn

theorem length_cover (n : Nat) :
    (Aes256.encrypt k.schedule (counter nonce n)).length = 16 :=
  hk.length_encrypt (by rw [counter, List.length_append, hn, Sha256.length_bigEndian, nonceSize])

theorem length_keystream (blocks n : Nat) : (keystream k nonce blocks n).length = 16 * blocks := by
  induction blocks generalizing n with
  | zero => rfl
  | succ blocks ih =>
    rw [keystream, List.length_append, length_cover hk hn, ih]
    omega

theorem length_mask : (mask k nonce text).length = text.length :=
  Aes256.length_xor (by rw [length_keystream hk hn]; omega)

theorem mask_mask : mask k nonce (mask k nonce text) = text := by
  rw [mask, length_mask hk hn]
  exact Aes256.xor_xor (by rw [length_keystream hk hn]; omega)

theorem length_tag : (tag k nonce text).length = tagSize := by
  rw [tag, Aes256.length_xor_eq (Sha256.length_bigEndian 16 _) (length_cover hk hn 1)]
  rfl

theorem length_sealText : (sealText k nonce text).length = text.length + tagSize := by
  rw [sealText, List.length_append, length_mask hk hn, length_tag hk hn]

theorem open?_sealText : open? k nonce (sealText k nonce text) = some text := by
  rw [sealText, open?_append (length_tag hk hn _), if_pos rfl, mask_mask hk hn]

end Open

end Gcm

end Handoff
