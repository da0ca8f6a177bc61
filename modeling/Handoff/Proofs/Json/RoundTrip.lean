import Handoff.Json.Printer
import Handoff.Json.Record
import Handoff.Proofs.Text.Digits
import Handoff.Proofs.Text.Utf8

namespace Handoff.Json

mutual

def tokens : Json → List Token
  | .null => [.null]
  | .bool b => [.bool b]
  | .num n => [.num n]
  | .str s => [.str (some s)]
  | .arr [] => [.beginArray, .endArray]
  | .arr (j :: js) => .beginArray :: (j.tokens ++ itemsTokens js)
  | .obj [] => [.beginObject, .endObject]
  | .obj ((k, j) :: ms) =>
    .beginObject :: .str (some k) :: .colon :: (j.tokens ++ membersTokens ms)

def itemsTokens : List Json → List Token
  | [] => [.endArray]
  | j :: js => .comma :: (j.tokens ++ itemsTokens js)

def membersTokens : List (String × Json) → List Token
  | [] => [.endObject]
  | (k, j) :: ms => .comma :: .str (some k) :: .colon :: (j.tokens ++ membersTokens ms)

end

mutual

def draft : Json → Draft
  | .null => .null
  | .bool b => .bool b
  | .num n => .num n
  | .str s => .str (some s)
  | .arr js => .arr (itemsDraft js) true
  | .obj ms => .obj (membersDraft ms) true

def itemsDraft : List Json → List Draft
  | [] => []
  | j :: js => j.draft :: itemsDraft js

def membersDraft : List (String × Json) → List (Option String × Draft)
  | [] => []
  | (k, j) :: ms => (some k, j.draft) :: membersDraft ms

end

def source (cs : List Char) : Source := cs.map some

@[simp] theorem source_nil : source [] = [] := rfl

@[simp] theorem source_cons (c : Char) (cs : List Char) : source (c :: cs) = some c :: source cs :=
  rfl

@[simp] theorem source_append (cs ds : List Char) : source (cs ++ ds) = source cs ++ source ds :=
  List.map_append

section Strings

theorem unit?_digits (a b : Nat) :
    unit? (some '0') (some '0') (some (Text.Hex.digit a)) (some (Text.Hex.digit b)) =
      some (16 * (a % 16) + b % 16) := by
  have h0 : Text.Hex.value '0' = some 0 := by decide
  simp [unit?, hexValue, h0, Text.Hex.value_digit]

theorem assemble_unit {c : Char} (hc : c.toNat < 0x20) (ps : List Piece) :
    assemble (.unit c.toNat :: ps) = (assemble ps).map (c :: ·) := by
  have hl : isLowSurrogate c.toNat = false := by
    unfold isLowSurrogate
    simp
    omega
  have hh : isHighSurrogate c.toNat = false := by
    unfold isHighSurrogate
    simp
    omega
  rw [assemble.eq_def]
  simp [hl, hh]

theorem scanString_escapeChar (c : Char) (r : Source) :
    ∃ p : Piece, (∀ ps, assemble (p :: ps) = (assemble ps).map (c :: ·)) ∧
      scanString (source (escapeChar c) ++ r) =
        (scanString r).map fun (ps, s) => (p :: ps, s) := by
  unfold escapeChar
  split
  · next h => exact ⟨.char c, fun _ => rfl, by rw [h]; rfl⟩
  split
  · next h => exact ⟨.char c, fun _ => rfl, by rw [h]; rfl⟩
  split
  · next h => exact ⟨.char c, fun _ => rfl, by rw [h]; rfl⟩
  split
  · next h => exact ⟨.char c, fun _ => rfl, by rw [h]; rfl⟩
  split
  · next h => exact ⟨.char c, fun _ => rfl, by rw [h]; rfl⟩
  split
  · next h => exact ⟨.char c, fun _ => rfl, by rw [h]; rfl⟩
  split
  · next h => exact ⟨.char c, fun _ => rfl, by rw [h]; rfl⟩
  split
  · next h =>
    refine ⟨.unit c.toNat, assemble_unit h, ?_⟩
    have hn : 16 * (c.toNat / 16 % 16) + c.toNat % 16 = c.toNat := by omega
    change scanString (some '\\' :: some 'u' :: some '0' :: some '0' :: _ :: _ :: r) = _
    rw [scanString]
    simp only [unit?_digits, hn]
  · next hq hb _ _ _ _ _ hc =>
    refine ⟨.char c, fun _ => rfl, ?_⟩
    change scanString (some c :: r) = _
    rw [scanString, if_neg hc]
    · exact hq
    · exact fun _ _ _ _ _ _ => hb
    · exact fun _ _ _ => hb
    · exact hb

theorem scanString_escaped (cs : List Char) (r : Source) :
    ∃ ps, assemble ps = some cs ∧
      scanString (source (cs.flatMap escapeChar) ++ some '"' :: r) = some (ps, r) := by
  induction cs with
  | nil => exact ⟨[], rfl, rfl⟩
  | cons c cs ih =>
    obtain ⟨ps, hps, hs⟩ := ih
    rw [List.flatMap_cons, source_append, List.append_assoc]
    obtain ⟨p, hp, he⟩ := scanString_escapeChar c (source (cs.flatMap escapeChar) ++ some '"' :: r)
    refine ⟨p :: ps, ?_, ?_⟩
    · rw [hp, hps]
      rfl
    · rw [he, hs]
      rfl

end Strings

section Words

theorem scan_cons {c : Char} {r s : Source} {t : Token} (hc : isSpace c = false)
    (ht : scanToken c r = some (t, s)) : scan (some c :: r) = t :: scan s := by
  rw [scan, if_neg (by simp [hc])]
  split
  · next h => rw [ht] at h; cases h
  · next h =>
    rw [ht] at h
    cases h
    rfl

theorem scan_quoteChars (s : String) (r : Source) :
    scan (source (quoteChars s.toList) ++ r) = .str (some s) :: scan r := by
  obtain ⟨ps, hps, hs⟩ := scanString_escaped s.toList r
  have hq : source (quoteChars s.toList) ++ r =
      some '"' :: (source (s.toList.flatMap escapeChar) ++ some '"' :: r) := by
    simp [quoteChars]
  rw [hq]
  apply scan_cons (by decide)
  simp [scanToken, hs, hps]

section Numbers

def NoDigit (r : Source) : Prop := ∀ c ∈ r.head?, isDigit? c = false

def Ends (r : Source) : Prop :=
  ∀ c ∈ r.head?, isDigit? c = false ∧ c ≠ some '.' ∧ c ≠ some 'e' ∧ c ≠ some 'E'

theorem Ends.noDigit {r : Source} (hr : Ends r) : NoDigit r := fun c hc => (hr c hc).1

theorem spanDigits_of_noDigit {r : Source} (hr : NoDigit r) : spanDigits r = ([], r) := by
  unfold spanDigits
  split
  · next c t =>
    have hc : Text.isAsciiDigit c = false := hr (some c) rfl
    simp [hc]
  · rfl

theorem spanDigits_append {ds : List Char} (hd : ∀ c ∈ ds, Text.isAsciiDigit c = true) {r : Source}
    (hr : NoDigit r) : spanDigits (source ds ++ r) = (ds, r) := by
  induction ds with
  | nil => exact spanDigits_of_noDigit hr
  | cons c ds ih =>
    have hc := hd c List.mem_cons_self
    have hs := ih fun x hx => hd x (List.mem_cons_of_mem c hx)
    simp [spanDigits, hc, hs]

theorem spanDigits_natChars (n : Nat) {r : Source} (hr : NoDigit r) :
    spanDigits (source (Text.natChars n) ++ r) = (Text.natChars n, r) :=
  spanDigits_append Text.isAsciiDigit_of_mem_natChars hr

theorem scanFraction_of_ne {r : Source} (hr : ∀ c ∈ r.head?, c ≠ some '.') :
    scanFraction r = some ([], r) := by
  unfold scanFraction
  split
  · exact absurd rfl (hr _ rfl)
  · rfl

theorem scanExponent_of_ends {r : Source} (hr : Ends r) : scanExponent r = some (none, r) := by
  unfold scanExponent
  split
  · next c t =>
    obtain ⟨-, -, he, hE⟩ := hr (some c) rfl
    rw [if_neg]
    rintro (h | h)
    · exact he (congrArg some h)
    · exact hE (congrArg some h)
  · rfl

theorem scanToken_digit {c : Char} (hc : Text.isAsciiDigit c = true) (r : Source) :
    scanToken c r = (scanNumber false (some c :: r)).map fun (n, s) => (.num n, s) := by
  unfold scanToken
  split
  case h_12 => rw [if_pos hc]
  all_goals exact absurd hc (by decide)

theorem isSpace_digit {c : Char} (hc : Text.isAsciiDigit c = true) : isSpace c = false := by
  rw [Bool.eq_false_iff]
  intro hs
  simp only [isSpace, Bool.or_eq_true, decide_eq_true_eq] at hs
  rcases hs with ((h | h) | h) | h <;> exact absurd hc (by rw [h]; decide)

theorem scanSign_natChars (n : Nat) (r : Source) :
    scanSign (source (Text.natChars n) ++ r) = (false, source (Text.natChars n) ++ r) := by
  obtain ⟨c, cs, hcs⟩ := List.exists_cons_of_ne_nil (Text.natChars_ne_nil n)
  have hc := Text.isAsciiDigit_of_mem_natChars (n := n) c (by simp [hcs])
  rw [hcs, source_cons, List.cons_append]
  unfold scanSign
  split
  · next h => cases h; exact absurd hc (by decide)
  · next h => cases h; exact absurd hc (by decide)
  · rfl

section

variable (n : Nat) {r s : Source}

theorem scanNumber_natChars (neg : Bool) {fs : List Char} {e : Option Int} {t : Source}
    (hr : NoDigit r) (hf : scanFraction r = some (fs, t)) (he : scanExponent t = some (e, s)) :
    scanNumber neg (source (Text.natChars n) ++ r) =
      some (.ofParts neg (Text.natChars n) fs e, s) := by
  unfold scanNumber
  rw [spanDigits_natChars n hr]
  split
  · next h => exact absurd (congrArg Prod.fst h) (Text.natChars_ne_nil n)
  · next c cs _ h =>
    have hz : Text.natChars n = '0' :: c :: cs := congrArg Prod.fst h
    by_cases hn : n = 0
    · rw [hn, Text.natChars_zero] at hz
      cases hz
    · exact absurd (by rw [hz]; rfl) (Text.head_natChars hn)
  · next h =>
    cases h
    simp [hf, he]

theorem scan_intChars (i : Int) {m : Number}
    (hm : scanNumber (decide (i < 0)) (source (Text.natChars i.natAbs) ++ r) = some (m, s)) :
    scan (source (Text.intChars i) ++ r) = .num m :: scan s := by
  cases i with
  | negSucc n =>
    rw [decide_eq_true (Int.negSucc_lt_zero n), Int.natAbs_negSucc] at hm
    apply scan_cons (by decide)
    change (scanNumber true (source (Text.natChars (n + 1)) ++ r)).map _ = _
    rw [hm]
    rfl
  | ofNat n =>
    have hm : scanNumber false (source (Text.natChars n) ++ r) = some (m, s) := hm
    obtain ⟨c, cs, hcs⟩ := List.exists_cons_of_ne_nil (Text.natChars_ne_nil n)
    have hc := Text.isAsciiDigit_of_mem_natChars (n := n) c (by simp [hcs])
    change scan (source (Text.natChars n) ++ r) = _
    rw [hcs, source_cons, List.cons_append] at hm ⊢
    apply scan_cons (isSpace_digit hc)
    rw [scanToken_digit hc, hm]
    rfl

end

theorem foldDigits_signed (i : Int) :
    (if decide (i < 0) = true then -(Text.foldDigits 0 (Text.natChars i.natAbs) : Int)
      else (Text.foldDigits 0 (Text.natChars i.natAbs) : Int)) = i := by
  rw [Text.foldDigits_natChars]
  by_cases hi : i < 0
  · rw [if_pos (decide_eq_true hi)]
    omega
  · rw [if_neg (by simpa using hi)]
    omega

theorem scan_whole (i : Int) {r : Source} (hr : Ends r) :
    scan (source (Text.intChars i) ++ r) = .num (.whole i) :: scan r := by
  apply scan_intChars
  rw [scanNumber_natChars _ _ hr.noDigit (scanFraction_of_ne fun c hc => (hr c hc).2.1)
    (scanExponent_of_ends hr)]
  unfold Number.ofParts
  simp only [List.append_nil, foldDigits_signed]
  rw [if_pos]
  refine ⟨trivial, trivial, ?_⟩
  rintro ⟨hn, hz⟩
  have hn := of_decide_eq_true hn
  omega

theorem scanSign_intChars (i : Int) (r : Source) :
    scanSign (source (Text.intChars i) ++ r) =
      (decide (i < 0), source (Text.natChars i.natAbs) ++ r) := by
  cases i with
  | ofNat n => exact scanSign_natChars n r
  | negSucc n =>
    rw [decide_eq_true (Int.negSucc_lt_zero n), Int.natAbs_negSucc]
    rfl

theorem scanExponent_intChars (i : Int) {r : Source} (hr : Ends r) :
    scanExponent (some 'e' :: (source (Text.intChars i) ++ r)) = some (some i, r) := by
  unfold scanExponent
  dsimp only
  rw [if_pos (.inl rfl), scanSign_intChars, spanDigits_natChars _ hr.noDigit]
  split
  · next h => exact absurd (congrArg Prod.fst h) (Text.natChars_ne_nil _)
  · next h =>
    cases h
    simp only [foldDigits_signed]

theorem scan_scaled (m e : Int) {r : Source} (hr : Ends r) :
    scan (source (Text.intChars m ++ 'e' :: Text.intChars e) ++ r) =
      .num (.scaled m e) :: scan r := by
  rw [source_append, List.append_assoc, source_cons, List.cons_append]
  apply scan_intChars
  have hd : NoDigit (some 'e' :: (source (Text.intChars e) ++ r)) := by
    intro c hc
    cases hc
    rfl
  have hf := scanFraction_of_ne (r := some 'e' :: (source (Text.intChars e) ++ r)) (by
    intro c hc
    cases hc
    decide)
  have he := scanExponent_intChars e hr
  rw [scanNumber_natChars _ _ hd hf he]
  unfold Number.ofParts
  simp only [List.append_nil, foldDigits_signed]
  simp

end Numbers

theorem ends_items (js : List Json) (r : Source) : Ends (source (itemsChars js) ++ r) := by
  intro c hc
  cases js <;> cases hc <;> decide

theorem ends_members (ms : List (String × Json)) (r : Source) :
    Ends (source (membersChars ms) ++ r) := by
  intro c hc
  cases ms <;> cases hc <;> decide

mutual

/-- The words of a written value, in front of a text that does not go on with a number. -/
theorem scan_chars : (j : Json) → {r : Source} → Ends r →
    scan (source j.chars ++ r) = j.tokens ++ scan r
  | .null, r, _ => scan_cons (by decide) (by simp [scanToken, scanWord])
  | .bool true, r, _ => scan_cons (by decide) (by simp [scanToken, scanWord])
  | .bool false, r, _ => scan_cons (by decide) (by simp [scanToken, scanWord])
  | .num (.whole i), r, hr => scan_whole i hr
  | .num (.scaled m e), r, hr => scan_scaled m e hr
  | .str s, r, _ => scan_quoteChars s r
  | .arr [], r, _ => by
    rw [chars, tokens]
    exact (scan_cons (by decide) rfl).trans (congrArg _ (scan_cons (by decide) rfl))
  | .arr (j :: js), r, _ => by
    rw [chars, tokens, source_cons, source_append, List.cons_append, List.append_assoc,
      List.cons_append, List.append_assoc, ← scan_items js, ← scan_chars j (ends_items js r)]
    exact scan_cons (by decide) rfl
  | .obj [], r, _ => by
    rw [chars, tokens]
    exact (scan_cons (by decide) rfl).trans (congrArg _ (scan_cons (by decide) rfl))
  | .obj ((k, j) :: ms), r, _ => by
    rw [chars, tokens]
    simp only [source_cons, source_append, List.cons_append, List.append_assoc]
    rw [← scan_members ms, ← scan_chars j (ends_members ms r)]
    rw [scan_cons (by decide) rfl, scan_quoteChars, scan_cons (by decide) rfl]

theorem scan_items : (js : List Json) → {r : Source} →
    scan (source (itemsChars js) ++ r) = itemsTokens js ++ scan r
  | [], r => scan_cons (by decide) rfl
  | j :: js, r => by
    rw [itemsChars, itemsTokens]
    simp only [source_cons, source_append, List.cons_append, List.append_assoc]
    rw [← scan_items js, ← scan_chars j (ends_items js r)]
    exact scan_cons (by decide) rfl

theorem scan_members : (ms : List (String × Json)) → {r : Source} →
    scan (source (membersChars ms) ++ r) = membersTokens ms ++ scan r
  | [], r => scan_cons (by decide) rfl
  | (k, j) :: ms, r => by
    rw [membersChars, membersTokens]
    simp only [source_cons, source_append, List.cons_append, List.append_assoc]
    rw [← scan_members ms, ← scan_chars j (ends_members ms r)]
    rw [scan_cons (by decide) rfl, scan_quoteChars, scan_cons (by decide) rfl]

end

end Words

section Drafts

theorem build_valueOrEnd (j : Json) (fs : List Frame) (ts : List Token) :
    build (.arr [] :: fs) .valueOrEnd (j.tokens ++ ts) =
      build (.arr [] :: fs) .value (j.tokens ++ ts) := by
  cases j with
  | null | bool | num | str => rw [tokens, List.cons_append, build, build]; rfl
  | arr js => cases js <;> (rw [tokens, List.cons_append, build, build]; rfl)
  | obj ms => cases ms <;> (rw [tokens, List.cons_append, build, build]; rfl)

theorem build_member (k : String) (done : List (Option String × Draft)) (fs : List Frame)
    (ts : List Token) (e : Expect) (he : e = .key ∨ e = .keyOrEnd) :
    build (.obj done :: fs) e (.str (some k) :: .colon :: ts) =
      build (.member done (some k) :: fs) .value ts := by
  rcases he with rfl | rfl <;> rw [build, build]

mutual

theorem build_tokens : (j : Json) → (fs : List Frame) → (ts : List Token) →
    build fs .value (j.tokens ++ ts) = build.completed j.draft fs ts
  | .null, fs, ts => by simp [tokens, build, build.opening, Token.scalar?, draft]
  | .bool b, fs, ts => by simp [tokens, build, build.opening, Token.scalar?, draft]
  | .num n, fs, ts => by simp [tokens, build, build.opening, Token.scalar?, draft]
  | .str s, fs, ts => by simp [tokens, build, build.opening, Token.scalar?, draft]
  | .arr [], fs, ts => by
    simp [tokens, build, build.opening, close?, draft, itemsDraft]
  | .arr (j :: js), fs, ts => by
    rw [tokens, List.cons_append, List.append_assoc, build, build.opening, build_valueOrEnd,
      build_tokens j, build.completed]
    exact build_items js [j.draft] fs ts
  | .obj [], fs, ts => by
    simp [tokens, build, build.opening, close?, draft, membersDraft]
  | .obj ((k, j) :: ms), fs, ts => by
    rw [tokens]
    simp only [List.cons_append, List.append_assoc]
    rw [build, build.opening, build_member k _ _ _ _ (.inr rfl), build_tokens j, build.completed]
    exact build_members ms [(some k, j.draft)] fs ts

theorem build_items : (js : List Json) → (done : List Draft) → (fs : List Frame) →
    (ts : List Token) → build (.arr done :: fs) .commaOrEnd (itemsTokens js ++ ts) =
      build.completed (.arr (done.reverse ++ itemsDraft js) true) fs ts
  | [], done, fs, ts => by
    simp [itemsTokens, build, close?, itemsDraft]
  | j :: js, done, fs, ts => by
    rw [itemsTokens, List.cons_append, List.append_assoc, build, build_tokens j, build.completed,
      itemsDraft]
    refine (build_items js (j.draft :: done) fs ts).trans ?_
    rw [List.reverse_cons, List.append_assoc]
    rfl

theorem build_members : (ms : List (String × Json)) → (done : List (Option String × Draft)) →
    (fs : List Frame) → (ts : List Token) →
    build (.obj done :: fs) .commaOrEnd (membersTokens ms ++ ts) =
      build.completed (.obj (done.reverse ++ membersDraft ms) true) fs ts
  | [], done, fs, ts => by
    simp [membersTokens, build, close?, membersDraft]
  | (k, j) :: ms, done, fs, ts => by
    rw [membersTokens]
    simp only [List.cons_append, List.append_assoc]
    rw [build, build_member k _ _ _ _ (.inl rfl), build_tokens j, build.completed, membersDraft]
    refine (build_members ms ((some k, j.draft) :: done) fs ts).trans ?_
    rw [List.reverse_cons, List.append_assoc]
    rfl

end

theorem read_chars (j : Json) : Draft.read (source j.chars) = (j.draft, []) := by
  have hs := scan_chars j (r := []) (fun _ hc => by cases hc)
  have hb := build_tokens j [] []
  rw [List.append_nil] at hs hb
  rw [Draft.read, hs, scan, List.append_nil, hb, build.completed]
  rfl

end Drafts

/-- Reading a written value is reading its draft. -/
theorem ofText_compact {α : Type} (read : Reader α) (j : Json) :
    ofText read j.compact = read j.draft := by
  unfold ofText readSource compact
  rw [String.toList_ofList, show j.chars.map some = source j.chars from rfl, read_chars]
  dsimp only
  cases read j.draft <;> rfl

theorem ofBytes_compact {α : Type} (read : Reader α) (j : Json) :
    ofBytes read (Text.Utf8.encode j.compact) = read j.draft := by
  rw [ofBytes, Text.Utf8.encode, Text.Utf8.scan_encodeChars]
  exact ofText_compact read j

end Handoff.Json
