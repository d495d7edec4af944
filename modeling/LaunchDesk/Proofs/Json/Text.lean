import LaunchDesk.Proofs.Json.Leaves
import Mathlib.Data.List.Induction

/-!
# Texts of documents

The text of a value is read into the tree of that value, and nothing is left over. Only
floating-point numbers are left out: their text is the business of their own format.
-/

namespace LaunchDesk

namespace Json

mutual

/-- None of the numbers is a floating-point one. -/
def isExact : Json → Bool
  | .number (.real _) => false
  | .array items => allExact items
  | .object members => membersExact members
  | _ => true

def allExact : List Json → Bool
  | [] => true
  | j :: js => isExact j && allExact js

def membersExact : List (String × Json) → Bool
  | [] => true
  | (_, j) :: ms => isExact j && membersExact ms

end

end Json

namespace Doc

open Digits

variable {c : Char} {cs rest : List Char} {fuel : Nat}

/-! ## Beginnings and ends -/

/-- What a value may begin with. -/
structure Starts (c : Char) : Prop where
  ink : isSpace c = false
  bracket : c ≠ ']'
  brace : c ≠ '\x7d'

/-- What may follow a value. -/
def Stops (rest : List Char) : Prop := ∀ c ∈ rest.head?, c = ',' ∨ c = ']' ∨ c = '\x7d'

theorem stops_nil : Stops [] := nofun

theorem stops_cons (h : c = ',' ∨ c = ']' ∨ c = '\x7d') : Stops (c :: cs) := by
  rintro _ ⟨⟩
  exact h

theorem starts_of_isDigit (h : c.isDigit = true) : Starts c := by
  refine ⟨eq_false_of_ne_true fun hspace => ?_, ?_, ?_⟩
  · simp only [isSpace, Bool.or_eq_true, beq_iff_eq] at hspace
    rcases hspace with ((rfl | rfl) | rfl) | rfl <;> cases h
  · rintro rfl
    cases h
  · rintro rfl
    cases h

theorem skipSpace_of_starts (h : Starts c) : skipSpace (c :: cs) = c :: cs :=
  List.dropWhile_cons_of_neg (by simp [h.ink])

/-! ## Strings -/

/-- The piece that stands for a character in a text that we have written. -/
def pieceOf (c : Char) : Piece :=
  if c.toNat < 0x20 ∧ c ≠ '\x08' ∧ c ≠ '\x0c' ∧ c ≠ '\x0a' ∧ c ≠ '\x0d' ∧ c ≠ '\x09' then
    .unit c.toNat
  else .char c

theorem hexUnit_of_lt : ∀ n < 0x20,
    hexUnit? '0' '0' (Json.hexDigit (n / 16)) (Json.hexDigit (n % 16)) = some n := by
  decide

theorem scanString_escapeChar (c : Char) (pieces : List Piece) (rest : List Char) :
    scanString pieces (Json.escapeChar c ++ rest) = scanString (pieceOf c :: pieces) rest := by
  unfold Json.escapeChar
  split
  case h_8 hquote hslash h8 h12 h10 h13 h9 =>
    split
    · next hlow =>
      have hunit := hexUnit_of_lt c.toNat hlow
      have hpiece : pieceOf c = .unit c.toNat := if_pos ⟨hlow, h8, h12, h10, h13, h9⟩
      simp only [List.cons_append, List.nil_append, scanString, hunit, hpiece]
    · next hhigh =>
      have hpiece : pieceOf c = .char c := if_neg fun h => hhigh h.1
      have hscan : scanString pieces (c :: rest) =
          if c.toNat < 0x20 then none else scanString (.char c :: pieces) rest := by
        rw [scanString]
        · exact hquote
        · exact fun _ _ _ _ _ heq => absurd heq hslash
        · exact fun _ _ heq => absurd heq hslash
      rw [hpiece, List.singleton_append, hscan, if_neg hhigh]
  all_goals rfl

theorem scanString_escape (cs : List Char) (pieces : List Piece) (rest : List Char) :
    scanString pieces (cs.flatMap Json.escapeChar ++ '\x22' :: rest) =
      some ((cs.map pieceOf).reverse ++ pieces, rest) := by
  induction cs generalizing pieces with
  | nil => rfl
  | cons c cs ih =>
    rw [List.flatMap_cons, List.append_assoc, scanString_escapeChar, ih]
    simp

theorem not_surrogate {n : Nat} (h : n < 0x20) : isLow n = false ∧ isHigh n = false := by
  simp only [isLow, isHigh, Bool.and_eq_false_iff, decide_eq_false_iff_not]
  omega

theorem joinPieces_pieceOf (c : Char) (acc : List Char) (pieces : List Piece) :
    joinPieces acc (pieceOf c :: pieces) = joinPieces (c :: acc) pieces := by
  by_cases hlow : c.toNat < 0x20 ∧ c ≠ '\x08' ∧ c ≠ '\x0c' ∧ c ≠ '\x0a' ∧ c ≠ '\x0d' ∧ c ≠ '\x09'
  · obtain ⟨hlower, hhigher⟩ := not_surrogate hlow.1
    rw [pieceOf, if_pos hlow]
    rcases pieces with _ | ⟨_ | _, _⟩ <;> simp [joinPieces, hlower, hhigher]
  · rw [pieceOf, if_neg hlow, joinPieces]

theorem joinPieces_reverse (cs acc : List Char) :
    joinPieces acc (cs.map pieceOf).reverse = some (cs ++ acc) := by
  induction cs using List.reverseRecOn generalizing acc with
  | nil => rfl
  | append_singleton cs c ih =>
    rw [List.map_append, List.reverse_append, List.map_singleton, List.reverse_singleton,
      List.singleton_append, joinPieces_pieceOf, ih, List.append_assoc, List.singleton_append]

theorem readString_escape (s : String) (rest : List Char) :
    readString? (Json.escape s ++ '\x22' :: rest) = some (some s, rest) := by
  have hjoin : joinPieces [] (s.toList.map pieceOf).reverse = some s.toList := by
    rw [joinPieces_reverse, List.append_nil]
  rw [readString?, Json.escape, scanString_escape, List.append_nil]
  simp only [Option.map_some, hjoin, String.ofList_toList]

/-! ## Numbers -/

theorem not_digit_of_stops (h : Stops rest) : ∀ c ∈ rest.head?, c.isDigit = false := by
  intro c hc
  rcases h c hc with rfl | rfl | rfl <;> rfl

/-- No digits begin with a zero, but for a lone one. -/
theorem head_toDigits (n : Nat) (h : n ≠ 0) :
    ∃ c cs, Nat.toDigits 10 n = c :: cs ∧ c ≠ '0' := by
  induction n using Nat.strongRecOn with
  | ind n ih =>
    by_cases hlt : n < 10
    · have hdigit : ∀ n < 10, n ≠ 0 → Nat.digitChar n ≠ '0' := by decide
      exact ⟨_, [], Nat.toDigits_of_lt_base hlt, hdigit n hlt h⟩
    · obtain ⟨c, cs, hdigits, hc⟩ := ih (n / 10) (by omega) (by omega)
      refine ⟨c, cs ++ [(n % 10).digitChar], ?_, hc⟩
      rw [Nat.toDigits_of_base_le (by decide) (by omega), hdigits, List.cons_append]

theorem whole_toDigits (n : Nat) (h : Stops rest) :
    Numeral.whole? (Nat.toDigits 10 n ++ rest) = some (Nat.toDigits 10 n, rest) := by
  obtain ⟨htake, hdrop⟩ := takeWhile_append (isDigit_toDigits n) (not_digit_of_stops h)
  have hdigits : Numeral.digits? (Nat.toDigits 10 n ++ rest) = some (Nat.toDigits 10 n, rest) := by
    unfold Numeral.digits?
    rw [htake, hdrop]
    split
    · next hnil => exact absurd hnil Nat.toDigits_ne_nil
    · rfl
  unfold Numeral.whole?
  rw [hdigits]
  -- A zero in front ends a number, but only zero itself begins with one.
  by_cases hn : n = 0
  · subst hn
    rfl
  · obtain ⟨c, cs, hcons, hc⟩ := head_toDigits n hn
    rw [hcons]
    split
    · next heq =>
      cases heq
      exact absurd rfl hc
    · rfl

theorem fraction_of_stops (h : Stops rest) : Numeral.fraction? rest = some (none, rest) := by
  cases rest with
  | nil => rfl
  | cons c rest => rcases h c rfl with rfl | rfl | rfl <;> rfl

theorem exponent_of_stops (h : Stops rest) : Numeral.exponent? rest = some (none, rest) := by
  cases rest with
  | nil => rfl
  | cons c rest => rcases h c rfl with rfl | rfl | rfl <;> rfl

/-- The parts of the numeral of a whole number. -/
def partsOf (i : Int) : Numeral.Parts := ⟨decide (i < 0), Nat.toDigits 10 i.natAbs, none, none⟩

def wholeChars (i : Int) : List Char :=
  if i < 0 then '-' :: Nat.toDigits 10 i.natAbs else Nat.toDigits 10 i.natAbs

theorem wholeChars_cons (i : Int) :
    ∃ c cs, wholeChars i = c :: cs ∧ (c = '-' ∨ c.isDigit = true) := by
  obtain ⟨c, cs, hcons, hc⟩ := toDigits_cons i.natAbs
  unfold wholeChars
  split
  · exact ⟨_, _, rfl, .inl rfl⟩
  · exact ⟨c, cs, hcons, .inr hc⟩

theorem scan_of_whole {ds : List Char} (hsign : cs.head? ≠ some '-')
    (hwhole : Numeral.whole? cs = some (ds, rest)) (h : Stops rest) :
    Numeral.scan? cs = some (⟨false, ds, none, none⟩, rest) := by
  unfold Numeral.scan?
  split
  next negative cs' heq =>
  split at heq
  · exact absurd rfl hsign
  · cases heq
    simp [hwhole, fraction_of_stops h, exponent_of_stops h]

theorem scan_wholeChars (i : Int) (h : Stops rest) :
    Numeral.scan? (wholeChars i ++ rest) = some (partsOf i, rest) := by
  have hwhole := whole_toDigits i.natAbs h
  unfold wholeChars partsOf
  split
  · next hneg => simp [Numeral.scan?, hwhole, fraction_of_stops h, exponent_of_stops h, hneg]
  · next hpos =>
    rw [decide_eq_false hpos]
    refine scan_of_whole ?_ hwhole h
    obtain ⟨c, cs, hcons, hc⟩ := toDigits_cons i.natAbs
    rw [hcons]
    rintro ⟨⟩
    cases hc

theorem ofInt_whole {i : Int} (low : -(twoTo 63 : Int) ≤ i) (high : i < twoTo 64) :
    Number.ofInt? i = some (.whole i low high) :=
  dif_pos ⟨low, high⟩

theorem value_partsOf {i : Int} (low : -(twoTo 63 : Int) ≤ i) (high : i < twoTo 64) :
    Numeral.value? (partsOf i) = some (.whole i low high) := by
  have hdigits : Nat.ofDigitChars 10 (Nat.toDigits 10 i.natAbs) 0 = i.natAbs :=
    Nat.ofDigitChars_ten_toDigits
  have hfits := ofInt_whole low high
  have hread : (if i < 0 then (if i.natAbs = 0 then none else Number.ofInt? (-i.natAbs))
      else Number.ofInt? i.natAbs) = some (.whole i low high) := by
    split
    · next hneg => rw [if_neg (by omega), show -(i.natAbs : Int) = i by omega, hfits]
    · next hpos => rw [show (i.natAbs : Int) = i by omega, hfits]
  unfold Numeral.value? partsOf
  simp only [hdigits, decide_eq_true_eq, hread]
  rfl

/-! ## Values -/

theorem readLeaf_number (i : Int) (low : -(twoTo 63 : Int) ≤ i) (high : i < twoTo 64)
    (h : Stops rest) :
    readLeaf (wholeChars i ++ rest) = (.number (some (.whole i low high)), some rest) := by
  have hscan := scan_wholeChars i h
  obtain ⟨c, cs, hcons, hc⟩ := wholeChars_cons i
  -- The first character is a sign or a digit, and none of the other leaves begins so.
  have hne : ∀ d : Char, d ≠ '-' → d.isDigit = false → c ≠ d := by
    rintro d hsign hdigit rfl
    rcases hc with rfl | hc
    · exact hsign rfl
    · rw [hdigit] at hc
      cases hc
  rw [hcons] at hscan ⊢
  unfold readLeaf
  split
  · next heq => exact absurd (List.cons.inj heq).1 (hne _ (by decide) rfl)
  · next heq => exact absurd (List.cons.inj heq).1 (hne _ (by decide) rfl)
  · next heq => exact absurd (List.cons.inj heq).1 (hne _ (by decide) rfl)
  · next heq => exact absurd (List.cons.inj heq).1 (hne _ (by decide) rfl)
  · simp only [hscan, value_partsOf low high]

theorem readLeaf_string (s : String) (rest : List Char) :
    readLeaf (Json.stringChars s ++ rest) = (.string (some s), some rest) := by
  have hstring := readString_escape s rest
  rw [Json.stringChars, List.append_assoc, List.singleton_append, List.cons_append]
  simp only [readLeaf, hstring]

/-- A value begins with what no list or object ends with. -/
theorem chars_cons (j : Json) (h : j.isExact = true) :
    ∃ c cs, j.chars = c :: cs ∧ Starts c := by
  have hstart : ∀ {c : Char},
      c = 'n' ∨ c = 't' ∨ c = 'f' ∨ c = '\x22' ∨ c = '[' ∨ c = '\x7b' ∨ c = '-' → Starts c := by
    rintro c (rfl | rfl | rfl | rfl | rfl | rfl | rfl) <;> exact ⟨rfl, by decide, by decide⟩
  cases j with
  | null => exact ⟨_, _, rfl, hstart (by simp)⟩
  | bool b => cases b <;> exact ⟨_, _, rfl, hstart (by simp)⟩
  | string s => exact ⟨_, _, rfl, hstart (by simp)⟩
  | array items => exact ⟨_, _, rfl, hstart (by simp)⟩
  | object members => exact ⟨_, _, rfl, hstart (by simp)⟩
  | number n =>
    cases n with
    | real x => cases h
    | whole i low high =>
      obtain ⟨c, cs, hcons, hc⟩ := wholeChars_cons i
      refine ⟨c, cs, hcons, ?_⟩
      rcases hc with rfl | hc
      · exact hstart (by simp)
      · exact starts_of_isDigit hc

theorem readValue_leaf (hstart : Starts c) (hlist : c ≠ '[') (hobject : c ≠ '\x7b') :
    readValue (fuel + 1) (c :: cs) = readLeaf (c :: cs) := by
  rw [readValue, skipSpace_of_starts hstart]
  split
  · next heq => exact absurd (List.cons.inj heq).1 hlist
  · next heq => exact absurd (List.cons.inj heq).1 hobject
  · rfl

theorem itemsChars_more (j k : Json) (ks : List Json) :
    Json.itemsChars (j :: k :: ks) = j.chars ++ ',' :: Json.itemsChars (k :: ks) := by
  rw [Json.itemsChars]
  exact nofun

theorem membersChars_more (key : String) (j : Json) (m : String × Json)
    (ms : List (String × Json)) :
    Json.membersChars ((key, j) :: m :: ms) =
      Json.stringChars key ++ ':' :: (j.chars ++ ',' :: Json.membersChars (m :: ms)) := by
  rw [Json.membersChars, List.append_assoc, List.cons_append]
  exact nofun

theorem stringChars_append (s : String) (more : List Char) :
    Json.stringChars s ++ more = '\x22' :: (Json.escape s ++ '\x22' :: more) := by
  simp [Json.stringChars]

theorem itemsChars_cons (j : Json) (js : List Json) (h : j.isExact = true) :
    ∃ c cs, Json.itemsChars (j :: js) = c :: cs ∧ Starts c := by
  obtain ⟨c, cs, hcons, hc⟩ := chars_cons j h
  cases js with
  | nil => exact ⟨c, cs ++ [']'], by rw [Json.itemsChars, hcons, List.cons_append], hc⟩
  | cons k ks => exact ⟨c, _, by rw [itemsChars_more, hcons, List.cons_append], hc⟩

theorem membersChars_cons (m : String × Json) (ms : List (String × Json)) :
    ∃ cs, Json.membersChars (m :: ms) = '\x22' :: cs := by
  cases ms with
  | nil => exact ⟨_, by rw [Json.membersChars, List.append_assoc, stringChars_append]⟩
  | cons k ks => exact ⟨_, by rw [membersChars_more, stringChars_append]⟩

theorem readValue_array {items : List Doc} (hstart : Starts c)
    (h : readItems fuel (c :: cs) = (items, some rest)) :
    readValue (fuel + 1) ('[' :: c :: cs) = (.array items true, some rest) := by
  rw [readValue, skipSpace_of_starts ⟨rfl, by decide, by decide⟩]
  simp only [skipSpace_of_starts hstart]
  split
  · next heq => exact absurd (List.cons.inj heq).1 hstart.bracket
  · rw [h]
    rfl

theorem readItems_last {item : Doc}
    (h : readValue fuel cs = (item, some (']' :: rest))) :
    readItems (fuel + 1) cs = ([item], some rest) := by
  rw [readItems, h]
  rfl

theorem readItems_more {item : Doc} {items : List Doc} {more : List Char} (hstart : Starts c)
    (h : readValue fuel cs = (item, some (',' :: c :: more)))
    (hrest : readItems fuel (c :: more) = (items, some rest)) :
    readItems (fuel + 1) cs = (item :: items, some rest) := by
  rw [readItems, h]
  simp only [skipSpace_of_starts (c := ',') ⟨rfl, by decide, by decide⟩,
    skipSpace_of_starts hstart]
  split
  · next heq => exact absurd (List.cons.inj heq).1 hstart.bracket
  · rw [hrest]

theorem readValue_object {members : List (Option String × Doc)} (hstart : Starts c)
    (h : readMembers fuel (c :: cs) = (members, some rest)) :
    readValue (fuel + 1) ('\x7b' :: c :: cs) = (.object members true, some rest) := by
  rw [readValue, skipSpace_of_starts ⟨rfl, by decide, by decide⟩]
  simp only [skipSpace_of_starts hstart]
  split
  · next heq => exact absurd (List.cons.inj heq).1 hstart.brace
  · rw [h]
    rfl

theorem readMembers_last {key : String} {value : Doc} {more : List Char}
    (h : readValue fuel more = (value, some ('\x7d' :: rest))) :
    readMembers (fuel + 1) (Json.stringChars key ++ ':' :: more) =
      ([(some key, value)], some rest) := by
  rw [stringChars_append, readMembers, skipSpace_of_starts ⟨rfl, by decide, by decide⟩]
  simp only [readString_escape, skipSpace_of_starts (c := ':') ⟨rfl, by decide, by decide⟩, h]
  rfl

theorem readMembers_more {key : String} {value : Doc} {members : List (Option String × Doc)}
    {more : List Char} (h : readValue fuel more = (value, some (',' :: cs)))
    (hrest : readMembers fuel cs = (members, some rest)) :
    readMembers (fuel + 1) (Json.stringChars key ++ ':' :: more) =
      ((some key, value) :: members, some rest) := by
  rw [stringChars_append, readMembers, skipSpace_of_starts ⟨rfl, by decide, by decide⟩]
  simp only [readString_escape, skipSpace_of_starts (c := ':') ⟨rfl, by decide, by decide⟩,
    skipSpace_of_starts (c := ',') ⟨rfl, by decide, by decide⟩, h, hrest]

theorem readValue_number {i : Int} (low : -(twoTo 63 : Int) ≤ i) (high : i < twoTo 64)
    (h : Stops rest) :
    readValue (fuel + 1) (wholeChars i ++ rest) =
      (.number (some (.whole i low high)), some rest) := by
  have hleaf := readLeaf_number i low high h
  obtain ⟨c, cs, hcons, hc⟩ := wholeChars_cons i
  rw [hcons, List.cons_append] at hleaf ⊢
  rw [← hleaf]
  rcases hc with rfl | hc
  · exact readValue_leaf ⟨rfl, by decide, by decide⟩ (by decide) (by decide)
  · refine readValue_leaf (starts_of_isDigit hc) ?_ ?_ <;> rintro rfl <;> cases hc

theorem readValue_string (s : String) (rest : List Char) :
    readValue (fuel + 1) (Json.stringChars s ++ rest) = (.string (some s), some rest) := by
  rw [← readLeaf_string, stringChars_append]
  exact readValue_leaf ⟨rfl, by decide, by decide⟩ (by decide) (by decide)

mutual

/-- Twice as much fuel as there are characters is enough to read the text of a value. -/
theorem readValue_chars : (j : Json) → j.isExact = true → ∀ fuel rest,
    2 * j.chars.length ≤ fuel → Stops rest →
      readValue fuel (j.chars ++ rest) = (ofJson j, some rest)
  | .null, _, fuel + 1, rest, _, _ => rfl
  | .bool true, _, fuel + 1, rest, _, _ => rfl
  | .bool false, _, fuel + 1, rest, _, _ => rfl
  | .number (.whole i low high), _, fuel + 1, rest, _, hstop => readValue_number low high hstop
  | .string s, _, fuel + 1, rest, _, _ => readValue_string s rest
  | .array [], _, fuel + 1, rest, _, _ => rfl
  | .object [], _, fuel + 1, rest, _, _ => rfl
  | .array (j :: js), h, fuel + 1, rest, hfuel, _ => by
    have hall : Json.allExact (j :: js) = true := h
    have hlength : 2 * (Json.itemsChars (j :: js)).length ≤ fuel := by
      simp only [Json.chars, List.length_cons] at hfuel
      omega
    have hitems := readItems_chars (j :: js) (by simp) hall fuel rest hlength
    rw [Json.allExact, Bool.and_eq_true] at hall
    obtain ⟨c, cs, hcons, hstart⟩ := itemsChars_cons j js hall.1
    rw [hcons] at hitems
    rw [Json.chars, hcons, ofJson]
    exact readValue_array hstart hitems
  | .object (m :: ms), h, fuel + 1, rest, hfuel, _ => by
    have hlength : 2 * (Json.membersChars (m :: ms)).length ≤ fuel := by
      simp only [Json.chars, List.length_cons] at hfuel
      omega
    have hmembers := readMembers_chars (m :: ms) (by simp) h fuel rest hlength
    obtain ⟨cs, hcons⟩ := membersChars_cons m ms
    rw [hcons] at hmembers
    rw [Json.chars, hcons, ofJson]
    exact readValue_object ⟨rfl, by decide, by decide⟩ hmembers
  | .number (.real x), h, _, _, _, _ => by cases h
  | j, h, 0, rest, hfuel, _ => by
    obtain ⟨c, cs, hcons, -⟩ := chars_cons j h
    rw [hcons] at hfuel
    simp at hfuel

theorem readItems_chars : (js : List Json) → js ≠ [] → Json.allExact js = true → ∀ fuel rest,
    2 * (Json.itemsChars js).length ≤ fuel →
      readItems fuel (Json.itemsChars js ++ rest) = (ofItems js, some rest)
  | [], h, _, _, _, _ => absurd rfl h
  | [j], _, h, fuel + 1, rest, hfuel => by
    rw [Json.allExact, Bool.and_eq_true] at h
    rw [Json.itemsChars, List.length_append, List.length_singleton] at hfuel
    have hlast := readValue_chars j h.1 fuel (']' :: rest) (by omega) (stops_cons (by simp))
    rw [Json.itemsChars, List.append_assoc, List.singleton_append]
    exact readItems_last hlast
  | j :: k :: ks, _, h, fuel + 1, rest, hfuel => by
    rw [Json.allExact, Bool.and_eq_true] at h
    have hk := h.2
    rw [Json.allExact, Bool.and_eq_true] at hk
    rw [itemsChars_more, List.length_append, List.length_cons] at hfuel
    obtain ⟨c, cs, hcons, hstart⟩ := itemsChars_cons k ks hk.1
    have hfirst := readValue_chars j h.1 fuel (',' :: Json.itemsChars (k :: ks) ++ rest) (by omega)
      (stops_cons (by simp))
    have hmore := readItems_chars (k :: ks) (by simp) h.2 fuel rest (by omega)
    rw [hcons] at hfirst hmore
    rw [itemsChars_more, hcons, List.append_assoc]
    exact readItems_more hstart hfirst hmore
  | [j], _, _, 0, _, hfuel => by simp [Json.itemsChars] at hfuel
  | j :: k :: ks, _, _, 0, _, hfuel => by simp [itemsChars_more] at hfuel

theorem readMembers_chars : (ms : List (String × Json)) → ms ≠ [] →
    Json.membersExact ms = true → ∀ fuel rest, 2 * (Json.membersChars ms).length ≤ fuel →
      readMembers fuel (Json.membersChars ms ++ rest) = (ofMembers ms, some rest)
  | [], h, _, _, _, _ => absurd rfl h
  | [(key, j)], _, h, fuel + 1, rest, hfuel => by
    rw [Json.membersExact, Bool.and_eq_true] at h
    rw [Json.membersChars, List.append_assoc, List.length_append, List.cons_append,
      List.length_cons, List.length_append, List.length_singleton] at hfuel
    have hlast := readValue_chars j h.1 fuel ('\x7d' :: rest) (by omega) (stops_cons (by simp))
    rw [Json.membersChars, List.append_assoc, List.append_assoc, List.cons_append]
    exact readMembers_last hlast
  | (key, j) :: m :: ms, _, h, fuel + 1, rest, hfuel => by
    rw [Json.membersExact, Bool.and_eq_true] at h
    rw [membersChars_more, List.length_append, List.length_cons, List.length_append,
      List.length_cons] at hfuel
    have hfirst := readValue_chars j h.1 fuel (',' :: Json.membersChars (m :: ms) ++ rest)
      (by omega) (stops_cons (by simp))
    have hmore := readMembers_chars (m :: ms) (by simp) h.2 fuel rest (by omega)
    rw [membersChars_more, List.append_assoc, List.cons_append, List.append_assoc]
    exact readMembers_more hfirst hmore
  | [(key, j)], _, _, 0, _, hfuel => by simp [Json.membersChars] at hfuel
  | (key, j) :: m :: ms, _, _, 0, _, hfuel => by simp [membersChars_more] at hfuel

end

/-- Reading the text of a value gives its tree, and nothing is left over. -/
theorem ofText_text (j : Json) (h : j.isExact = true) : ofText j.text = (ofJson j, true) := by
  have hread := readValue_chars j h (2 * j.chars.length + 2) [] (by omega) stops_nil
  rw [List.append_nil] at hread
  rw [ofText, Json.text, String.toList_ofList]
  simp only [hread]
  rfl

end Doc

end LaunchDesk
