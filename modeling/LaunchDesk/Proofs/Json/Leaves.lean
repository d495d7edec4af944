import LaunchDesk.BotId
import LaunchDesk.Number.Decimal.Text
import LaunchDesk.Time.Stamp
import Mathlib.Data.List.TakeWhile

/-!
# Texts of leaves

Decimals, identifiers and stamps stand in documents as strings. Each is read back from the text that
it is written as; only the sign of a zero is lost.
-/

namespace LaunchDesk

/-! ## Digits -/

namespace Digits

variable {n width : Nat} {c : Char} {ds rest : List Char}

/-- The digits of `n` in base `b`, with zeros in front up to `width` of them. -/
def zeroed (b width n : Nat) : List Char :=
  List.replicate (width - (Nat.toDigits b n).length) '0' ++ Nat.toDigits b n

theorem isDigit_toDigits (n : Nat) : ∀ c ∈ Nat.toDigits 10 n, c.isDigit = true := fun _ hc =>
  Nat.isDigit_of_mem_toDigits (by decide) (by decide) hc

theorem toDigits_cons (n : Nat) : ∃ c cs, Nat.toDigits 10 n = c :: cs ∧ c.isDigit = true := by
  have hall := isDigit_toDigits n
  cases hdigits : Nat.toDigits 10 n with
  | nil => exact absurd hdigits Nat.toDigits_ne_nil
  | cons c cs =>
    rw [hdigits] at hall
    exact ⟨c, cs, rfl, hall c List.mem_cons_self⟩

theorem isDigit_zeroed (width n : Nat) : ∀ c ∈ zeroed 10 width n, c.isDigit = true := by
  intro c hc
  rcases List.mem_append.mp hc with hzero | hdigit
  · rw [(List.mem_replicate.mp hzero).2]
    rfl
  · exact isDigit_toDigits n c hdigit

theorem ofDigitChars_zeroed (width n : Nat) : Nat.ofDigitChars 10 (zeroed 10 width n) 0 = n := by
  rw [zeroed, Nat.ofDigitChars_append, Nat.ofDigitChars_replicate_zero, Nat.mul_zero,
    Nat.ofDigitChars_ten_toDigits]

theorem length_zeroed {b : Nat} (hb : 1 < b) (hwidth : 0 < width) (hn : n < Nat.pow b width) :
    (zeroed b width n).length = width := by
  have hle : (Nat.toDigits b n).length ≤ width := (Nat.length_toDigits_le_iff hb hwidth).mpr hn
  rw [zeroed, List.length_append, List.length_replicate]
  omega

theorem lt_length_zeroed (b n scale : Nat) : scale < (zeroed b (scale + 1) n).length := by
  rw [zeroed, List.length_append, List.length_replicate]
  omega

theorem le_ofDigitChars (ds : List Char) (n : Nat) : n ≤ Nat.ofDigitChars 10 ds n := by
  rw [Nat.ofDigitChars_eq_ofDigitChars_zero]
  have hpos : 0 < 10 ^ ds.length := Nat.pow_pos (by decide)
  have hle : 1 * n ≤ 10 ^ ds.length * n := Nat.mul_le_mul_right n hpos
  omega

theorem takeWhile_append (hds : ∀ c ∈ ds, c.isDigit = true)
    (h : ∀ c ∈ rest.head?, c.isDigit = false) :
    (ds ++ rest).takeWhile Char.isDigit = ds ∧ (ds ++ rest).dropWhile Char.isDigit = rest := by
  have hrest : rest.takeWhile Char.isDigit = [] ∧ rest.dropWhile Char.isDigit = rest := by
    cases rest with
    | nil => exact ⟨rfl, rfl⟩
    | cons c rest => simp [h c rfl]
  rw [List.takeWhile_append_of_pos hds, List.dropWhile_append_of_pos hds, hrest.1, hrest.2,
    List.append_nil]
  exact ⟨rfl, rfl⟩

theorem not_sign_of_isDigit (h : c.isDigit = true) : c ≠ '-' ∧ c ≠ '+' := by
  constructor <;> rintro rfl <;> cases h

end Digits

/-! ## Decimals -/

namespace Decimal

open Digits

variable {c : Char} {ds rest : List Char} {negative : Bool} {r : Reading}

/-- The decimal itself, but a zero without a sign. -/
def standard (a : Decimal) : Decimal := { a with negative := a.negative && a.mantissa != 0 }

theorem standard_of_signed (d : Decimal) (h : d.negative = true → d.mantissa ≠ 0) :
    d.standard = d := by
  have hsign : (d.negative && d.mantissa != 0) = d.negative := by
    cases hnegative : d.negative with
    | false => rfl
    | true => simpa using h hnegative
  rw [standard, hsign]

theorem cmp_standard (d : Decimal) : d.standard.cmp d = .eq := by
  by_cases hzero : d.mantissa = 0
  · simp [cmp, scaledTo, standard, hzero]
  · rw [d.standard_of_signed fun _ => hzero]
    simp [cmp]

theorem digit_of_isDigit (h : c.isDigit = true) : digit? c = some (c.toNat - 48) := by
  have hrange : '0' ≤ c ∧ c ≤ '9' := by
    simp only [Char.isDigit, Bool.and_eq_true, decide_eq_true_eq] at h
    exact h
  rw [digit?, if_pos hrange]

/-- A reader that has read digits as well. -/
def Reading.past (r : Reading) (ds : List Char) : Reading :=
  { mantissa := Nat.ofDigitChars 10 ds r.mantissa
    scale := if r.point then r.scale + ds.length else r.scale
    point := r.point
    digits := r.digits || !ds.isEmpty }

theorem readDigits_append (negative : Bool) (r : Reading) (rest : List Char)
    (hds : ∀ c ∈ ds, c.isDigit = true) (hfits : Nat.ofDigitChars 10 ds r.mantissa < limit)
    (hscale : r.point = true → r.scale + ds.length ≤ maxScale) :
    readDigits negative r (ds ++ rest) = readDigits negative (r.past ds) rest := by
  induction ds generalizing r with
  | nil =>
    have hsame : r.past [] = r := by
      cases r
      simp [Reading.past]
    rw [hsame, List.nil_append]
  | cons c ds ih =>
    have hdigit := digit_of_isDigit (hds c List.mem_cons_self)
    have hroom : ¬ (r.point = true ∧ r.scale = maxScale) := by
      rintro ⟨hpoint, hfull⟩
      have := hscale hpoint
      rw [List.length_cons] at this
      omega
    have hnext : r.mantissa * 10 + (c.toNat - 48) = 10 * r.mantissa + (c.toNat - '0'.toNat) := by
      rw [Nat.mul_comm]
      rfl
    rw [Nat.ofDigitChars_cons] at hfits
    -- Later digits only make the mantissa larger, so it fits here as well.
    have hlt := Nat.lt_of_le_of_lt (le_ofDigitChars ds _) hfits
    rw [List.cons_append, readDigits, if_neg hroom, hdigit]
    simp only [hnext, if_pos hlt]
    rw [ih _ (fun c hc => hds c (List.mem_cons_of_mem _ hc)) hfits]
    · congr 1
      simp only [Reading.past, Nat.ofDigitChars_cons, List.length_cons]
      split <;> simp [*]
      omega
    · intro hpoint
      have hfull := hscale hpoint
      rw [List.length_cons] at hfull
      simp only [if_pos hpoint]
      omega

theorem readDigits_point (h : r.point = false) :
    readDigits negative r ('.' :: rest) = readDigits negative { r with point := true } rest := by
  have hroom : ¬ (r.point = true ∧ r.scale = maxScale) := by simp [h]
  have hdigit : digit? '.' = none := rfl
  rw [readDigits, if_neg hroom, hdigit]
  simp [h]

theorem finish_standard (a : Decimal) : finish a.negative a.mantissa a.scale = .ok a.standard := by
  rw [finish, ofParts?, dif_pos ⟨a.mantissa_lt, a.scale_le⟩]
  rfl

/-- The digits of a decimal, with at least one in front of the point. -/
def allDigits (a : Decimal) : List Char := zeroed 10 (a.scale + 1) a.mantissa

/-- The digits in front of the point. -/
def lead (a : Decimal) : List Char := a.allDigits.take (a.allDigits.length - a.scale)

/-- The digits after the point. -/
def places (a : Decimal) : List Char := a.allDigits.drop (a.allDigits.length - a.scale)

theorem lead_append_places (a : Decimal) : a.lead ++ a.places = a.allDigits :=
  List.take_append_drop _ _

theorem scale_lt (a : Decimal) : a.scale < a.allDigits.length :=
  lt_length_zeroed 10 a.mantissa a.scale

theorem length_places (a : Decimal) : a.places.length = a.scale := by
  have hlt := a.scale_lt
  rw [places, List.length_drop]
  omega

/-- The text of a decimal without its sign. -/
def bodyChars (a : Decimal) : List Char :=
  a.lead ++ if a.scale = 0 then [] else '.' :: a.places

theorem textChars_eq (a : Decimal) :
    a.textChars = if a.negative then '-' :: a.bodyChars else a.bodyChars := by
  have hbody : a.bodyChars = if a.scale = 0 then a.allDigits else a.lead ++ '.' :: a.places := by
    unfold bodyChars
    split
    · next hscale => rw [lead, hscale, List.append_nil, Nat.sub_zero, List.take_length]
    · rfl
  rw [hbody]
  rfl

theorem isDigit_lead (a : Decimal) : ∀ c ∈ a.lead, c.isDigit = true := fun c hc =>
  isDigit_zeroed _ _ c (List.mem_of_mem_take hc)

theorem isDigit_places (a : Decimal) : ∀ c ∈ a.places, c.isDigit = true := fun c hc =>
  isDigit_zeroed _ _ c (List.mem_of_mem_drop hc)

theorem lead_cons (a : Decimal) : ∃ c cs, a.lead = c :: cs ∧ c.isDigit = true := by
  have hlt := a.scale_lt
  have hlength : a.lead.length = a.allDigits.length - a.scale := by
    rw [lead, List.length_take]
    omega
  cases hlead : a.lead with
  | nil =>
    rw [hlead, List.length_nil] at hlength
    omega
  | cons c cs =>
    exact ⟨c, cs, rfl, a.isDigit_lead c (hlead ▸ List.mem_cons_self)⟩

theorem lead_ne_nil (a : Decimal) : a.lead ≠ [] := by
  obtain ⟨c, cs, hlead, -⟩ := a.lead_cons
  rw [hlead]
  exact List.cons_ne_nil c cs

theorem readDigits_body (a : Decimal) (negative : Bool) :
    readDigits negative {} a.bodyChars = finish negative a.mantissa a.scale := by
  have hvalue : Nat.ofDigitChars 10 a.places (Nat.ofDigitChars 10 a.lead 0) = a.mantissa := by
    rw [← Nat.ofDigitChars_append, lead_append_places]
    exact ofDigitChars_zeroed _ _
  have hfits : Nat.ofDigitChars 10 a.lead 0 < limit :=
    Nat.lt_of_le_of_lt (le_ofDigitChars a.places _) (hvalue ▸ a.mantissa_lt)
  rw [bodyChars, readDigits_append negative {} _ a.isDigit_lead hfits nofun]
  have hseen : (Reading.past {} a.lead).digits = true := by simp [Reading.past, a.lead_ne_nil]
  split
  · next hscale =>
    have hnone : a.places = [] := List.eq_nil_of_length_eq_zero (a.length_places.trans hscale)
    rw [hnone] at hvalue
    rw [readDigits, if_pos hseen, ← hvalue, hscale]
    rfl
  · have hlimit : Nat.ofDigitChars 10 a.places (Nat.ofDigitChars 10 a.lead 0) < limit :=
      hvalue ▸ a.mantissa_lt
    have hplaces : 0 + a.places.length = a.scale := by rw [a.length_places, Nat.zero_add]
    rw [readDigits_point rfl, ← List.append_nil a.places,
      readDigits_append _ _ _ a.isDigit_places hlimit fun _ => hplaces ▸ a.scale_le]
    have hpast : (({ Reading.past {} a.lead with point := true } : Reading).past a.places) =
        { mantissa := a.mantissa, scale := a.scale, point := true, digits := true } := by
      simp [Reading.past, hvalue, a.length_places, a.lead_ne_nil]
    rw [hpast, readDigits]
    rfl

theorem readPlain_textChars (a : Decimal) : readPlain a.textChars = .ok a.standard := by
  have hfinish := finish_standard a
  rw [textChars_eq]
  cases hsign : a.negative with
  | true =>
    rw [hsign] at hfinish
    rw [if_pos rfl, readPlain, readDigits_body, hfinish]
  | false =>
    obtain ⟨c, cs, hlead, hc⟩ := a.lead_cons
    obtain ⟨hminus, hplus⟩ := not_sign_of_isDigit hc
    have hbody : ∃ rest, a.bodyChars = c :: rest := ⟨_, by rw [bodyChars, hlead, List.cons_append]⟩
    have hread := readDigits_body a false
    rw [hsign] at hfinish
    obtain ⟨rest, hbody⟩ := hbody
    rw [hbody, hfinish] at hread
    rw [if_neg Bool.false_ne_true, hbody]
    unfold readPlain
    split
    · next heq => cases heq
    · next heq => exact absurd (List.cons.inj heq).1 hminus
    · next heq => exact absurd (List.cons.inj heq).1 hplus
    · exact hread

theorem read_text (a : Decimal) : read? a.text = some a.standard := by
  rw [read?, read, text, String.toList_ofList, readPlain_textChars]
  rfl

end Decimal

/-! ## Identifiers -/

namespace Uuid

open Digits

variable {n : Nat} {ds a b c d e : List Char}

theorem ofHex_append (n : Nat) (as bs : List Char) :
    ofHex? n (as ++ bs) = (ofHex? n as).bind fun m => ofHex? m bs := by
  induction as generalizing n with
  | nil => rfl
  | cons c as ih =>
    rw [List.cons_append, ofHex?, ofHex?]
    cases Doc.hexDigit? c with
    | none => rfl
    | some d => exact ih _

theorem hexDigit_digitChar : ∀ d < 16, Doc.hexDigit? (Nat.digitChar d) = some d := by decide

theorem ofHex_zeros (k : Nat) : ofHex? 0 (List.replicate k '0') = some 0 := by
  induction k with
  | zero => rfl
  | succ k ih => exact ih

theorem ofHex_digit {d : Nat} (hd : d < 16) : ofHex? n [Nat.digitChar d] = some (n * 16 + d) := by
  rw [ofHex?, hexDigit_digitChar d hd]
  rfl

theorem ofHex_toDigits (n : Nat) : ofHex? 0 (Nat.toDigits 16 n) = some n := by
  induction n using Nat.strongRecOn with
  | ind n ih =>
    by_cases hsmall : n < 16
    · rw [Nat.toDigits_of_lt_base hsmall, ofHex_digit hsmall, Nat.zero_mul, Nat.zero_add]
    · have hquotient : n / 16 < n := by omega
      rw [Nat.toDigits_of_base_le (by decide) (by omega), ofHex_append, ih _ hquotient,
        Option.bind_some, ofHex_digit (Nat.mod_lt n (by decide))]
      congr 1
      omega

theorem ofHex_zeroed (width n : Nat) : ofHex? 0 (zeroed 16 width n) = some n := by
  rw [zeroed, ofHex_append, ofHex_zeros, Option.bind_some, ofHex_toDigits]

theorem length_digits (u : Uuid) : u.digits.length = 32 :=
  length_zeroed (by decide) (by decide) (show u.value < Nat.pow 16 32 from u.value_lt)

theorem simple_digits (u : Uuid) : simple? u.digits = some u := by
  have hhex : ofHex? 0 u.digits = some u.value := ofHex_zeroed 32 u.value
  rw [simple?, if_pos u.length_digits, hhex, Option.bind_some, ofNat?, dif_pos u.value_lt]

theorem hyphenated_groups (ha : a.length = 8) (hb : b.length = 4) (hc : c.length = 4)
    (hd : d.length = 4) (he : e.length = 12) :
    hyphenated? (a ++ '-' :: b ++ '-' :: c ++ '-' :: d ++ '-' :: e) =
      simple? (a ++ b ++ c ++ d ++ e) := by
  simp (disch := omega) [hyphenated?, grouped, List.drop_append, List.drop_of_length_le, ha, hb, hc,
    hd, he]

theorem hyphenated_grouped (h : ds.length = 32) : hyphenated? (grouped ds) = simple? ds := by
  have hwhole : ds.take 8 ++ (ds.drop 8).take 4 ++ (ds.drop 12).take 4 ++ (ds.drop 16).take 4 ++
      ds.drop 20 = ds := by
    simp [← List.take_add]
  rw [grouped, hyphenated_groups, hwhole]
  all_goals simp [h]

theorem length_grouped (h : ds.length = 32) : (grouped ds).length = 36 := by
  simp [grouped, h]

theorem read_text (u : Uuid) : read? u.text = some u := by
  have hlength := length_grouped u.length_digits
  rw [read?, text, String.toList_ofList, if_neg (by omega), if_pos hlength,
    hyphenated_grouped u.length_digits, simple_digits]

end Uuid

/-! ## Stamps -/

namespace Stamp

open Digits

variable {width n nanos : Nat} {c : Char} {rest : List Char}

/-- The year is written without a sign. -/
def HasFourDigitYear (s : Stamp) : Prop := 0 ≤ s.fields.year ∧ s.fields.year ≤ 9999

instance (s : Stamp) : Decidable s.HasFourDigitYear := by unfold HasFourDigitYear; infer_instance

theorem skipBlanks_cons (h : Text.isBlank c = false) : skipBlanks (c :: rest) = c :: rest :=
  List.dropWhile_cons_of_neg (by simp [h])

theorem not_blank_of_isDigit (h : c.isDigit = true) : Text.isBlank c = false := by
  have hrange : 48 ≤ c.toNat ∧ c.toNat ≤ 57 := by
    simp only [Char.isDigit, Bool.and_eq_true, decide_eq_true_eq] at h
    exact h
  simp only [Text.isBlank, Bool.or_eq_false_iff, Bool.and_eq_false_iff, beq_eq_false_iff_ne,
    decide_eq_false_iff_not]
  omega

/-- Zeros in front and digits, as many as a number may have. -/
theorem number_padded (hwidth : 0 < width) (hn : n < tenTo width) (rest : List Char) :
    number? width (padded width n ++ rest) = some (n, rest) := by
  have hlength : (padded width n).length = width := length_zeroed (by decide) hwidth hn
  have hdigits : (padded width n).takeWhile Char.isDigit = padded width n :=
    List.takeWhile_eq_self_iff.mpr (isDigit_zeroed width n)
  have hvalue : Nat.ofDigitChars 10 (padded width n) 0 = n := ofDigitChars_zeroed width n
  have hsome : padded width n ≠ [] := List.ne_nil_of_length_pos (by omega)
  simp [number?, List.take_left' hlength, hdigits, hvalue, hsome]

theorem padded_cons (hwidth : 0 < width) (hn : n < tenTo width) :
    ∃ c cs, padded width n = c :: cs ∧ c.isDigit = true := by
  have hlength : (padded width n).length = width := length_zeroed (by decide) hwidth hn
  cases hpadded : padded width n with
  | nil =>
    rw [hpadded, List.length_nil] at hlength
    omega
  | cons c cs =>
    have hmem : c ∈ padded width n := hpadded ▸ List.mem_cons_self
    exact ⟨c, cs, rfl, isDigit_zeroed width n c hmem⟩

theorem field_padded (hwidth : 0 < width) (hn : n < tenTo width) (rest : List Char) :
    field? width (padded width n ++ rest) = some (n, rest) := by
  have hnumber := number_padded hwidth hn rest
  obtain ⟨c, cs, hpadded, hc⟩ := padded_cons hwidth hn
  rw [hpadded, List.cons_append] at hnumber ⊢
  rw [field?, skipBlanks_cons (not_blank_of_isDigit hc), hnumber]

theorem year_yearChars {year : Int} (h : 0 ≤ year ∧ year ≤ 9999) (rest : List Char) :
    year? (yearChars year ++ rest) = some (year, rest) := by
  have hlt : year.toNat < tenTo 4 := (by omega : year.toNat < 10000)
  have hnumber := number_padded (by decide) hlt rest
  obtain ⟨c, cs, hpadded, hc⟩ := padded_cons (by decide) hlt
  obtain ⟨hminus, hplus⟩ := not_sign_of_isDigit hc
  rw [yearChars, if_pos h]
  rw [hpadded, List.cons_append] at hnumber ⊢
  unfold year?
  rw [skipBlanks_cons (not_blank_of_isDigit hc)]
  split
  · next heq => exact absurd (List.cons.inj heq).1 hminus
  · next heq => exact absurd (List.cons.inj heq).1 hplus
  · rw [hnumber, Option.map_some]
    simp only [Int.toNat_of_nonneg h.1]

theorem mark_cons (h : Text.isBlank c = false) (rest : List Char) :
    mark? c (c :: rest) = some rest := by
  rw [mark?, skipBlanks_cons h]
  exact if_pos rfl

theorem fraction_padded (hwidth : 0 < width) (hmost : width ≤ 9) (hn : n < tenTo width)
    (h : ∀ c ∈ rest.head?, c.isDigit = false) :
    fraction? ('.' :: padded width n ++ rest) = some (n * tenTo (9 - width), rest) := by
  have hlength : (padded width n).length = width := length_zeroed (by decide) hwidth hn
  have hdigits := (takeWhile_append (isDigit_zeroed width n) h).1
  have hvalue : Nat.ofDigitChars 10 (padded width n) 0 = n := ofDigitChars_zeroed width n
  have hsome : padded width n ≠ [] := List.ne_nil_of_length_pos (by omega)
  have htake : (padded width n).take 9 = padded width n :=
    List.take_of_length_le (by omega)
  change (padded width n ++ rest).takeWhile Char.isDigit = padded width n at hdigits
  simp [fraction?, hdigits, htake, hvalue, hsome, hlength, List.drop_left' hlength]

theorem fraction_fractionChars (hn : nanos < 1000000000) :
    fraction? (fractionChars nanos ++ ['Z']) = some (nanos, ['Z']) := by
  have hend : ∀ c ∈ (['Z'] : List Char).head?, c.isDigit = false := by
    rintro _ ⟨⟩
    rfl
  -- Nanoseconds are written with no, three, six or nine digits, whatever is enough.
  unfold fractionChars
  split
  · next hzero =>
    rw [hzero]
    rfl
  split
  · have hthree : nanos / 1000000 < 1000 := by omega
    have hback : nanos / 1000000 * 1000000 = nanos := by omega
    rw [fraction_padded (by decide) (by decide) hthree hend]
    exact congrArg (fun n => some (n, ['Z'])) hback
  split
  · have hsix : nanos / 1000 < 1000000 := by omega
    have hback : nanos / 1000 * 1000 = nanos := by omega
    rw [fraction_padded (by decide) (by decide) hsix hend]
    exact congrArg (fun n => some (n, ['Z'])) hback
  · rw [fraction_padded (by decide) (by decide) hn hend]
    exact congrArg (fun n => some (n, ['Z'])) (Nat.mul_one nanos)

theorem bind_of_some {α β : Type} {o : Option α} {a : α} (h : o = some a) (f : α → Option β) :
    (o >>= f) = f a := by
  rw [h]
  rfl

theorem readFields_chars (s : Stamp) (h : s.HasFourDigitYear) :
    readFields? s.chars = some (s.fields, 0) := by
  obtain ⟨-, -, -, hmonth, -, hday, hhour, hminute, hsecond, hnanos⟩ := s.valid
  have hdays : s.fields.day ≤ 31 := by
    unfold Fields.daysIn at hday
    split at hday <;> split at hday <;> omega
  have hpair {n : Nat} (hn : n < 100) (rest : List Char) :
      field? 2 (padded 2 n ++ rest) = some (n, rest) := field_padded (by decide) hn rest
  have hdash (rest : List Char) : mark? '-' ('-' :: rest) = some rest := mark_cons rfl rest
  have hcolon (rest : List Char) : mark? ':' (':' :: rest) = some rest := mark_cons rfl rest
  have hoffset : offset? (skipBlanks ['Z']) = some (0, []) := rfl
  simp only [chars, List.append_assoc, List.cons_append]
  unfold readFields?
  -- one line for each step of the reader; the letter between day and hour is looked at on the way
  refine (bind_of_some (year_yearChars h _) _).trans ?_
  refine (bind_of_some (hdash _) _).trans ?_
  refine (bind_of_some (hpair (by omega) _) _).trans ?_
  refine (bind_of_some (hdash _) _).trans ?_
  refine (bind_of_some (hpair (by omega) _) _).trans ?_
  refine (bind_of_some (hpair (by omega) _) _).trans ?_
  refine (bind_of_some (hcolon _) _).trans ?_
  refine (bind_of_some (hpair (by omega) _) _).trans ?_
  refine (bind_of_some (hcolon _) _).trans ?_
  refine (bind_of_some (hpair (by omega) _) _).trans ?_
  exact (bind_of_some (fraction_fractionChars hnanos) _).trans (bind_of_some hoffset _)

theorem read_text (s : Stamp) (h : s.HasFourDigitYear) :
    read? s.text = some s := by
  have hfields : ofFields? s.fields = some s := dif_pos s.valid
  have hminus : s.fields.minus 0 = s.fields := if_pos rfl
  rw [read?, text, String.toList_ofList, readFields_chars s h]
  simp only [Option.bind_eq_bind, Option.bind_some, hfields, hminus]
  rfl

end Stamp

end LaunchDesk
