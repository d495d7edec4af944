import LaunchDesk.Proofs.Number.Rounding
import Mathlib.Algebra.Order.Field.Power
import Mathlib.Data.Nat.Cast.Field

/-!
# Quotients

A quotient under way stands for the whole quotient at every scale. So the division is off by less
than one, whatever it drops at the end, and it fails only for a quotient that reaches the limit, up
to that one.
-/

namespace LaunchDesk.Decimal

variable {divisor n p : Nat} {scale : Int} {x : ℚ} {q : Quotient} {a b r : Decimal}

/-- `q` is the division by `divisor` that is to give `x`, as far as it has come. -/
structure Quotient.Stands (divisor : Nat) (x : ℚ) (q : Quotient) : Prop where
  value : x * 10 ^ q.scale = q.digits + (q.left : ℚ) / divisor
  left_lt : q.left < divisor
  digits_lt : q.digits < limit
  scale_le : q.scale ≤ maxScale

/-- The result of a division that is to give `x`: digits within one unit of the last place, or
nothing, because `x` is too large. -/
def Settles (x : ℚ) : Option (Nat × Int) → Prop
  | some (n, scale) =>
    n < limit ∧ 0 ≤ scale ∧ scale ≤ maxScale ∧ |(n : ℚ) - x * 10 ^ scale| ≤ 1
  | none => (limit : ℚ) ≤ x + 1

/-! ## Digits -/

theorem zpow_tenTo (scale : Int) (p : Nat) : (10 : ℚ) ^ (scale + p) = 10 ^ scale * tenTo p := by
  rw [zpow_add₀ (by norm_num), zpow_natCast, cast_tenTo]

theorem le_of_scaled (hx : 0 ≤ x) (hscale : scale ≤ 0) (h : (n : ℚ) ≤ x * 10 ^ scale) : n ≤ x := by
  have hone : (10 : ℚ) ^ scale ≤ 1 := zpow_le_one_of_nonpos₀ (by norm_num) hscale
  exact h.trans (mul_le_of_le_one_right hx hone)

theorem Quotient.Stands.left_lt_one (h : q.Stands divisor x) : (q.left : ℚ) / divisor < 1 := by
  have hpos : (0 : ℚ) < divisor := by exact_mod_cast Nat.zero_lt_of_lt h.left_lt
  rw [div_lt_one hpos]
  exact_mod_cast h.left_lt

theorem Quotient.Stands.nonneg (h : q.Stands divisor x) : 0 ≤ x := by
  have hpos : (0 : ℚ) < 10 ^ q.scale := by positivity
  refine nonneg_of_mul_nonneg_left ?_ hpos
  rw [h.value]
  positivity

/-- More digits say the same at a larger scale. -/
theorem Quotient.Stands.value_extend (h : q.Stands divisor x) (p : Nat) :
    x * 10 ^ (q.extend divisor p).scale =
      (q.extend divisor p).digits + ((q.extend divisor p).left : ℚ) / divisor := by
  have hpos : (divisor : ℚ) ≠ 0 := by exact_mod_cast (Nat.zero_lt_of_lt h.left_lt).ne'
  have hmore := Nat.div_add_mod (q.left * tenTo p) divisor
  unfold extend
  simp only
  rw [zpow_tenTo, ← mul_assoc, h.value]
  generalize q.left * tenTo p / divisor = quotient at hmore ⊢
  generalize q.left * tenTo p % divisor = rest at hmore ⊢
  have hcast : (divisor : ℚ) * quotient + rest = q.left * tenTo p := by exact_mod_cast hmore
  push_cast
  field_simp
  linarith

theorem Quotient.Stands.extend_near (h : q.Stands divisor x) (p : Nat) :
    |((q.extend divisor p).digits : ℚ) - x * 10 ^ (q.scale + p)| ≤ 1 := by
  have hpos : (0 : ℚ) < divisor := by exact_mod_cast Nat.zero_lt_of_lt h.left_lt
  have hleft : (q.extend divisor p).left < divisor := Nat.mod_lt _ (Nat.zero_lt_of_lt h.left_lt)
  have hrest : ((q.extend divisor p).left : ℚ) / divisor ≤ 1 := by
    rw [div_le_one hpos]
    exact_mod_cast hleft.le
  have hnonneg : (0 : ℚ) ≤ (q.extend divisor p).left / divisor := by positivity
  rw [show q.scale + p = (q.extend divisor p).scale from rfl, h.value_extend p, abs_le]
  constructor <;> linarith

theorem Quotient.Stands.extend (h : q.Stands divisor x)
    (hdigits : (q.extend divisor p).digits < limit) (hscale : q.scale + p ≤ maxScale) :
    (q.extend divisor p).Stands divisor x where
  value := h.value_extend p
  left_lt := Nat.mod_lt _ (Nat.zero_lt_of_lt h.left_lt)
  digits_lt := hdigits
  scale_le := hscale

theorem Quotient.Stands.overflows (h : q.Stands divisor x)
    (hdigits : limit ≤ (q.extend divisor p).digits) (hscale : q.scale + p ≤ 0) :
    Settles x none := by
  have hle : ((q.extend divisor p).digits : ℚ) ≤ x * 10 ^ (q.scale + p) := by
    rw [show q.scale + p = (q.extend divisor p).scale from rfl, h.value_extend p]
    exact le_add_of_nonneg_right (by positivity)
  have hlimit : (limit : ℚ) ≤ (q.extend divisor p).digits := by exact_mod_cast hdigits
  have hx := le_of_scaled h.nonneg hscale hle
  change (limit : ℚ) ≤ x + 1
  linarith

theorem room_spec (hn : n < limit) (hscale : scale ≤ maxScale) :
    room n scale ≤ 9 ∧ scale + room n scale ≤ maxScale ∧ n * tenTo (room n scale) < limit ∧
      ∀ p : Nat, p ≤ 9 → scale + p ≤ maxScale → n * tenTo p < limit → p ≤ room n scale := by
  have hzero : scale + (0 : Nat) ≤ maxScale ∧ n * tenTo 0 < limit := by
    rw [show tenTo 0 = 1 from rfl, Nat.mul_one]
    exact ⟨by omega, hn⟩
  unfold room
  cases hfind : (List.range 10).reverse.find? fun (p : Nat) =>
      decide (scale + p ≤ maxScale) && decide (n * tenTo p < limit) with
  | none =>
    have hnone := List.find?_eq_none.mp hfind 0 (by decide)
    simp only [Bool.and_eq_true, decide_eq_true_eq] at hnone
    exact absurd hzero hnone
  | some most =>
    obtain ⟨hmost, before, after, hrange, hbefore⟩ := List.find?_eq_some_iff_append.mp hfind
    simp only [Bool.and_eq_true, decide_eq_true_eq] at hmost
    have hnine : most < 10 := by
      rw [← List.mem_range, ← List.mem_reverse, hrange]
      simp
    rw [Option.getD_some]
    refine ⟨Nat.le_of_lt_succ hnine, hmost.1, hmost.2, fun p hp hplace hfits => ?_⟩
    by_contra hmore
    -- The places are tried from the most downwards, so more that fit had been found first.
    have hsorted : (before ++ most :: after).Pairwise (· > ·) := by
      rw [← hrange, List.pairwise_reverse]
      exact List.pairwise_lt_range
    have hmem : p ∈ before ++ most :: after := by
      rw [← hrange, List.mem_reverse, List.mem_range]
      omega
    have hp' := hbefore p (mem_before hsorted hmem (by omega) (by omega))
    simp [hplace, hfits] at hp'

/-! ## The last digit -/

theorem settles_shorten (hx : 0 ≤ x) (hnear : |(n : ℚ) - x * 10 ^ scale| ≤ 1) (hlimit : limit ≤ n)
    (hfew : n < limit + tenTo 10) (hscale : scale ≤ maxScale) (sticky : Bool) :
    Settles x (shorten? n scale sticky) := by
  obtain ⟨hbelow, habove⟩ := abs_le.mp hnear
  unfold shorten?
  split
  · next hplace =>
    have hone : (10 : ℚ) ^ scale ≤ 1 := zpow_le_one_of_nonpos₀ (by norm_num) (by omega)
    have hle : x * 10 ^ scale ≤ x := mul_le_of_le_one_right hx hone
    have hcast : (limit : ℚ) ≤ n := by exact_mod_cast hlimit
    change (limit : ℚ) ≤ x + 1
    linarith
  · simp only
    generalize hk : (if n % 10 > 5 ∨ n % 10 = 5 ∧ (sticky = true ∨ n / 10 % 2 = 1) then
      n / 10 + 1 else n / 10) = k
    have hround : 10 * k ≤ n + 5 ∧ n ≤ 10 * k + 5 := by
      subst hk
      split <;> omega
    refine ⟨?_, by omega, by omega, ?_⟩
    · have hbound : limit + tenTo 10 + 5 < 10 * limit := by decide
      omega
    · have hpower : (10 : ℚ) ^ scale = 10 ^ (scale - 1) * 10 := by
        rw [← zpow_add_one₀ (by norm_num), sub_add_cancel]
      have hcast : 10 * (k : ℚ) ≤ n + 5 ∧ (n : ℚ) ≤ 10 * k + 5 := by exact_mod_cast hround
      rw [hpower, ← mul_assoc] at hbelow habove
      obtain ⟨hdown, hup⟩ := hcast
      rw [abs_le]
      constructor <;> linarith

theorem Quotient.Stands.settles_roundLast (h : q.Stands divisor x) (hscale : 0 ≤ q.scale) :
    Settles x (roundLast? divisor q) := by
  have hrest := h.left_lt_one
  have hnonneg : (0 : ℚ) ≤ q.left / divisor := by positivity
  have hup : |((q.digits + 1 : Nat) : ℚ) - x * 10 ^ q.scale| ≤ 1 := by
    rw [h.value, abs_le]
    push_cast
    constructor <;> linarith
  unfold roundLast?
  simp only
  split
  · split
    · next hfits => exact ⟨hfits, hscale, h.scale_le, hup⟩
    · next hfull =>
      have hlast := h.digits_lt
      have hten : 0 < tenTo 10 := by decide
      exact settles_shorten h.nonneg hup (by omega) (by omega) h.scale_le true
  · refine ⟨h.digits_lt, hscale, h.scale_le, ?_⟩
    rw [h.value, abs_le]
    constructor <;> linarith

theorem Quotient.Stands.digits_extend (h : q.Stands divisor x) (hp : p ≤ 9)
    (hroom : q.digits * tenTo p < limit) : (q.extend divisor p).digits < limit + tenTo 10 := by
  have hmore : q.left * tenTo p / divisor < tenTo p := by
    rw [Nat.div_lt_iff_lt_mul (Nat.zero_lt_of_lt h.left_lt), Nat.mul_comm]
    exact Nat.mul_lt_mul_of_pos_left h.left_lt (tenTo_pos p)
  have hfew : tenTo p ≤ tenTo 10 := Nat.pow_le_pow_right (by decide) (by omega)
  unfold Quotient.extend
  simp only
  omega

theorem Settles.flagged {result : Option (Nat × Int)} (h : Settles x result) :
    Settles x ((result.map fun (n, scale) => (n, scale, true)).map
      fun (n, scale, _) => (n, scale)) := by
  cases result <;> exact h

/-- Every round of a division keeps what it stands for, and raises its scale. -/
theorem Quotient.Stands.settles_divideLoop (fuel : Nat) (h : q.Stands divisor x)
    (hfuel : maxScale - q.scale < fuel) (uneven : Bool) :
    Settles x ((divideLoop divisor fuel q uneven).map fun (n, scale, _) => (n, scale)) := by
  -- Every round that goes on raises the scale, which has a limit; so the fuel does not run out.
  induction fuel generalizing q uneven with
  | zero =>
    have hscale := h.scale_le
    omega
  | succ fuel ih =>
    unfold divideLoop
    split
    · next heven =>
      split
      · next hplaces =>
        refine ⟨h.digits_lt, hplaces, h.scale_le, ?_⟩
        rw [h.value, heven]
        simp
      · next hplaces =>
        simp only
        split
        · next hfits =>
          exact ih (h.extend hfits (by omega)) (by simp only [Quotient.extend]; omega) uneven
        · next hfull => exact h.overflows (Nat.le_of_not_lt hfull) (by omega)
    · obtain ⟨hnine, hplace, hroom, hmost⟩ := room_spec h.digits_lt h.scale_le
      generalize room q.digits q.scale = p at hnine hplace hroom hmost ⊢
      simp only
      split
      · next htoo =>
        -- There is no room for the next digit, and it is still in front of the point.
        have hfull : limit ≤ q.digits * tenTo (p + 1) := by
          by_contra hnot
          have hnext := hmost (p + 1) (by omega) (by omega) (Nat.lt_of_not_le hnot)
          omega
        exact h.overflows (p := p + 1) (hfull.trans (Nat.le_add_right ..)) (by omega)
      · split
        · next hnone => exact (h.settles_roundLast (by omega)).flagged
        · next hsome =>
          split
          · next hfits =>
            exact ih (h.extend hfits hplace) (by simp only [Quotient.extend]; omega) true
          · next hfull =>
            have hfew := h.digits_extend hnine hroom
            exact (settles_shorten h.nonneg (h.extend_near p) (Nat.le_of_not_lt hfull) hfew hplace
              _).flagged

/-! ## Whole divisions -/

/-- The parts of a number without some of its last zeros. -/
structure Trims (n s : Nat) (parts : Nat × Nat) : Prop where
  value : (parts.1 : ℚ) / 10 ^ parts.2 = n / 10 ^ s
  mantissa_le : parts.1 ≤ n
  scale_le : parts.2 ≤ s

theorem Trims.refl (n s : Nat) : Trims n s (n, s) := ⟨rfl, Nat.le_refl _, Nat.le_refl _⟩

theorem Trims.dropZeros {s : Nat} {parts : Nat × Nat} (h : Trims n s parts) (low k : Nat) :
    Trims n s (dropZeros low k parts.1 parts.2) := by
  obtain ⟨m, t⟩ := parts
  obtain ⟨hvalue, hmantissa, hscale⟩ := h
  simp only at hvalue hmantissa hscale ⊢
  unfold Decimal.dropZeros
  split
  · next hzeros =>
    obtain ⟨-, hk, hdivides⟩ := hzeros
    refine ⟨?_, (Nat.div_le_self ..).trans hmantissa, (Nat.sub_le ..).trans hscale⟩
    have hpower : (10 : ℚ) ^ t = tenTo k * 10 ^ (t - k) := by
      rw [cast_tenTo, ← pow_add, Nat.add_sub_cancel' hk]
    have hpos : (tenTo k : ℚ) ≠ 0 := by exact_mod_cast (tenTo_pos k).ne'
    rw [← hvalue, Nat.cast_div (Nat.dvd_of_mod_eq_zero hdivides) hpos, hpower, div_div]
  · exact ⟨hvalue, hmantissa, hscale⟩

theorem trims_stripZeros (n s : Nat) : Trims n s (stripZeros n s) := by
  have heights : Trims n s ((List.range 3).foldl
      (fun parts _ => Decimal.dropZeros (twoTo 32) 8 parts.1 parts.2) (n, s)) :=
    List.foldlRecOn _ _ (Trims.refl n s) fun _ h _ _ => h.dropZeros _ _
  exact ((heights.dropZeros _ _).dropZeros _ _).dropZeros _ _

theorem stands_first (a : Decimal) (hb : b.isZero = false) :
    Quotient.Stands b.mantissa (|a.value| / |b.value|)
      ⟨a.mantissa / b.mantissa, a.mantissa % b.mantissa, a.scale - b.scale⟩ where
  value := by
    have hmantissa : (b.mantissa : ℚ) ≠ 0 := by simpa [isZero] using hb
    have hsplit : (b.mantissa : ℚ) * (a.mantissa / b.mantissa : Nat) +
        (a.mantissa % b.mantissa : Nat) = a.mantissa := by
      exact_mod_cast Nat.div_add_mod a.mantissa b.mantissa
    rw [abs_value, abs_value, zpow_sub₀ (by norm_num), zpow_natCast, zpow_natCast]
    field_simp
    linarith
  left_lt := Nat.mod_lt _ (Nat.pos_of_ne_zero (by simpa [isZero] using hb))
  digits_lt := (Nat.div_le_self ..).trans_lt a.mantissa_lt
  scale_le := by
    have hscale := a.scale_le
    simp only
    omega

theorem ofParts?_of_settles {s : Nat} {parts : Nat × Nat} (negative : Bool)
    (h : Settles x (some (n, scale))) (hs : scale = s) (htrims : Trims n s parts) :
    ∃ r, ofParts? negative parts.1 parts.2 = some r ∧ |(|r.value| - x)| ≤ 1 := by
  obtain ⟨hn, -, hscale, hnear⟩ := h
  subst hs
  have hfits : ofParts? negative parts.1 parts.2 ≠ none := by
    rw [ne_eq, ofParts?_eq_none_iff, not_not]
    have hplaces := htrims.scale_le
    exact ⟨htrims.mantissa_le.trans_lt hn, by omega⟩
  obtain ⟨r, hr⟩ := Option.ne_none_iff_exists'.mp hfits
  have hvalue : |r.value| = n / 10 ^ s := by
    have hnonneg : (0 : ℚ) ≤ parts.1 / 10 ^ parts.2 := by positivity
    rw [value_of_ofParts? hr, abs_mul, abs_of_nonneg hnonneg, htrims.value]
    split <;> simp
  have hone : (1 : ℚ) ≤ 10 ^ s := one_le_pow₀ (by norm_num)
  have hpos : (0 : ℚ) < 10 ^ s := by positivity
  refine ⟨r, hr, ?_⟩
  rw [zpow_natCast] at hnear
  rw [hvalue, show (n : ℚ) / 10 ^ s - x = (n - x * 10 ^ s) / 10 ^ s by field_simp, abs_div,
    abs_of_pos hpos]
  exact (div_le_one hpos).mpr (hnear.trans hone)

/-- A division gives the quotient but for less than one, or it fails because the quotient reaches
the limit but for less than one. -/
theorem div_spec (a : Decimal) (hb : b.isZero = false) :
    (∃ r, a.div b = .ok r ∧ |(|r.value| - |a.value| / |b.value|)| ≤ 1) ∨
      a.div b = .error .division ∧ (limit : ℚ) ≤ |a.value| / |b.value| + 1 := by
  unfold div
  cases ha : a.isZero with
  | true =>
    left
    refine ⟨zero, by simp [hb], ?_⟩
    simp [value_eq_zero ha, value_eq_zero (a := zero) rfl]
  | false =>
    -- The scale begins at -28 at the least and ends at 28 at the most, so 64 rounds are enough.
    have hloop := (stands_first a hb).settles_divideLoop 64
      (by
        have hscale := b.scale_le
        simp only [maxScale] at hscale ⊢
        omega) false
    simp only [hb, Bool.false_eq_true, if_false]
    cases hresult : divideLoop b.mantissa 64
        ⟨a.mantissa / b.mantissa, a.mantissa % b.mantissa, a.scale - b.scale⟩ false with
    | none =>
      right
      rw [hresult] at hloop
      exact ⟨rfl, hloop⟩
    | some result =>
      left
      obtain ⟨n, scale, uneven⟩ := result
      rw [hresult] at hloop
      have htrims : Trims n scale.toNat
          (if uneven then stripZeros n scale.toNat else (n, scale.toNat)) := by
        split
        · exact trims_stripZeros ..
        · exact .refl ..
      obtain ⟨r, hr, hnear⟩ := ofParts?_of_settles (a.negative != b.negative) hloop
        (Int.toNat_of_nonneg hloop.2.1).symm htrims
      refine ⟨r, ?_, hnear⟩
      simp only [Option.bind_some, hr]

end LaunchDesk.Decimal
