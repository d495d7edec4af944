import LaunchDesk.Proofs.Number.Value
import Mathlib.Tactic.Linarith

/-!
# Rounding

Dropping digits moves a number by half a unit of what is left at most. So a sum or a product fits
if and only if it does not round up to the limit, and what is dropped to make it fit is less than
one part in 10^28.
-/

namespace LaunchDesk.Decimal

variable {negative : Bool} {a b r : Decimal} {n d m s : Nat}

theorem limit_eq : limit = 2 ^ 96 := rfl

theorem value_eq (a : Decimal) :
    a.value = (if a.negative then -1 else 1) * (a.mantissa / 10 ^ a.scale) := by
  unfold value
  split
  · rw [neg_one_mul, neg_div]
  · rw [one_mul]

theorem abs_value (a : Decimal) : |a.value| = a.mantissa / 10 ^ a.scale := by
  have hnonneg : (0 : ℚ) ≤ a.mantissa / 10 ^ a.scale := by positivity
  rw [value_eq, abs_mul, abs_of_nonneg hnonneg]
  split <;> simp

theorem value_eq_zero (h : a.isZero = true) : a.value = 0 := by
  have hmantissa : a.mantissa = 0 := by simpa [isZero] using h
  simp [value_eq, hmantissa]

/-! ## Half to even -/

theorem halfEven_near (n : Nat) (hd : 0 < d) :
    2 * n ≤ 2 * (halfEven n d * d) + d ∧ 2 * (halfEven n d * d) ≤ 2 * n + d := by
  have hn := Nat.div_add_mod' n d
  have hr := Nat.mod_lt n hd
  unfold halfEven
  generalize n / d = q at hn ⊢
  generalize n % d = r at hn hr ⊢
  have hnext : (q + 1) * d = q * d + d := Nat.succ_mul q d
  simp only
  split <;> omega

/-- What rounds to less than an even bound is half a unit short of it at least. -/
theorem halfEven_lt_iff (n : Nat) (hd : 0 < d) (heven : m % 2 = 0) (hm : 0 < m) :
    halfEven n d < m ↔ 2 * n + d < 2 * (m * d) := by
  have hn := Nat.div_add_mod' n d
  have hr := Nat.mod_lt n hd
  unfold halfEven
  generalize n / d = q at hn ⊢
  generalize n % d = r at hn hr ⊢
  have hnext : (q + 1) * d = q * d + d := Nat.succ_mul q d
  simp only
  rcases Nat.lt_trichotomy (q + 1) m with hq | rfl | hq
  · have hroom : (q + 1 + 1) * d ≤ m * d := Nat.mul_le_mul_right d hq
    rw [Nat.succ_mul] at hroom
    constructor
    · omega
    · intro
      split <;> omega
  · -- The bound is the next number: `q` is odd, so half a unit is rounded up.
    constructor
    · split <;> omega
    · intro hlt
      rw [if_neg (by omega)]
      omega
  · have hfull : m * d ≤ q * d := Nat.mul_le_mul_right d (by omega)
    constructor
    · split <;> omega
    · omega

/-! ## Fewer digits -/

theorem tenTo_pos (k : Nat) : 0 < tenTo k := Nat.pow_pos (by decide)

theorem halfEven_lt_limit_iff (m s : Nat) :
    halfEven m (tenTo s) < limit ↔ (m : ℚ) / 10 ^ s < limit - 1 / 2 := by
  have hpos : (0 : ℚ) < 10 ^ s := by positivity
  rw [halfEven_lt_iff m (tenTo_pos s) (by decide) (by decide), div_lt_iff₀ hpos,
    ← Nat.cast_lt (α := ℚ)]
  push_cast [cast_tenTo]
  constructor <;> intro h <;> linarith

theorem value_of_ofParts? (h : ofParts? negative m s = some r) :
    r.value = (if negative then -1 else 1) * (m / 10 ^ s) := by
  unfold ofParts? at h
  split at h
  · obtain rfl := Option.some.inj h
    rw [value_eq]
    rcases Nat.eq_zero_or_pos m with rfl | hm
    · simp
    · simp [hm.ne']
  · cases h

theorem ofParts?_eq_none_iff : ofParts? negative m s = none ↔ ¬ (m < limit ∧ s ≤ maxScale) := by
  unfold ofParts?
  split <;> simp_all

theorem fit?_isSome_iff (negative : Bool) (hs : s ≤ maxScale) :
    (fit? negative m s).isSome ↔ (m : ℚ) / 10 ^ s < limit - 1 / 2 := by
  rw [← halfEven_lt_limit_iff, fit?, List.findSome?_isSome_iff]
  constructor
  · rintro ⟨dropped, hdropped, hsome⟩
    have hle : dropped ≤ s := Nat.le_of_lt_succ (List.mem_range.mp hdropped)
    have hfits : halfEven m (tenTo dropped) < limit := by
      by_contra hnot
      rw [ofParts?_eq_none_iff.mpr fun h => hnot h.1] at hsome
      cases hsome
    rw [halfEven_lt_limit_iff] at hfits ⊢
    -- The more digits are dropped, the smaller the number in front of the point.
    refine lt_of_le_of_lt ?_ hfits
    gcongr
    norm_num
  · intro hfits
    refine ⟨s, List.self_mem_range_succ, ?_⟩
    rw [← Option.ne_none_iff_isSome, ne_eq, ofParts?_eq_none_iff, not_not]
    exact ⟨hfits, by omega⟩

theorem mem_before {R : Nat → Nat → Prop} {before after : List Nat} {x y : Nat}
    (hsorted : (before ++ x :: after).Pairwise R) (hmem : y ∈ before ++ x :: after) (hne : y ≠ x)
    (hnot : ¬ R x y) : y ∈ before := by
  rcases List.mem_append.mp hmem with hbefore | hlater
  · exact hbefore
  · rcases List.mem_cons.mp hlater with rfl | hafter
    · exact absurd rfl hne
    · have hrest := (List.pairwise_append.mp hsorted).2.1
      exact absurd ((List.pairwise_cons.mp hrest).1 y hafter) hnot

theorem fit?_eq_some (h : fit? negative m s = some r) :
    ∃ dropped ≤ s, ofParts? negative (halfEven m (tenTo dropped)) (s - dropped) = some r ∧
      ∀ fewer < dropped, ofParts? negative (halfEven m (tenTo fewer)) (s - fewer) = none := by
  obtain ⟨before, dropped, after, hrange, hsome, hnone⟩ := List.findSome?_eq_some_iff.mp h
  have hle : dropped ≤ s := by
    apply Nat.le_of_lt_succ
    rw [← List.mem_range, hrange]
    simp
  refine ⟨dropped, hle, hsome, fun fewer hfewer => hnone fewer ?_⟩
  have hsorted : (before ++ dropped :: after).Pairwise (· < ·) := hrange ▸ List.pairwise_lt_range
  refine mem_before hsorted ?_ hfewer.ne (Nat.not_lt_of_lt hfewer)
  rw [← hrange, List.mem_range]
  omega

theorem fit?_near (hs : s ≤ maxScale) (h : fit? negative m s = some r) :
    |r.value - (if negative then -1 else 1) * (m / 10 ^ s)| ≤ (m : ℚ) / 10 ^ s / 10 ^ 28 := by
  obtain ⟨dropped, hle, hparts, hfewer⟩ := fit?_eq_some h
  have hsign : |(if negative then -1 else 1 : ℚ)| = 1 := by split <;> simp
  have hnear := halfEven_near m (tenTo_pos dropped)
  rw [value_of_ofParts? hparts, ← mul_sub, abs_mul, hsign, one_mul]
  generalize halfEven m (tenTo dropped) = k at hnear
  cases dropped with
  | zero =>
    obtain rfl : k = m := by
      rw [show tenTo 0 = 1 from rfl] at hnear
      omega
    rw [Nat.sub_zero, sub_self, abs_zero]
    positivity
  | succ dropped =>
    -- One digit less was not enough, so the mantissa is large against what is dropped.
    have hlarge : (limit - 1 / 2 : ℚ) ≤ m / 10 ^ dropped := by
      have hnone := ofParts?_eq_none_iff.mp (hfewer dropped (Nat.lt_succ_self _))
      rw [← not_lt, ← halfEven_lt_limit_iff]
      intro hfits
      exact hnone ⟨hfits, by omega⟩
    have hdropped : (0 : ℚ) < 10 ^ dropped := by positivity
    rw [le_div_iff₀ hdropped, limit_eq] at hlarge
    have hmoved : |(k * 10 ^ (dropped + 1) - m : ℚ)| ≤ m / 10 ^ 28 := by
      obtain ⟨hbelow, habove⟩ := hnear
      rw [← Nat.cast_le (α := ℚ)] at hbelow habove
      push_cast [cast_tenTo, pow_succ] at hbelow habove hlarge ⊢
      rw [abs_le]
      constructor <;> linarith
    have hs' : (10 : ℚ) ^ s = 10 ^ (s - (dropped + 1)) * 10 ^ (dropped + 1) := by
      rw [← pow_add, Nat.sub_add_cancel hle]
    have hscale : (0 : ℚ) < 10 ^ s := by positivity
    calc |(k / 10 ^ (s - (dropped + 1)) - m / 10 ^ s : ℚ)|
        = |(k * 10 ^ (dropped + 1) - m : ℚ)| / 10 ^ s := by
          rw [← abs_of_pos hscale, ← abs_div, abs_of_pos hscale, sub_div, hs',
            mul_div_mul_right _ _ (by positivity)]
      _ ≤ m / 10 ^ 28 / 10 ^ s := by gcongr
      _ = m / 10 ^ s / 10 ^ 28 := div_right_comm ..

/-! ## Differences and hundredfolds -/

theorem abs_value_le (a : Decimal) : |a.value| ≤ limit - 1 := by
  have hmantissa : (a.mantissa : ℚ) ≤ limit - 1 := by
    have hlt := a.mantissa_lt
    rw [le_sub_iff_add_le]
    exact_mod_cast hlt
  rw [abs_value]
  refine le_trans (div_le_self (by positivity) ?_) hmantissa
  exact one_le_pow₀ (by norm_num)

theorem ofScaled?_near {n : Int} (hs : s ≤ maxScale) (h : |(n : ℚ) / 10 ^ s| < limit - 1 / 2) :
    ∃ r, ofScaled? n s = some r ∧ |r.value - n / 10 ^ s| ≤ |(n : ℚ) / 10 ^ s| / 10 ^ 28 := by
  have hscale : (0 : ℚ) < 10 ^ s := by positivity
  have habs : (n.natAbs : ℚ) / 10 ^ s = |(n : ℚ) / 10 ^ s| := by
    rw [abs_div, abs_of_pos hscale, Nat.cast_natAbs, Int.cast_abs]
  have hsigned : (if decide (n < 0) then -1 else 1 : ℚ) * (n.natAbs / 10 ^ s) = n / 10 ^ s := by
    rw [Nat.cast_natAbs, Int.cast_abs, ← mul_div_assoc]
    by_cases hn : n < 0
    · rw [if_pos (decide_eq_true hn), abs_of_neg (Int.cast_lt_zero.mpr hn), neg_one_mul, neg_neg]
    · rw [if_neg (by simpa using hn), abs_of_nonneg (Int.cast_nonneg (not_lt.mp hn)), one_mul]
  obtain ⟨r, hr⟩ := Option.isSome_iff_exists.mp
    ((fit?_isSome_iff (decide (n < 0)) hs).mpr (habs ▸ h))
  have hnear := fit?_near hs hr
  rw [hsigned, habs] at hnear
  exact ⟨r, hr, hnear⟩

theorem sub_near (h : |a.value - b.value| < limit - 1 / 2) :
    ∃ r, a.sub b = .ok r ∧
      |r.value - (a.value - b.value)| ≤ |a.value - b.value| / 10 ^ 28 := by
  have hexact : |(0 : ℚ)| ≤ |a.value - b.value| / 10 ^ 28 := by
    rw [abs_zero]
    positivity
  unfold sub
  cases ha : a.isZero with
  | true =>
    refine ⟨_, rfl, ?_⟩
    cases hb : b.isZero with
    | true => simp [value_eq_zero ha, value_eq_zero hb]
    | false => simpa [value_eq_zero ha, value_neg] using hexact
  | false =>
    cases hb : b.isZero with
    | true =>
      refine ⟨a, rfl, ?_⟩
      simpa [value_eq_zero hb] using hexact
    | false =>
      simp only [Bool.false_eq_true, if_false]
      have ha' := a.scale_le
      have hb' := b.scale_le
      have hscale : (10 : ℚ) ^ max a.scale b.scale ≠ 0 := by positivity
      have hvalue : ((a.scaledTo (max a.scale b.scale) - b.scaledTo (max a.scale b.scale) : Int) :
          ℚ) / 10 ^ max a.scale b.scale = a.value - b.value := by
        rw [Int.cast_sub, scaledTo_eq (le_max_left ..), scaledTo_eq (le_max_right ..), ← sub_mul,
          mul_div_cancel_right₀ _ hscale]
      obtain ⟨r, hr, hnear⟩ := ofScaled?_near (max_le ha' hb') (hvalue ▸ h)
      rw [hvalue] at hnear
      exact ⟨r, by rw [hr], hnear⟩

theorem mul_hundred_ok_iff : (∃ r, a.mul .hundred = .ok r) ↔ |a.value| * 100 < limit - 1 / 2 := by
  cases ha : a.isZero with
  | true =>
    have hzero : a.mul .hundred = .ok .zero := by simp [mul, ha]
    rw [hzero, value_eq_zero ha, abs_zero, zero_mul, limit_eq]
    exact iff_of_true ⟨_, rfl⟩ (by norm_num)
  | false =>
    have hfit := fit?_isSome_iff (a.negative != hundred.negative)
      (m := a.mantissa * hundred.mantissa) (s := a.scale + hundred.scale) a.scale_le
    have habs : ((a.mantissa * hundred.mantissa : Nat) : ℚ) / 10 ^ (a.scale + hundred.scale) =
        |a.value| * 100 := by
      rw [abs_value, show hundred.mantissa = 100 from rfl, show hundred.scale = 0 from rfl]
      rw [Nat.add_zero, Nat.cast_mul, Nat.cast_ofNat, mul_div_right_comm]
    have hhundred : hundred.isZero = false := rfl
    rw [habs] at hfit
    rw [← hfit, mul, ha, hhundred, Bool.or_false, if_neg Bool.false_ne_true]
    split
    · next r hr => simp [hr]
    · next hr => simp [hr]

end LaunchDesk.Decimal
