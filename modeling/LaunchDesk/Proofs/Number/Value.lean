import LaunchDesk.Number.Decimal
import Mathlib.Tactic.FieldSimp
import Mathlib.Tactic.Positivity

/-!
# The values of decimals

A decimal stands for a rational number, and decimals are compared by the numbers that they stand
for.
-/

namespace LaunchDesk.Decimal

variable {a b : Decimal}

def value (a : Decimal) : ℚ := (if a.negative then -(a.mantissa : ℚ) else a.mantissa) / 10 ^ a.scale

theorem value_neg (a : Decimal) : a.neg.value = -a.value := by
  unfold value neg
  cases a.negative with
  | true => simp [neg_div]
  | false => simp [neg_div]

theorem cast_tenTo (k : Nat) : (tenTo k : ℚ) = 10 ^ k := Nat.cast_pow 10 k

theorem scaledTo_eq {s : Nat} (h : a.scale ≤ s) : (a.scaledTo s : ℚ) = a.value * 10 ^ s := by
  have hpower : (10 : ℚ) ^ s = 10 ^ (s - a.scale) * 10 ^ a.scale := by
    rw [← pow_add, Nat.sub_add_cancel h]
  have hscale : (10 : ℚ) ^ a.scale ≠ 0 := by positivity
  rw [hpower]
  unfold scaledTo value
  cases a.negative with
  | true =>
    rw [if_pos rfl, if_pos rfl]
    push_cast [cast_tenTo]
    field_simp
  | false =>
    push_cast [cast_tenTo]
    field_simp

/-- At a common scale the signed mantissas are in the order of the values. -/
theorem cmp_eq (a b : Decimal) : a.cmp b = compare a.value b.value := by
  have hpos : (0 : ℚ) < 10 ^ max a.scale b.scale := by positivity
  unfold cmp
  simp only
  rw [← cmp_eq_compare, ← cmp_eq_compare, ← (Int.cast_strictMono (R := ℚ)).cmp_map_eq,
    scaledTo_eq (le_max_left ..), scaledTo_eq (le_max_right ..), cmp_mul_pos_right hpos]

theorem le_iff : a.le b = true ↔ a.value ≤ b.value := by
  rw [le, cmp_eq, bne_iff_ne, compare_le_iff_le]

theorem lt_iff : a.lt b = true ↔ a.value < b.value := by
  rw [lt, cmp_eq, beq_iff_eq, compare_lt_iff_lt]

end LaunchDesk.Decimal
