import LaunchDesk.Proofs.Number.Value
import LaunchDesk.Strategy
import Mathlib.Algebra.Order.Field.Basic
import Mathlib.Data.List.Induction
import Mathlib.Tactic.Linarith

/-!
# The rules of the thresholds

In exact numbers each rule compares two products: a percentage of the entry price or of the peak,
and a hundred times what the price has moved. The rules are looked at in their order, and the peak
is the highest of the entry price and the prices seen so far.
-/

namespace LaunchDesk

variable {position : Position} {price change : Decimal} {prices : List Decimal}

namespace Thresholds

/-- Whether a rule is met at a price, by the entry price and the peak. -/
def Rule.isMet (t : Thresholds) (entry peak price : ℚ) : Rule → Bool
  | .stopLoss => t.stopLossPercent.any fun percent =>
      percent.value * entry ≤ (entry - price) * 100
  | .takeProfit => t.takeProfitPercent.any fun percent =>
      percent.value * entry ≤ (price - entry) * 100
  | .trailingStop => t.trailingStopPercent.any fun percent =>
      entry < peak ∧ percent.value * peak ≤ (peak - price) * 100

/-- The first rule that is met. -/
def met? (t : Thresholds) (entry peak price : ℚ) : Option Rule :=
  [.stopLoss, .takeProfit, .trailingStop].find? (Rule.isMet t entry peak price)

end Thresholds

namespace Position

open Thresholds

def thresholds (p : Position) : Thresholds :=
  ⟨p.stopLossPercent, p.takeProfitPercent, p.trailingStopPercent⟩

/-- Whether a rule is met for the position. -/
def meets (p : Position) (price : Decimal) (rule : Rule) : Bool :=
  rule.isMet p.thresholds p.entryPrice.value p.peakPrice.value price.value

/-- The percentages that the rules need at a price are computed, and exactly: the change always,
and the fall from the peak if the last rule gets to it. -/
structure Exact (p : Position) (price : Decimal) : Prop where
  change : ∃ change, p.changePercent price = .ok change ∧
    change.value = (price.value - p.entryPrice.value) / p.entryPrice.value * 100
  fall : p.meets price .stopLoss = false → p.meets price .takeProfit = false →
    p.trailingStopPercent.isSome → p.entryPrice.value < p.peakPrice.value →
    ∃ fall, p.drawdownPercent price = .ok fall ∧
      fall.value = (p.peakPrice.value - price.value) / p.peakPrice.value * 100

/-! ## One price -/

theorem stopLossReached_eq (hentry : 0 < position.entryPrice.value)
    (hchange : change.value =
      (price.value - position.entryPrice.value) / position.entryPrice.value * 100) :
    stopLossReached position change = position.meets price .stopLoss := by
  unfold stopLossReached meets Rule.isMet
  refine congrArg (Option.any · position.stopLossPercent) (funext fun percent => ?_)
  rw [Bool.eq_iff_iff, Decimal.le_iff, Decimal.value_neg, hchange, decide_eq_true_eq,
    div_mul_eq_mul_div, div_le_iff₀ hentry]
  constructor
  · intro h
    linarith
  · intro h
    linarith

theorem takeProfitReached_eq (hentry : 0 < position.entryPrice.value)
    (hchange : change.value =
      (price.value - position.entryPrice.value) / position.entryPrice.value * 100) :
    takeProfitReached position change = position.meets price .takeProfit := by
  unfold takeProfitReached meets Rule.isMet
  refine congrArg (Option.any · position.takeProfitPercent) (funext fun percent => ?_)
  rw [Bool.eq_iff_iff, Decimal.le_iff, hchange, decide_eq_true_eq, div_mul_eq_mul_div,
    le_div_iff₀ hentry]

theorem trailingStopReached_eq (hentry : 0 < position.entryPrice.value)
    (hfall : position.trailingStopPercent.isSome →
      position.entryPrice.value < position.peakPrice.value →
      ∃ fall, position.drawdownPercent price = .ok fall ∧ fall.value =
        (position.peakPrice.value - price.value) / position.peakPrice.value * 100) :
    trailingStopReached position price = .ok (position.meets price .trailingStop) := by
  unfold trailingStopReached meets Rule.isMet thresholds
  cases hpercent : position.trailingStopPercent with
  | none => rfl
  | some percent =>
    by_cases hprofit : position.entryPrice.value < position.peakPrice.value
    · obtain ⟨fall, hdrawdown, hvalue⟩ := hfall (by rw [hpercent]; rfl) hprofit
      have hpeak := hentry.trans hprofit
      simp only [if_pos (Decimal.lt_iff.mpr hprofit), hdrawdown, Except.map, Option.any_some,
        hprofit, true_and]
      rw [Except.ok.injEq, Bool.eq_iff_iff, Decimal.le_iff, hvalue, decide_eq_true_eq,
        div_mul_eq_mul_div, le_div_iff₀ hpeak]
    · have hlt : position.entryPrice.lt position.peakPrice = false :=
        eq_false_of_ne_true fun h => hprofit (Decimal.lt_iff.mp h)
      simp [hlt, hprofit]

/-- With exact percentages, the rule that makes a strategy sell is the first one that is met. -/
theorem triggered_eq (hentry : 0 < position.entryPrice.value) (hexact : position.Exact price) :
    triggered position price = .ok (met? position.thresholds position.entryPrice.value
      position.peakPrice.value price.value) := by
  obtain ⟨⟨change, hok, hchange⟩, hfall⟩ := hexact
  have hloss := stopLossReached_eq hentry hchange
  have hprofit := takeProfitReached_eq hentry hchange
  have hmet : met? position.thresholds position.entryPrice.value position.peakPrice.value
      price.value = [.stopLoss, .takeProfit, .trailingStop].find? (position.meets price) := rfl
  rw [hmet, triggered, hok]
  simp only [bind, Except.bind, hloss, hprofit, List.find?_cons]
  -- The rules are looked at one after the other; only the last one needs the fall.
  cases hlossMet : position.meets price .stopLoss with
  | true => rfl
  | false =>
    cases hprofitMet : position.meets price .takeProfit with
    | true => rfl
    | false =>
      rw [trailingStopReached_eq hentry (hfall hlossMet hprofitMet)]
      cases position.meets price .trailingStop <;> rfl

/-! ## A path of prices -/

/-- The position after it has seen some prices. -/
def watched (p : Position) (prices : List Decimal) : Position := prices.foldl observe p

theorem watched_snoc (p : Position) (prices : List Decimal) (price : Decimal) :
    p.watched (prices ++ [price]) = (p.watched prices).observe price := List.foldl_append

theorem observe_eq (p : Position) (price : Decimal) :
    p.observe price = { p with peakPrice := (p.observe price).peakPrice } := by
  unfold observe
  split <;> rfl

theorem peak_observe (p : Position) (price : Decimal) :
    (p.observe price).peakPrice.value = max p.peakPrice.value price.value := by
  unfold observe
  split
  · next h => exact (max_eq_right (Decimal.lt_iff.mp h).le).symm
  · next h => exact (max_eq_left (not_lt.mp fun hlt => h (Decimal.lt_iff.mpr hlt))).symm

theorem watched_eq (p : Position) (prices : List Decimal) :
    p.watched prices = { p with peakPrice := (p.watched prices).peakPrice } := by
  induction prices using List.reverseRecOn with
  | nil => rfl
  | append_singleton prices price ih =>
    rw [watched_snoc, observe_eq, ih]

theorem peak_watched (p : Position) (prices : List Decimal) :
    (p.watched prices).peakPrice.value =
      (prices.map Decimal.value).foldl max p.peakPrice.value := by
  induction prices using List.reverseRecOn with
  | nil => rfl
  | append_singleton prices price ih =>
    rw [watched_snoc, peak_observe, ih, List.map_append, List.foldl_append]
    rfl

end Position

namespace Thresholds

/-- The rule that is met at the place `k` of a path of prices, if any, by the price at which the
position was bought and the highest price up to that place. -/
def ruleAt (t : Thresholds) (entry : Decimal) (prices : List Decimal) (k : Nat) : Option Rule :=
  prices[k]?.bind fun price => t.met? entry.value
    (((prices.take (k + 1)).map Decimal.value).foldl max entry.value) price.value

variable {t : Thresholds} {entry : Decimal}

theorem ruleAt_none {k : Nat} (h : prices.length ≤ k) : t.ruleAt entry prices k = none := by
  rw [ruleAt, List.getElem?_eq_none h, Option.bind_none]

theorem ruleAt_append {k : Nat} (h : k < prices.length) (later : List Decimal) :
    t.ruleAt entry (prices ++ later) k = t.ruleAt entry prices k := by
  rw [ruleAt, ruleAt, List.getElem?_append_left h, List.take_append_of_le_length h]

theorem ruleAt_last (prices : List Decimal) (price : Decimal) :
    t.ruleAt entry (prices ++ [price]) prices.length = t.met? entry.value
      (((prices ++ [price]).map Decimal.value).foldl max entry.value) price.value := by
  rw [ruleAt, List.getElem?_concat_length, Option.bind_some, List.take_of_length_le (by simp)]

end Thresholds

namespace Position

/-- The percentages for a position are exact at each price up to the first one that meets a rule. -/
def ExactUntilRule (p : Position) (prices : List Decimal) : Prop :=
  ∀ k price, prices[k]? = some price →
    (∀ j < k, p.thresholds.ruleAt p.entryPrice prices j = none) →
    (p.watched (prices.take (k + 1))).Exact price

theorem ExactUntilRule.before {later : List Decimal}
    (h : position.ExactUntilRule (prices ++ later)) : position.ExactUntilRule prices := by
  intro k price hprice hnone
  have hk := (List.getElem?_eq_some_iff.mp hprice).1
  have hexact := h k price ((List.getElem?_append_left hk).trans hprice) fun j hj =>
    (Thresholds.ruleAt_append (hj.trans hk) later).trans (hnone j hj)
  rwa [List.take_append_of_le_length hk] at hexact

theorem ExactUntilRule.last (h : position.ExactUntilRule (prices ++ [price]))
    (hnone : ∀ j, position.thresholds.ruleAt position.entryPrice prices j = none) :
    (position.watched (prices ++ [price])).Exact price := by
  have hexact := h prices.length price List.getElem?_concat_length fun j hj =>
    (Thresholds.ruleAt_append hj [price]).trans (hnone j)
  rwa [List.take_of_length_le (by simp)] at hexact

/-- The rules take a position that was opened at the entry price by the path of its prices. -/
theorem triggered_watched (hopened : position.peakPrice = position.entryPrice)
    (hentry : 0 < position.entryPrice.value)
    (hexact : (position.watched (prices ++ [price])).Exact price) :
    Thresholds.triggered (position.watched (prices ++ [price])) price =
      .ok (position.thresholds.ruleAt position.entryPrice (prices ++ [price]) prices.length) := by
  have hsame := position.watched_eq (prices ++ [price])
  have hthresholds : (position.watched (prices ++ [price])).thresholds = position.thresholds := by
    rw [hsame]
    rfl
  have hprice : (position.watched (prices ++ [price])).entryPrice = position.entryPrice := by
    rw [hsame]
  rw [← hprice] at hentry
  rw [triggered_eq hentry hexact, hthresholds, hprice, peak_watched, hopened,
    Thresholds.ruleAt_last]

end Position

end LaunchDesk
