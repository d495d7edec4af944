import LaunchDesk.Strategy

/-!
# Rules on paper

A strategy made of a few prices and thresholds.
-/

namespace LaunchDesk.Paper

/-- When a strategy of rules wants to leave, whatever the price. -/
inductive ExitRule
  | always
  /-- With a position. -/
  | holding
  /-- Without a position. -/
  | flat
deriving DecidableEq, Repr

structure Rules where
  name : String := "rules"
  /-- Buys at this price or above. -/
  buyAt : Option Decimal := none
  /-- Sells at this price or above. -/
  sellAt : Option Decimal := none
  /-- The reason given for a sell at that price. -/
  sellReason : Option String := some "take_profit"
  /-- Whether the thresholds of the position are looked at. -/
  useThresholds : Bool := false
  exit : Option ExitRule := none
  /-- Leaves at this price or below, unless there is a rule for leaving. -/
  exitAt : Option Decimal := none
  /-- What positions get and what is attached to orders, in place of the usual. -/
  extras : Option (Thresholds × Json) := none

namespace Rules

def shouldSell (r : Rules) (position : Position) (seen : Snapshot) :
    Except Decimal.Fault SellDecision :=
  if r.sellAt.any fun p => p.le seen.price then .ok { sell := true, reason := r.sellReason }
  else if r.useThresholds then
    (Thresholds.triggered position seen.price).map fun rule =>
      rule.elim .hold fun rule => .because rule.text
  else .ok .hold

def shouldExit (r : Rules) (position : Option Position) (seen : Snapshot) : Bool :=
  match r.exit with
  | some .always => true
  | some .holding => position.isSome
  | some .flat => position.isNone
  | none => r.exitAt.any fun p => seen.price.le p

def strategy (r : Rules) : Strategy :=
  let base : Strategy :=
    { name := r.name
      shouldBuy := fun seen => r.buyAt.any fun p => p.le seen.price
      shouldSell := r.shouldSell
      shouldExit := r.shouldExit }
  match r.extras with
  | none => base
  | some (thresholds, metadata) =>
    { base with exitThresholds := fun _ => thresholds, metadata := metadata }

end Rules

end LaunchDesk.Paper
