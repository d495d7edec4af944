import LaunchDesk.Time.Stamp

/-!
# The market

An opportunity is a newly launched token. A snapshot is one reading of its market.
-/

namespace LaunchDesk

/-- A newly launched token, as the feed delivers it. -/
structure Opportunity where
  mint : String
  creator : String
  bondingCurve : String
  associatedBondingCurve : Option String
  name : String
  symbol : String
  createdAt : Stamp
deriving DecidableEq, Inhabited

/-- The market of one token at one time. -/
structure Snapshot where
  mint : String
  /-- The price of one token. -/
  price : Decimal
  marketCap : Decimal
  /-- How far the bonding curve is filled, from 0 to 100. -/
  bondingCurveProgress : Decimal
  /-- The share of the supply that the largest holders have, from 0 to 100. -/
  topHoldersPercent : Decimal
  holderCount : UInt32
  takenAt : Stamp
deriving DecidableEq, Inhabited

def Opportunity.record : Record Opportunity where
  tuple := _
  fields :=
    .cons inferInstance "mint" .refused mint <|
    .cons inferInstance "creator" .refused creator <|
    .cons inferInstance "bonding_curve" .refused bondingCurve <|
    .cons inferInstance "associated_bonding_curve" (.anywhere none) associatedBondingCurve <|
    .cons inferInstance "name" .refused name <|
    .cons inferInstance "symbol" .refused symbol <|
    .cons inferInstance "created_at" .refused createdAt .nil
  make | (a, b, c, d, e, f, g, ()) => ⟨a, b, c, d, e, f, g⟩

instance : Codec Opportunity := Opportunity.record.codec

def Snapshot.record : Record Snapshot where
  tuple := _
  fields :=
    .cons inferInstance "mint" .refused mint <|
    .cons inferInstance "price" .refused price <|
    .cons inferInstance "market_cap" .refused marketCap <|
    .cons inferInstance "bonding_curve_progress" .refused bondingCurveProgress <|
    .cons inferInstance "top_holders_percent" .refused topHoldersPercent <|
    .cons inferInstance "holder_count" (.anywhere 0) holderCount <|
    .cons inferInstance "taken_at" .refused takenAt .nil
  make | (a, b, c, d, e, f, g, ()) => ⟨a, b, c, d, e, f, g⟩

instance : Codec Snapshot := Snapshot.record.codec

end LaunchDesk
