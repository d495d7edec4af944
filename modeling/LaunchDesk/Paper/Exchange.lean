import LaunchDesk.Order

/-!
# A market on paper

A script says what the market and the exchange answer, call by call, for each token: the first call
gets the first entry, and the last entry repeats. An answer may take time. A fill that the script
leaves out parts of is completed from the order.
-/

namespace LaunchDesk.Paper

/-- An answer that takes some time. -/
structure Timed (α : Type) where
  delayMs : Nat := 0
  answer : α

/-- Entries for some tokens, and for all others. -/
structure Script (α : Type) where
  named : List (String × List α) := []
  others : List α := []

namespace Script

/-- The entry for call number `n`, from zero; the last entry repeats. -/
def entry {α : Type} (s : Script α) (default : α) (mint : String) (n : Nat) : α :=
  let entries := (s.named.lookup mint).getD s.others
  entries[min n (entries.length - 1)]?.getD default

end Script

/-- What the market answers; a reading of no token in particular is one of the token asked for. -/
inductive MarketAnswer
  | fault (fault : Fault)
  | reading (mint : Option String) (snapshot : Snapshot)

/-- What is given about a fill. -/
structure FillSketch where
  id : Option Uuid := none
  side : Option Side := none
  mint : Option String := none
  tokenAmount : Option Decimal := none
  price : Option Decimal := none
  grossAmount : Option Decimal := none
  fees : Option Decimal := none
  netAmount : Option Decimal := none
  signature : Option String := none
  metadata : Option Json := none
  executedAt : Option Stamp := none

/-- What the exchange answers. -/
inductive OrderAnswer
  | fault (fault : ExecutionFault)
  | fill (sketch : FillSketch)

/-- What went on with one token so far. -/
structure Tape where
  looks : Nat := 0
  buys : Nat := 0
  sells : Nat := 0
  fills : Nat := 0
  lastPrice : Option Decimal := none

structure Exchange where
  market : Script (Timed MarketAnswer)
  buys : Script (Timed OrderAnswer)
  sells : Script (Timed OrderAnswer)
  /-- A plain reading, for a script without entries. -/
  plain : Snapshot
  /-- The time on all fills. -/
  time : Stamp
  /-- What the stores fail with. -/
  insertFault : Option String := none
  closeFault : Option String := none
  outcomeFault : Option String := none
  tapes : List (String × Tape) := []

namespace Exchange

/-- An answer that has been chosen and is on its way. -/
inductive Pending
  | look (mint : String) (answer : MarketAnswer)
  | bought (order : BuyOrder) (answer : OrderAnswer)
  | sold (order : SellOrder) (answer : OrderAnswer)
  | expired
  | stored (answer : Except Fault Unit)
  | rested

def tape (x : Exchange) (mint : String) : Tape := (x.tapes.lookup mint).getD {}

def setTape (x : Exchange) (mint : String) (t : Tape) : Exchange :=
  { x with tapes := (mint, t) :: x.tapes.filter fun e => e.1 != mint }

def store (fault : Option String) : Timed Pending :=
  { answer := .stored (fault.elim (.ok ()) fun text => .error (.store text)) }

/-- Chooses the entry for a sell. -/
def chooseSell (x : Exchange) (order : SellOrder) : Timed OrderAnswer × Exchange :=
  let t := x.tape order.mint
  (x.sells.entry { answer := .fill {} } order.mint t.sells,
    x.setTape order.mint { t with sells := t.sells + 1 })

/-- Chooses the answer to a request about a token. A sell that takes longer than its limit is given
up then. -/
def ask (x : Exchange) (mint : String) : Request → Timed Pending × Exchange
  | .snapshot =>
    let t := x.tape mint
    let e := x.market.entry { answer := .reading none x.plain } mint t.looks
    ({ delayMs := e.delayMs, answer := .look mint e.answer },
      x.setTape mint { t with looks := t.looks + 1 })
  | .buy order =>
    let t := x.tape order.mint
    let e := x.buys.entry { answer := .fill {} } order.mint t.buys
    ({ delayMs := e.delayMs, answer := .bought order e.answer },
      x.setTape order.mint { t with buys := t.buys + 1 })
  | .sell order =>
    let (e, x) := x.chooseSell order
    ({ delayMs := e.delayMs, answer := .sold order e.answer }, x)
  | .salvage order limit =>
    let (e, x) := x.chooseSell order
    (if e.delayMs ≤ limit then { delayMs := e.delayMs, answer := .sold order e.answer }
      else { delayMs := limit, answer := .expired }, x)
  | .insertPosition _ => (store x.insertFault, x)
  | .closePosition _ _ => (store x.closeFault, x)
  | .insertOutcome _ _ => (store x.outcomeFault, x)
  | .rest ms => ({ delayMs := ms, answer := .rested }, x)

/-- The identifier of fill number `n`. -/
def fillId (n : Nat) : Uuid := (Uuid.ofNat? (0x1000 + n)).getD default

/-- Completes a fill of `side` for `mint`. -/
def complete (x : Exchange) (side : Side) (mint : String) (tokenAmount netAmount : Decimal)
    (metadata : Json) (s : FillSketch) : Fill × Exchange :=
  let t := x.tape mint
  let n := t.fills + 1
  let net := s.netAmount.getD netAmount
  ({ id := s.id.getD (fillId n)
     side := s.side.getD side
     mint := s.mint.getD mint
     tokenAmount := s.tokenAmount.getD tokenAmount
     price := s.price.getD (t.lastPrice.getD .one)
     grossAmount := s.grossAmount.getD net
     fees := s.fees.getD .zero
     netAmount := net
     signature := s.signature.getD ("sig-" ++ side.text ++ "-" ++ toString n)
     metadata := s.metadata.getD metadata
     executedAt := s.executedAt.getD x.time },
    x.setTape mint { t with fills := n })

/-- How much a buy brings, and a sell of everything sells. -/
def usualTokens : Decimal := .ofSmall 1000 0

/-- What a sell brings. -/
def usualProceeds : Decimal := .ofSmall 1 1

/-- The reply that an answer makes when it arrives. -/
def arrive (x : Exchange) : Pending → Reply × Exchange
  | .look _ (.fault fault) => (.snapshot (.error fault), x)
  | .look mint (.reading own snapshot) =>
    (.snapshot (.ok { snapshot with mint := own.getD mint }),
      x.setTape mint { x.tape mint with lastPrice := some snapshot.price })
  | .bought _ (.fault fault) => (.order (.error fault), x)
  | .bought order (.fill sketch) =>
    let (fill, x) := x.complete .buy order.mint usualTokens order.amount order.metadata sketch
    (.order (.ok fill), x)
  | .sold _ (.fault fault) => (.order (.error fault), x)
  | .sold order (.fill sketch) =>
    let (fill, x) := x.complete .sell order.mint (order.tokenAmount.getD usualTokens) usualProceeds
      order.metadata sketch
    (.order (.ok fill), x)
  | .expired => (.expired, x)
  | .stored answer => (.stored answer, x)
  | .rested => (.rested, x)

end Exchange

end LaunchDesk.Paper
