import LaunchDesk.Json.Codec
import LaunchDesk.Text

/-!
# Faults

What can go wrong when an order is executed, what that means for the run, and the faults of the
library as a whole.
-/

namespace LaunchDesk

/-- Why an order was not executed. -/
inductive ExecutionFault
  | insufficientFunds
  | invalidTransaction (text : String)
  | conflict (text : String)
  | rpc (text : String)
  | timeout (text : String)
  | other (text : String)
deriving DecidableEq, Repr

namespace ExecutionFault

def message : ExecutionFault → String
  | .insufficientFunds => "insufficient funds"
  | .invalidTransaction s => "invalid transaction: " ++ s
  | .conflict s => "on-chain conflict: " ++ s
  | .rpc s => "rpc error: " ++ s
  | .timeout s => "timed out: " ++ s
  | .other s => s

/-- The form shown in diagnostics. -/
def shown : ExecutionFault → String
  | .insufficientFunds => "InsufficientFunds"
  | .invalidTransaction s => "InvalidTransaction(" ++ Text.quoted s ++ ")"
  | .conflict s => "Conflict(" ++ Text.quoted s ++ ")"
  | .rpc s => "Rpc(" ++ Text.quoted s ++ ")"
  | .timeout s => "Timeout(" ++ Text.quoted s ++ ")"
  | .other s => "Other(" ++ Text.quoted s ++ ")"

end ExecutionFault

/-- A kind of execution fault after which a run cannot go on. -/
inductive FatalKind
  | insufficientFunds
  | malformedTransaction
deriving DecidableEq, Repr

namespace FatalKind

def text : FatalKind → String
  | .insufficientFunds => "insufficient_funds"
  | .malformedTransaction => "malformed_transaction"

/-- The form shown in diagnostics. -/
def shown : FatalKind → String
  | .insufficientFunds => "InsufficientFunds"
  | .malformedTransaction => "MalformedTransaction"

instance : Codec FatalKind where
  encode k := .string k.text
  decode := Arm.decodeOneOf
    [("insufficient_funds", .plain .insufficientFunds),
      ("malformed_transaction", .plain .malformedTransaction)]

end FatalKind

/-- What an execution fault means for a run. -/
inductive FaultClass
  | fatal (kind : FatalKind)
  | transient
deriving DecidableEq, Repr

def FaultClass.shown : FaultClass → String
  | .fatal kind => "Fatal(" ++ kind.shown ++ ")"
  | .transient => "Transient"

/-- A rule that says what each execution fault means. -/
abbrev Classifier : Type := ExecutionFault → FaultClass

/-- The usual rule: without funds, or with an invalid transaction, trying again is of no use. -/
def Classifier.standard : Classifier
  | .insufficientFunds => .fatal .insufficientFunds
  | .invalidTransaction _ => .fatal .malformedTransaction
  | _ => .transient

/-- The faults of the library. -/
inductive Fault
  | configuration (text : String)
  | alreadyRunning
  | buyFatal (kind : FatalKind) (source : ExecutionFault)
  | marketData (text : String)
  | feed (text : String)
  | store (text : String)
  | internal (text : String)
deriving DecidableEq, Repr

namespace Fault

def message : Fault → String
  | .configuration s => "Configuration error: " ++ s
  | .alreadyRunning => "State machine is already running"
  | .buyFatal kind source => "Fatal buy error (" ++ kind.text ++ "): " ++ source.message
  | .marketData s => "Market data error: " ++ s
  | .feed s => "Feed error: " ++ s
  | .store s => "Store error: " ++ s
  | .internal s => "Internal error: " ++ s

/-- The form shown in diagnostics. -/
def shown : Fault → String
  | .configuration s => "Configuration(" ++ Text.quoted s ++ ")"
  | .alreadyRunning => "AlreadyRunning"
  | .buyFatal kind source =>
    "BuyFatal \x7b kind: " ++ kind.shown ++ ", source: " ++ source.shown ++ " \x7d"
  | .marketData s => "MarketData(" ++ Text.quoted s ++ ")"
  | .feed s => "Feed(" ++ Text.quoted s ++ ")"
  | .store s => "Store(" ++ Text.quoted s ++ ")"
  | .internal s => "Internal(" ++ Text.quoted s ++ ")"

/-- The kind of a fatal fault. -/
def fatalKind? : Fault → Option FatalKind
  | .buyFatal kind _ => some kind
  | _ => none

/-- The fault underneath, if there is one. -/
def source? : Fault → Option ExecutionFault
  | .buyFatal _ source => some source
  | _ => none

end Fault

end LaunchDesk
