import LaunchDesk.Run
import Mathlib.Computability.Language

/-!
# What the world sees of a run

The effects of a run are its calls, the answers to them and the events that it publishes. The pauses
between two ticks are not seen. `play` lets a run go on with any turns of the world, and `words` is
the language of everything that a whole run may show, by the way it ends. `Phase.Awaits` is the
replies with which a run goes on.
-/

open Computability

namespace LaunchDesk

/-- Whether a reply is one to the request. -/
def Request.awaits : Request → Reply → Bool
  | .snapshot, .snapshot _ => true
  | .buy _, .order _ => true
  | .sell _, .order _ => true
  | .salvage _ _, .order _ => true
  | .salvage _ _, .expired => true
  | .insertPosition _, .stored _ => true
  | .closePosition _ _, .stored _ => true
  | .insertOutcome _ _, .stored _ => true
  | .rest _, .rested => true
  | _, _ => false

namespace Run

inductive Effect
  | call (request : Request)
  | answer (reply : Reply)
  | publish (event : Event)

/-! ## Playing a run -/

/-- A turn of the world: a reply for the run, when it comes, and whether the run has been cancelled
by then. Nothing links the flags of two turns, so cancels may come at any time. -/
structure Turn where
  cancelled : Bool
  now : Moment
  reply : Reply

def Notice.effects : Notice → List Effect
  | .log _ => []
  | .publish event => [.publish event]

def Effect.ofRequest : Request → List Effect
  | .rest _ => []
  | request => [.call request]

def Effect.ofReply : Reply → List Effect
  | .rested => []
  | reply => [.answer reply]

/-- What is seen when a run goes on: what it publishes, and then what it calls. -/
def effects (plan : Plan) (p : Progress) : List Effect :=
  p.2.flatMap Notice.effects ++ (p.1.request? plan).elim [] Effect.ofRequest

/-- A run and all that was seen of it, after one more turn. Only a reply to what the run has asked
for reaches it. -/
def takeTurn (plan : Plan) (s : Run × List Effect) (t : Turn) : Run × List Effect :=
  if (s.1.request? plan).any (·.awaits t.reply) then
    let p := s.1.resume plan t.cancelled t.now t.reply
    (p.1, s.2 ++ Effect.ofReply t.reply ++ effects plan p)
  else s

/-- A run from its start on, and all that is seen of it. -/
def play (plan : Plan) (cancelled : Bool) (now : Moment) (turns : List Turn) :
    Run × List Effect :=
  let p := start plan cancelled now
  turns.foldl (takeTurn plan) (p.1, effects plan p)

/-! ## The language -/

def exchange (request : Request) (reply : Reply) : List Effect := [.call request, .answer reply]

def look (answer : Except Fault Snapshot) : List Effect := exchange .snapshot (.snapshot answer)

/-- A tick before a buy: a look, and perhaps a buy that fails and may be tried again. -/
def idleTick (plan : Plan) : Language Effect :=
  {w | (∃ answer, w = look answer) ∨
    ∃ seen order cause, plan.classify cause = .transient ∧
      w = look (.ok seen) ++ exchange (.buy order) (.order (.error cause))}

/-- A tick with the position of `buy`: a look, and perhaps a sell of it that fails. -/
def holdTick (buy : Fill) : Language Effect :=
  {w | (∃ answer, w = look answer) ∨
    ∃ seen order cause, order.tokenAmount = some buy.tokenAmount ∧
      w = look (.ok seen) ++ exchange (.sell order) (.order (.error cause))}

/-- The end of a run that has not bought: its outcome is stored. -/
def departing (departure : Departure) : Language Effect :=
  {w | ∃ report stored, w = exchange (.insertOutcome (.exited departure) report) (.stored stored)}

/-- The end of a run whose buy failed for good: one sell of whatever there is. -/
def salvaging (plan : Plan) (kind : FatalKind) (cause : ExecutionFault) : Language Effect :=
  {w | ∃ seen order sale limit reply, plan.classify cause = .fatal kind ∧ sale.tokenAmount = none ∧
    w = look (.ok seen) ++ exchange (.buy order) (.order (.error cause)) ++
      exchange (.salvage sale limit) reply}

/-- A position is the one that a fill opened for a bot. -/
def IsOf (bot : BotId) (buy : Fill) (position : Position) : Prop :=
  position.tradeId = buy.id ∧ position.botId = bot ∧ position.mint = buy.mint ∧
    position.entryPrice = buy.price ∧ position.tokenAmount = buy.tokenAmount ∧
    position.cost = buy.netAmount

/-- The tick of the buy: the position is stored, and then the buy is published. -/
def opening (plan : Plan) (buy : Fill) : Language Effect :=
  {w | ∃ seen order position stored, IsOf plan.botId buy position ∧
    w = look (.ok seen) ++ exchange (.buy order) (.order (.ok buy)) ++
      exchange (.insertPosition position) (.stored stored) ++ [.publish (.trade plan.botId buy)]}

/-- The end of a run that has bought: the sell, with all that is stored and published about it. -/
def settling (plan : Plan) (trade : RoundTrip) : Language Effect :=
  {w | ∃ seen order closure closed report stored,
    order.tokenAmount = some trade.buy.tokenAmount ∧
    w = look (.ok seen) ++ exchange (.sell order) (.order (.ok trade.sell)) ++
      exchange (.closePosition trade.buy.id closure) (.stored closed) ++
      [.publish (.trade plan.botId trade.sell), .publish (.cycle plan.botId (.completed trade))] ++
      exchange (.insertOutcome (.completed trade) report) (.stored stored)}

/-- All that is seen of a run that holds the position of `buy` between two ticks. -/
def held (plan : Plan) (buy : Fill) : Language Effect :=
  (idleTick plan)∗ * opening plan buy * (holdTick buy)∗

/-- What a run that ends with `result` may show. -/
def words (plan : Plan) : Except Fault Outcome → Language Effect
  | .ok (.exited departure) => (idleTick plan)∗ * departing departure
  | .ok (.completed trade) => held plan trade.buy * settling plan trade
  | .error (.buyFatal kind cause) => (idleTick plan)∗ * salvaging plan kind cause
  | .error _ => 0

/-! ## Replies -/

/-- A reply that a run waits for in a phase. -/
inductive Phase.Awaits : Phase → Reply → Prop
  | seen (stance : Stance) (seen : Snapshot) : Awaits (.fetching stance) (.snapshot (.ok seen))
  | unseen (stance : Stance) (fault : Fault) :
    Awaits (.fetching stance) (.snapshot (.error fault))
  | bought (seen : Snapshot) (buy : Fill) : Awaits (.buying seen) (.order (.ok buy))
  | unbought (seen : Snapshot) (cause : ExecutionFault) :
    Awaits (.buying seen) (.order (.error cause))
  | salvaged (kind : FatalKind) (cause : ExecutionFault) (sell : Fill) :
    Awaits (.salvaging kind cause) (.order (.ok sell))
  | unsalvaged (kind : FatalKind) (cause fault : ExecutionFault) :
    Awaits (.salvaging kind cause) (.order (.error fault))
  | expired (kind : FatalKind) (cause : ExecutionFault) : Awaits (.salvaging kind cause) .expired
  | opened (seen : Snapshot) (buy : Fill) (position : Position) (answer : Except Fault Unit) :
    Awaits (.opening seen buy position) (.stored answer)
  | sold (seen : Snapshot) (buy : Fill) (position : Position) (reason : String) (sell : Fill) :
    Awaits (.selling seen buy position reason) (.order (.ok sell))
  | unsold (seen : Snapshot) (buy : Fill) (position : Position) (reason : String)
    (cause : ExecutionFault) : Awaits (.selling seen buy position reason) (.order (.error cause))
  | closed (seen : Snapshot) (buy sell : Fill) (position : Position) (closure : Closure)
    (answer : Except Fault Unit) : Awaits (.closing seen buy sell position closure) (.stored answer)
  | recorded (outcome : Outcome) (report : Report) (answer : Except Fault Unit) :
    Awaits (.recording outcome report) (.stored answer)
  | rested (stance : Stance) : Awaits (.resting stance) .rested

variable {plan : Plan} {r : Run} {reply : Reply}

theorem awaits_of_request (h : (r.request? plan).any (·.awaits reply) = true) :
    r.phase.Awaits reply := by
  obtain ⟨tick, startMs, entries, phase⟩ := r
  cases phase <;> cases reply <;> try cases h
  case fetching.snapshot stance answer => cases answer <;> constructor
  case buying.order seen answer => cases answer <;> constructor
  case salvaging.order kind cause answer => cases answer <;> constructor
  case selling.order seen buy position reason answer => cases answer <;> constructor
  all_goals constructor

/-- A reply that a run does not wait for changes nothing. -/
theorem resume_unawaited {cancelled : Bool} {now : Moment}
    (hreply : (r.request? plan).any (·.awaits reply) = false) :
    resume plan cancelled now r reply = (r, []) := by
  obtain ⟨t, startMs, entries, phase⟩ := r
  cases phase <;> cases reply <;> first | rfl | cases hreply

theorem resume_cases (plan : Plan) (cancelled : Bool) (now : Moment) (r : Run) (reply : Reply) :
    r.phase.Awaits reply ∨ resume plan cancelled now r reply = (r, []) := by
  cases hreply : (r.request? plan).any (·.awaits reply) with
  | false => exact .inr (resume_unawaited hreply)
  | true => exact .inl (awaits_of_request hreply)

end Run

end LaunchDesk
