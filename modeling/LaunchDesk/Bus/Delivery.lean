import LaunchDesk.Bus

/-!
# Deliveries

What happens when subscribers act while they are called: they subscribe others, end subscriptions
and publish events of their own. A subscriber is given by what it does on each of its calls, a
finite list of acts. A delivery is the tree of calls of one event; what a subscriber publishes while
it is called is delivered within that call.
-/

namespace LaunchDesk

/-- Something that a subscriber does while it is called. -/
inductive Act
  | subscribe (kind : EventKind) (label : String) (plays : List (List Act))
  | unsubscribe (id : SubscriptionId)
  | publish (event : Event)

/-- What a subscriber does on its first call, its second and so on; nothing after the last. -/
abbrev Plays : Type := List (List Act)

mutual

/-- How many acts there are in an act, those of a new subscriber included. -/
def Act.size : Act → Nat
  | .subscribe _ _ plays => playsSize plays + 1
  | .unsubscribe _ => 1
  | .publish _ => 1

def actsSize : List Act → Nat
  | [] => 0
  | a :: as => a.size + actsSize as

def playsSize : List (List Act) → Nat
  | [] => 0
  | as :: plays => actsSize as + playsSize plays

end

mutual

/-- One event on its way to the subscribers, with their calls in order. -/
inductive Delivery
  | mk (event : Event) (calls : List Call)

/-- One call of a subscriber with what it did. -/
inductive Call
  | mk (id : SubscriptionId) (label : String) (deeds : List Deed)

/-- An act that has been done. -/
inductive Deed
  | subscribed (id : SubscriptionId)
  | unsubscribed (id : SubscriptionId) (given removed : Bool)
  | published (delivery : Delivery)

end

def Delivery.event : Delivery → Event
  | .mk e _ => e

def Delivery.calls : Delivery → List Call
  | .mk _ cs => cs

def Call.subscriber : Call → SubscriptionId × String
  | .mk id label _ => (id, label)

def Call.deeds : Call → List Deed
  | .mk _ _ ds => ds

/-- A bus with its subscribers: what each of them still has to do. -/
structure Troupe where
  bus : Bus String := {}
  plays : List (SubscriptionId × Plays) := []

namespace Troupe

def subscribe (t : Troupe) (kind : EventKind) (label : String) (plays : Plays) :
    SubscriptionId × Troupe :=
  let (id, bus) := t.bus.subscribe kind label
  (id, { bus := bus, plays := (id, plays) :: t.plays })

def unsubscribe (t : Troupe) (id : SubscriptionId) : Bool × Troupe :=
  let (removed, bus) := t.bus.unsubscribe id
  (removed, { t with bus := bus })

/-- What a subscriber does when it is called next, and the troupe afterwards. -/
def cue (t : Troupe) (id : SubscriptionId) : List Act × Troupe :=
  match t.plays.lookup id with
  | some (acts :: rest) =>
    (acts, { t with plays := t.plays.map fun (i, p) => if i = id then (i, rest) else (i, p) })
  | _ => ([], t)

/-- How many acts are left. -/
def size (t : Troupe) : Nat := t.plays.foldl (fun n e => n + playsSize e.2) 0

mutual

/-- Publishes an event; `depth` bounds how deep events may be published within each other. -/
def publishWithin (depth : Nat) (t : Troupe) (e : Event) : Delivery × Troupe :=
  match depth with
  | 0 => (.mk e [], t)
  | depth + 1 =>
    let (calls, t) := callAll depth t e (t.bus.subscribed e.kind)
    (.mk e calls, t)
termination_by (depth, 0, 0)

/-- Calls the given subscribers one after the other. -/
def callAll (depth : Nat) (t : Troupe) (e : Event) :
    List (SubscriptionId × String) → List Call × Troupe
  | [] => ([], t)
  | (id, label) :: rest =>
    let (acts, t) := t.cue id
    let (deeds, t) := perform depth t acts
    let (calls, t) := callAll depth t e rest
    (.mk id label deeds :: calls, t)
termination_by rest => (depth, 2, rest.length)

/-- Does the given acts one after the other. -/
def perform (depth : Nat) (t : Troupe) : List Act → List Deed × Troupe
  | [] => ([], t)
  | act :: rest =>
    let (deed, t) : Deed × Troupe :=
      match act with
      | .subscribe kind label plays =>
        let (id, t) := t.subscribe kind label plays
        (.subscribed id, t)
      | .unsubscribe id =>
        let given := t.bus.wasGiven id
        let (removed, t) := t.unsubscribe id
        (.unsubscribed id given removed, t)
      | .publish e =>
        let (delivery, t) := publishWithin depth t e
        (.published delivery, t)
    let (deeds, t) := perform depth t rest
    (deed :: deeds, t)
termination_by acts => (depth, 1, acts.length)

end

/-- Publishes an event. Every event that is published within it uses up an act, so there are enough
levels for all of them. -/
def publish (t : Troupe) (e : Event) : Delivery × Troupe := publishWithin (t.size + 1) t e

end Troupe

/-! ## The order of calls -/

/-- What can be seen of a delivery from outside, in order of time. -/
inductive Sight
  | called (label : String) (event : Event)
  | unsubscribed (given removed : Bool)
deriving DecidableEq

mutual

/-- A call is seen when it starts; what is done in it is seen before the next call. -/
def Delivery.sights : Delivery → List Sight
  | .mk e calls => callsSights e calls

def callsSights (e : Event) : List Call → List Sight
  | [] => []
  | .mk _ label deeds :: rest => .called label e :: deedsSights deeds ++ callsSights e rest

def deedsSights : List Deed → List Sight
  | [] => []
  | .subscribed _ :: rest => deedsSights rest
  | .unsubscribed _ given removed :: rest => .unsubscribed given removed :: deedsSights rest
  | .published d :: rest => d.sights ++ deedsSights rest

end

end LaunchDesk
