import Cutover.Event
import Cutover.Metrics

/-! Consumption of events. A consumer takes messages off a queue while there is room, has each event
handled by a task of its own, and settles a message when its task has ended: acknowledged after
success, released after failure. A message that carries no event is acknowledged at once, since it
never will. A consumer is a machine that is told what happens to it; `C` is what the queue knows a
message by. -/
namespace Cutover

structure Consumption where
  /-- A task that takes longer has failed. -/
  handlerTimeout : Duration
  /-- How many events may be in hand. -/
  capacity : Nat
  /-- The pause after the queue was found empty. -/
  sleep : Duration
  /-- How long tasks may go on once the consumer is told to stop. -/
  shutdownTimeout : Duration
  /-- How long running tasks may keep the consumer from looking for more. -/
  pickupTimeout : Duration
  retryMin : Duration
  retryMax : Duration
  deriving DecidableEq

namespace Consumption

def redelivery (s : Consumption) : Redelivery := ⟨s.retryMin, s.retryMax⟩

def standard : Consumption where
  handlerTimeout := .ofMillis 1000
  capacity := 16
  sleep := .ofMillis 250
  shutdownTimeout := .ofMillis 500
  pickupTimeout := .ofMillis 1000
  retryMin := .ofMillis 100
  retryMax := .ofMillis 30000

end Consumption

/-- How a task ended. -/
inductive Ending where
  | succeeded
  | failed
  | timedOut
  | panicked
  deriving DecidableEq

/-- An event in hand. -/
structure Charge (C : Type) where
  task : Nat
  event : Event
  cookie : C

namespace Consumer

/-- Where a consumer goes on after it has settled a message. -/
inductive Resume where
  | sweep
  | take
  | drain
  deriving DecidableEq

/-- What a consumer waits for. -/
inductive Stage (C : Type) where
  /-- The answer of the queue. -/
  | taking
  /-- The acknowledgement of a message without an event. -/
  | discarding (cookie : C)
  /-- Nothing: it settles what has ended and goes back for more. -/
  | sweeping
  /-- The end of a task, a signal or, if `pickup`, a timer. -/
  | joining (pickup : Bool)
  /-- A timer or a signal. -/
  | idle
  /-- The acknowledgement of a message whose task succeeded. -/
  | acking (charge : Charge C) (after : Resume)
  /-- The release of a message whose task failed. -/
  | nacking (charge : Charge C) (after : Resume)
  /-- The end of all tasks, or a timer. -/
  | draining
  | ended (result : Except EventError Unit)

/-- What the consumer has others do. -/
inductive Order where
  | launch (task : Nat) (event : Event)
  deriving DecidableEq

/-- Something worth counting. -/
inductive Note where
  | completed
  | redelivered (drift : Drift)
  | poison
  | inHand (count : Nat)
  deriving DecidableEq

def Note.count (m : Metrics) : Note → Metrics
  | .completed => m.add .consumerCompleted 1 []
  | .redelivered drift => m.add .consumerRedeliveries 1 [("kind", drift.name)]
  | .poison => m.add .consumerPoison 1 []
  | .inHand count => m.alter inflightGauge [] fun _ => count

end Consumer

structure Consumer (C : Type) where
  stage : Consumer.Stage C
  /-- Tasks under way. -/
  running : List Nat
  /-- Tasks that have ended, in the order in which they did. -/
  finished : List (Nat × Ending)
  charges : List (Charge C)
  /-- How many tasks were launched. -/
  launched : Nat
  /-- Whether a signal to stop is waiting to be seen. -/
  signalled : Bool

namespace Consumer

variable {C : Type}

/-- How many events are in hand. -/
def tasks (c : Consumer C) : Nat := c.running.length + c.finished.length

def hasRoom (s : Consumption) (c : Consumer C) : Bool := c.tasks < s.capacity

/-- Decides how to go on after the queue was asked, or was not because there is no room. -/
def afterTake (s : Consumption) (c : Consumer C) (took : Bool) : Consumer C × List Note :=
  let stage :=
    if took && c.hasRoom s then .sweeping
    else if c.tasks ≠ 0 then .joining (!took)
    else if !took then .idle
    else .taking
  ({ c with stage }, [.inHand c.tasks])

/-- Goes back for more. -/
def again (s : Consumption) (c : Consumer C) : Consumer C × List Note :=
  if c.hasRoom s then ({ c with stage := .taking }, []) else c.afterTake s false

/-- A consumer that has nothing in hand. -/
def fresh : Consumer C := ⟨.taking, [], [], [], 0, false⟩

def start (s : Consumption) : Consumer C × List Note := fresh.again s

/-- The queue has answered; a failure to answer is taken for an empty queue. -/
def onTaken (s : Consumption) (c : Consumer C) :
    Option (List UInt8 × C) → Consumer C × List Order × List Note
  | none => let (c, notes) := c.afterTake s false; (c, [], notes)
  | some (payload, cookie) =>
    match Event.decode payload with
    | none => ({ c with stage := .discarding cookie }, [], [.poison])
    | some event =>
      let task := c.launched
      let c := { c with
        running := c.running ++ [task]
        charges := c.charges ++ [Charge.mk task event cookie]
        launched := task + 1 }
      let (c, notes) := c.afterTake s true
      (c, [.launch task event], notes)

/-- A message without an event has been acknowledged, or it has not; it is forgotten anyway. -/
def onDiscarded (s : Consumption) (c : Consumer C) : Consumer C × List Note := c.afterTake s true

/-- A task has ended. -/
def onEnded (c : Consumer C) (task : Nat) (ending : Ending) : Consumer C :=
  if c.running.contains task then
    { c with running := c.running.erase task, finished := c.finished ++ [(task, ending)] }
  else c

/-- Turns to the first task that has ended. -/
def join (c : Consumer C) (after : Resume) : Consumer C :=
  match c.finished with
  | [] => c
  | (task, ending) :: finished =>
    match c.charges.find? (·.task == task) with
    | none => { c with finished, stage := .ended (.error .unknownTask) }
    | some charge =>
      { c with
        finished
        charges := c.charges.filter (·.task != task)
        stage := if ending = .succeeded then .acking charge after else .nacking charge after }

/-- Goes on after a message was settled. -/
def resume (s : Consumption) (c : Consumer C) : Resume → Consumer C × List Note
  | .sweep => ({ c with stage := .sweeping }, [])
  | .take => c.again s
  | .drain => ({ c with stage := .draining }, [])

/-- A message has been settled; if that failed the queue will deliver it once more. -/
def onSettled (s : Consumption) (c : Consumer C) : Consumer C × List Note :=
  match c.stage with
  | .acking _ after => let (c, notes) := c.resume s after; (c, .completed :: notes)
  | .nacking charge after =>
    let (c, notes) := c.resume s after; (c, .redelivered charge.event.drift :: notes)
  | _ => (c, [])

/-- The signal is seen. -/
def heed (c : Consumer C) : Consumer C := { c with signalled := false, stage := .draining }

/-- Settles what has ended before it goes on. -/
def sweep (s : Consumption) (c : Consumer C) : Consumer C × List Note :=
  match c.finished with
  | _ :: _ => (c.join .sweep, [])
  | [] => if c.signalled then (c.heed, []) else c.again s

/-- A timer has run out. A consumer that was told to stop gives its tasks up. -/
def onTimer (s : Consumption) (c : Consumer C) : Consumer C × List Note :=
  match c.stage with
  | .joining true | .idle => c.again s
  | .draining | .acking _ .drain | .nacking _ .drain =>
    ({ c with running := [], finished := [], charges := [], stage := .ended (.error .shutdownTimeout) }, [])
  | _ => (c, [])

/-- While it drains, a consumer is through when no task is left. -/
def drain (c : Consumer C) : Consumer C :=
  match c.finished, c.running with
  | _ :: _, _ => c.join .drain
  | [], [] => { c with stage := .ended (.ok ()) }
  | [], _ :: _ => c

/-- The consumer is told to stop. -/
def signal (c : Consumer C) : Consumer C := { c with signalled := true }

def result (c : Consumer C) : Option (Except EventError Unit) :=
  match c.stage with
  | .ended r => some r
  | _ => none

end Consumer
end Cutover
