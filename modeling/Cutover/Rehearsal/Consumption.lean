import Cutover.Rehearsal.Backdrop

/-! A consumer on the stage: it asks the queue, waits for its tasks and settles messages as its state
demands, and each task is a job of its own. -/
namespace Cutover.Rehearsal.Consumption

open Consumer (Order Note)

variable {X : Type}

/-- Changes a consumer, and counts; what it orders is the answer. -/
def update (generation : Nat) (f : Consumption → Consumer Ticket → Consumer Ticket × List Order × List Note) :
    Play X (List Order) := Script.act fun w =>
  match w.consumer? generation with
  | none => ([], w)
  | some run =>
    let (consumer, orders, notes) := f run.settings run.consumer
    (orders, { w.setConsumer { run with consumer } with metrics := notes.foldl Note.count w.metrics })

/-- The same for a change without orders. -/
def apply (generation : Nat) (f : Consumption → Consumer Ticket → Consumer Ticket × List Note) :
    Play X Unit := do
  let _ ← update generation fun s c => let (c, notes) := f s c; (c, [], notes)

def obey (generation : Nat) : List Order → Play X Unit
  | [] => pure ()
  | .launch task event :: rest => do
    Script.start (.handle generation task event)
    obey generation rest

/-- Waits for a task to end, for the signal or for a timer, in this order. -/
def await (generation : Nat) (timer : Option Nat) (after : Consumer.Resume) : Play X Unit := do
  .pause timer (fun w => match w.consumer? generation with
    | none => true
    | some run => !run.consumer.finished.isEmpty || run.consumer.signalled) (.done ())
  apply generation fun s c =>
    if !c.finished.isEmpty then (c.join after, [])
    else if c.signalled then (c.heed, [])
    else c.onTimer s

/-- Settles a message; a consumer that was told to stop does it against its deadline. -/
def settle (run : ConsumerRun) (after : Consumer.Resume) (work : Play X Unit) : Play X Unit := do
  let deadline := if after = .drain then run.deadline else none
  match ← work.within deadline (fun _ => false) with
  | .finished () => apply run.generation fun s c => c.onSettled s
  | _ => apply run.generation fun s c => c.onTimer s

/-- When a consumer that was told to stop gives its tasks up; this is fixed as soon as it drains. -/
def drainUntil (run : ConsumerRun) : Play X Nat := Script.actAt fun now w =>
  let deadline := run.deadline.getD (now + run.settings.shutdownTimeout.ticks)
  (deadline, w.setConsumer { run with deadline := some deadline })

def ofGeneration (generation : Nat) : Job → Bool
  | .handle g _ _ => g == generation
  | _ => false

def step (b : Backdrop X) (run : ConsumerRun) : Play X Bool := do
  let g := run.generation
  let now ← Script.now
  match run.consumer.stage with
  | .taking => do
    let found ← b.take g
    obey g (← update g fun s c => c.onTaken s found)
    return true
  | .discarding cookie => do
    b.ack g cookie
    apply g fun s c => c.onDiscarded s
    return true
  | .sweeping => do
    apply g fun s c => c.sweep s
    return true
  | .joining pickup => do
    await g (if pickup then some (now + run.settings.pickupTimeout.ticks) else none) .take
    return true
  | .idle => do
    await g (some (now + run.settings.sleep.ticks)) .take
    return true
  | .acking charge after => do
    settle run after (b.ack g charge.cookie)
    return true
  | .nacking charge after => do
    settle run after (b.nack g charge.cookie run.settings.redelivery)
    return true
  | .draining => do
    let deadline ← drainUntil run
    .pause (some deadline) (fun w => match w.consumer? g with
      | none => true
      | some run => !run.consumer.finished.isEmpty || run.consumer.running.isEmpty) (.done ())
    apply g fun s c =>
      if !c.finished.isEmpty || c.running.isEmpty then (c.drain, []) else c.onTimer s
    return true
  | .ended _ => do
    Script.callOff (ofGeneration g)
    return false

def consume (b : Backdrop X) (generation : Nat) : Play X Bool := do
  let w ← Script.world
  match w.consumer? generation with
  | none => return false
  | some run => step b run

/-- A task: it handles one event, within the time allowed. -/
def handle (b : Backdrop X) (generation task : Nat) (e : Event) : Play X Bool := do
  let w ← Script.world
  match w.consumer? generation with
  | none => return false
  | some run => do
    let now ← Script.now
    let limit := now + run.settings.handlerTimeout.ticks
    let ending := match ← (b.handle generation task e).within (some limit) (fun _ => false) with
      | .finished ending => ending
      | _ => .timedOut
    apply generation fun _ c => (c.onEnded task ending, [])
    return false

/-- Brings a consumer onto the stage. -/
def launch (generation : Nat) (settings : Consumption) : Play X Unit := do
  Script.change fun w =>
    let (consumer, notes) := Consumer.start settings
    { w with
      consumers := w.consumers ++ [⟨generation, settings, consumer, none⟩]
      metrics := notes.foldl Note.count w.metrics }
  Script.start (.consume generation)

/-- Tells a consumer to stop, and waits for it up to a time. One that does not make it goes on. -/
def shutDown (generation : Nat) (timeout : Duration) : Play X (Except EventError Unit) := do
  Script.change (·.signal generation)
  let result := fun (w : World X) => (w.consumer? generation).bind (·.consumer.result)
  Script.waitAtMost timeout.ticks fun w => (result w).isSome
  let w ← Script.world
  return (result w).getD (.error .shutdownTimeout)

end Cutover.Rehearsal.Consumption
