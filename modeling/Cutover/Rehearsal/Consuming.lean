import Cutover.Rehearsal.Performance

/-! A consumer by itself, on a queue in memory. Each event is handled the way that is planned for it,
and every call is noted. -/
namespace Cutover.Rehearsal.Consuming

inductive Step where
  | produce (events : List Event)
  | publish (payload : List UInt8)
  | sleep (ms : Nat)
  /-- Tells the consumer to stop, unless that was done before. -/
  | shutDown (timeout : Duration)

/-- What came of stopping if that was tried, the time and the queue after the step. -/
structure Entry where
  result : Option (Except EventError Unit)
  time : Nat
  bus : MemoryBus

structure Scene where
  settings : Consumption
  faults : List (Handover × Nat)
  /-- How long each call for an event takes and how it ends; the last one goes for all that follow. -/
  plans : List (Int64 × List (Nat × Ending))
  steps : List Step

structure Record where
  entries : List Entry
  calls : List (Int64 × Nat)
  /-- The tasks at work. -/
  active : List Nat
  peak : Nat
  stopped : Bool

/-- Notes a call, and tells how many there were before for the event. -/
def note (task : Nat) (e : Event) : Play Record Nat := Script.actAt fun now w =>
  let x := w.extra
  let running := ((w.consumer? 0).map (·.consumer.running)).getD []
  let active := x.active.filter (running.contains ·) ++ [task]
  ((x.calls.filter (·.1 == e.id)).length,
    { w with extra := { x with calls := x.calls ++ [(e.id, now)], active, peak := max x.peak active.length } })

def handle (scene : Scene) (task : Nat) (e : Event) : Play Record Ending := do
  let n ← note task e
  let plan := (scene.plans.lookup e.id).getD []
  match (plan[n]?).or plan.getLast? with
  | none => return .succeeded
  | some (delay, ending) => do
    if delay ≠ 0 then Script.rest delay
    return ending

def post (f : MemoryBus → MemoryBus) : Play X Unit := Script.change fun w =>
  { w with channel := { w.channel with bus := f w.channel.bus } }

def Step.perform : Step → Play Record (Option (Except EventError Unit))
  | .produce events => do
    post fun b => events.foldl MemoryBus.produce b
    return none
  | .publish payload => do
    post (·.publish payload)
    return none
  | .sleep ms => do
    Script.rest ms
    return none
  | .shutDown timeout => do
    if (← Script.world).extra.stopped then return none
    Script.change fun w => { w with extra := { w.extra with stopped := true } }
    return some (← Consumption.shutDown 0 timeout)

def main (scene : Scene) : Play Record Unit := do
  Consumption.launch 0 scene.settings
  let entries ← scene.steps.mapM fun s => do
    let result ← s.perform
    return ⟨result, ← Script.now, (← Script.world).channel.bus⟩
  Script.change fun w => { w with extra := { w.extra with entries } }

def run (scene : Scene) : World Record :=
  ({ Backdrop.inMemory (once (main scene)) with handle := fun _ => handle scene }.perform
    { World.empty (⟨[], [], [], 0, false⟩ : Record) with channel := .ofBus .empty scene.faults }).world

/-- The times of the calls, by event. -/
def callsByEvent (r : Record) : List (Int64 × List Nat) :=
  (((r.calls.map (·.1)).eraseDups).mergeSort (· ≤ ·)).map fun id =>
    (id, (r.calls.filter (·.1 == id)).map (·.2))

end Cutover.Rehearsal.Consuming
