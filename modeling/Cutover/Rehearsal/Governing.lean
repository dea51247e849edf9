import Cutover.Rehearsal.Desk
import Cutover.Rehearsal.Performance
import Cutover.Rehearsal.Upkeep

/-! The control plane by itself, over stores and a queue in memory. -/
namespace Cutover.Rehearsal.Governing

inductive Step where
  /-- A request, unless its target is none, with the identifier that it came with. -/
  | request (r : Option Control.Request) (id : Option String)
  | switch (pattern : Pattern)
  | startFull
  | startIncremental (utime : Int64) (interval : Duration)
  | stopFull
  | stopIncremental
  | shutDown
  /-- Has the router refuse to switch. -/
  | refuse (on : Bool)
  | sleep (ms : Nat)
  | events
  | patterns
  | asked
  | metrics
  | status
  | upkeep (side : Side) (u : Upkeep)

inductive Entry where
  | response (id : String) (r : Control.Response)
  | unsent
  | done (r : Except SchedulerError Unit)
  | started (r : Except SchedulerError Nat)
  | time (now : Nat)
  | events (l : List Event)
  | patterns (l : List Pattern)
  | metrics (m : Metrics)
  | status (s : Status)
  | finding (f : Finding)

variable {X : Type}

/-- What the control plane alone answers; nobody collects figures from it. -/
def toResponse : Desk.Reception → Control.Response
  | .response r => r
  | .metrics _ => Control.notFound

def Step.perform : Step → Play X Entry
  | .request none _ => return .unsent
  | .request (some r) id => do
    let id ← Desk.identify id
    return .response id (toResponse (← Desk.receive r))
  | .switch pattern => do return .done (← Desk.switch pattern)
  | .startFull => do return .started (← Desk.startFull)
  | .startIncremental utime interval => do return .started (← Desk.startIncremental utime interval)
  | .stopFull => do
    Desk.stopFull
    return .done (.ok ())
  | .stopIncremental => do
    Desk.stopIncremental
    return .done (.ok ())
  | .shutDown => do
    Desk.shutDown
    return .done (.ok ())
  | .refuse on => do
    Script.change fun w => { w with desk := { w.desk with refusing := on } }
    return .done (.ok ())
  | .sleep ms => do
    Script.rest ms
    return .time (← Script.now)
  | .events => Script.act fun w =>
    let (l, bus) := w.channel.bus.drain
    (.events l, { w with channel := { w.channel with bus } })
  | .patterns => do
    let w ← Script.world
    return .patterns [w.desk.plane.scheduler.pattern, w.desk.plane.router]
  | .asked => do
    let w ← Script.world
    return .patterns w.desk.asked
  | .metrics => do
    let w ← Script.world
    return .metrics w.metrics
  | .status => do
    let w ← Script.world
    return .status (w.desk.plane.status (Desk.circumstances w))
  | .upkeep side u => do return .finding (← u.perform side)

def run (pattern : Pattern) (tuning : Validation.Tuning) (sites : Side → Site) (steps : List Step) : List Entry :=
  let main : Play (List Entry) Unit := do
    let entries ← steps.mapM Step.perform
    Script.change fun w => { w with extra := entries }
  ((Backdrop.inMemory (once main)).perform
    { World.empty [] with sites, desk := Desk.ofPlane (.adopt pattern tuning) }).world.extra

end Cutover.Rehearsal.Governing
