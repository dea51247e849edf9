import Cutover.Rehearsal.Comparing
import Cutover.Rehearsal.Consuming
import Cutover.Rehearsal.Mending

/-! A comparison and the repair of what it found, one after the other. -/
namespace Cutover.Rehearsal.Pipeline

structure Scene where
  comparison : Validation.Settings
  sites : Side → Site
  /-- Events, and then messages, that join those of the comparison. -/
  extra : List Event
  raw : List (List UInt8)
  consumption : Consumption
  /-- How long the repairs go on before the consumer is told to stop. -/
  runs : Nat

structure Record where
  validated : Nat
  published : List Event
  /-- The queue when the consumer is told to stop, and what came of that; or the reason why there
  is no repairer. -/
  course : Except RepairError (MemoryBus × Except EventError Unit)

/-- Empties the queue. -/
def collect : Play Record (List Event) := Script.act fun w =>
  let (l, bus) := w.channel.bus.drain
  (l, { w with channel := { w.channel with bus } })

/-- How long the consumer has to stop. -/
def patience : Duration := .ofMillis 5001

def mend (b : Backdrop Record) (scene : Scene) :
    Play Record (Except RepairError (MemoryBus × Except EventError Unit)) := do
  match ← b.consult 0 Repairer.build with
  | .error e => return .error e
  | .ok _ => do
    Consumption.launch 0 scene.consumption
    Script.rest scene.runs
    let bus := (← Script.world).channel.bus
    return .ok (bus, ← Consumption.shutDown 0 patience)

def main (b : Backdrop Record) (scene : Scene) : Play Record Unit := do
  let validated ← Comparing.compare scene.comparison
  let published ← collect
  Consuming.post fun bus => (published ++ scene.extra).foldl MemoryBus.produce bus
  Consuming.post fun bus => scene.raw.foldl MemoryBus.publish bus
  let course ← mend b scene
  Script.change fun w => { w with extra := ⟨validated, published, course⟩ }

/-- The repairer of two stores in memory. -/
def repairer : Repairer := ⟨fun _ => Interactive.columns⟩

def run (scene : Scene) : World Record :=
  let b : Backdrop Record := .inMemory (pure false)
  ({ b with main := once (main b scene), handle := fun _ _ => Mending.handleWith b repairer }.perform
    { World.empty (⟨0, [], .ok (.empty, .ok ())⟩ : Record) with sites := scene.sites }).world

end Cutover.Rehearsal.Pipeline
