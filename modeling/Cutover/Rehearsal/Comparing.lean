import Cutover.Rehearsal.Performance
import Cutover.Rehearsal.Upkeep

/-! One comparison from beginning to end, while others change the stores or call it off. Publishing
an event takes as long as it is told to, and fails if it is told to. -/
namespace Cutover.Rehearsal.Comparing

variable {X : Type}

/-- Runs a comparison to its end, and tells the time. -/
def compare (s : Validation.Settings) : Play X Nat := do
  Comparison.launch (.begin 0 0 s)
  Script.waitFor fun w => !w.running 0
  Script.now

/-- What came of it. -/
def result (w : World X) : Except Validation.Error Unit := ((w.session? 0).bind (·.outcome)).getD (.ok ())

inductive Edit where
  | upkeep (side : Side) (u : Upkeep)
  | cancel

structure Scene where
  settings : Validation.Settings
  sites : Side → Site
  /-- The times that publishing takes. -/
  delays : List (Int64 × Nat)
  failing : List Int64
  edits : List (Nat × Edit)

/-- The events in the order of their publication, and the time of the end. -/
structure Record where
  events : List (Nat × Event)
  elapsed : Nat

def Edit.perform : Edit → Play X Unit
  | .upkeep side u => do let _ ← u.perform side
  | .cancel => Script.change (·.cancel 0)

def publish (scene : Scene) (e : Event) : Play Record Bool := do
  Script.actAt fun now w => ((), { w with extra := { w.extra with events := w.extra.events ++ [(now, e)] } })
  match scene.delays.lookup e.id with
  | none | some 0 => pure ()
  | some delay => Script.rest delay
  return !scene.failing.contains e.id

def startAll : List Nat → Play Record Unit
  | [] => pure ()
  | i :: rest => do
    Script.start (.errand i)
    startAll rest

def main (scene : Scene) : Play Record Unit := do
  startAll (List.range scene.edits.length)
  let elapsed ← compare scene.settings
  Script.change fun w => { w with extra := { w.extra with elapsed } }

def errand (scene : Scene) (i : Nat) : Play Record Bool := do
  match scene.edits[i]? with
  | none => return false
  | some (time, edit) => do
    Script.rest time
    edit.perform
    return false

def run (scene : Scene) : World Record :=
  ({ Backdrop.inMemory (once (main scene)) with publish := fun _ => publish scene, errand := errand scene }.perform
    { World.empty (⟨[], 0⟩ : Record) with sites := scene.sites }).world

/-- The requests of some methods that a store saw. -/
def requests (s : Site) (methods : List Method) : List Visit :=
  s.log.filter fun v => methods.contains (methodOf v.request)

/-- One pass as the stores saw it. -/
structure Half where
  scans : List Visit
  lookups : List Visit
  events : List (Nat × Event)

def half (w : World Record) : Validation.Kind → Half
  | .baseToTarget =>
    ⟨requests (w.site .src) [.orderedById, .updatedSince], requests (w.site .dst) [.byIds],
      w.extra.events.filter (·.2.drift != .baseMissing)⟩
  | .targetToBase =>
    ⟨requests (w.site .dst) [.orderedById], requests (w.site .src) [.presentIds],
      w.extra.events.filter (·.2.drift == .baseMissing)⟩

end Cutover.Rehearsal.Comparing
