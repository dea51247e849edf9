import Cutover.Rehearsal.Performance
import Cutover.Rehearsal.ScriptedPool
import Cutover.Rehearsal.Upkeep
import Cutover.Store.Sql

/-! A store by itself: one in memory, and one over a pool that executes nothing. -/
namespace Cutover.Rehearsal.Storage

inductive Entry where
  | answer (q : Store.Request) (r : Store.Result q)
  | finding (f : Finding)

inductive Step where
  | request (q : Store.Request)
  | upkeep (u : Upkeep)

def Step.perform : Step → Play X Entry
  | .request q => do return .answer q (← serve .src q)
  | .upkeep u => do return .finding (← u.perform .src)

/-- Each step's entry with the time after it, and what is left of the store. -/
def run (site : Site) (steps : List Step) : List (Entry × Nat) × Site :=
  let main : Play (List (Entry × Nat)) Unit := do
    let entries ← steps.mapM fun s => do return (← s.perform, ← Script.now)
    Script.change fun w => { w with extra := entries }
  let w := ((Backdrop.inMemory (once main)).perform { World.empty [] with sites := fun _ => site }).world
  (w.extra, w.site .src)

/-- A step with the pool below the store. -/
inductive PoolStep where
  | cue (c : Cue)
  | request (q : Store.Request)
  | name

def PoolStep.perform (p : ScriptedPool) : PoolStep → Option Entry × ScriptedPool
  | .cue c => (none, p.follow c)
  | .request q =>
    let (r, p) := (Store.Sql.performOn p.name q).run ScriptedPool.answer p
    (some (.answer q r), p)
  | .name => (some (.finding (.name p.name)), p)

/-- The entries, none for a cue, each with the pool after the step, whose log is of this step. -/
def runOn (p : ScriptedPool) : List PoolStep → List (Option Entry × ScriptedPool)
  | [] => []
  | s :: rest =>
    let (entry, p) := s.perform p.clearLog
    (entry, p) :: runOn p rest

end Cutover.Rehearsal.Storage
