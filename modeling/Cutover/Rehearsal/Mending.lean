import Cutover.Rehearsal.Performance
import Cutover.Rehearsal.ScriptedPool
import Cutover.Rehearsal.Upkeep
import Cutover.Repair
import Cutover.Store.Sql

/-! Repairs by themselves, between two stores in memory or over two pools that execute nothing. -/
namespace Cutover.Rehearsal.Mending

variable {X : Type}

/-- Does a repair and counts it. -/
def repair (b : Backdrop X) (base : Side) (d : Repair.Asking Repair.Done) : Play X Repair.Outcome := do
  let r ← b.consult 0 d
  Script.change fun w => { w with metrics := Repair.count base.other r w.metrics }
  return r

/-- Has every event handled by a repair. -/
def handleWith (b : Backdrop X) (r : Repairer) (e : Event) : Play X Ending := do
  match ← repair b e.direction (r.handle e) with
  | .ok _ => return .succeeded
  | .error _ => return .failed

inductive Step where
  | fix (base : Side) (id : Int64)
  | fixAs (e : Event)
  | handle (e : Event)
  | columns (base : Side)
  | upkeep (side : Side) (u : Upkeep)

inductive Entry where
  | repaired (r : Repair.Outcome)
  | handled (r : Except EventError Unit)
  | columns (names : List String)
  | finding (f : Finding)

/-- What comes of a repair on behalf of a consumer. -/
def toHandled (r : Repair.Outcome) : Except EventError Unit :=
  (r.mapError fun e => .handler e.message).map fun _ => ()

def Step.perform (b : Backdrop X) (r : Repairer) : Step → Play X Entry
  | .fix base id => do return .repaired (← repair b base (Repair.fix base (r.columns base) id))
  | .fixAs e => do
    return .repaired (← repair b e.direction (Repair.fixAs e.direction (r.columns e.direction) e))
  | .handle e => do return .handled (toHandled (← repair b e.direction (r.handle e)))
  | .columns base => return .columns (r.columns base)
  | .upkeep side u => do return .finding (← u.perform side)

/-- The entries, each with the stores after it, or the reason why there is no repairer. -/
abbrev Course := Except RepairError (List (Entry × (Side → Site)))

def main (b : Backdrop Course) (steps : List Step) : Play Course Unit := do
  let course ← match ← b.consult 0 Repairer.build with
    | .error e => pure (.error e)
    | .ok r => do
      let entries ← steps.mapM fun s => do return (← s.perform b r, (← Script.world).sites)
      pure (.ok entries)
  Script.change fun w => { w with extra := course }

def run (sites : Side → Site) (steps : List Step) : World Course :=
  let b : Backdrop Course := .inMemory (pure false)
  ({ b with main := once (main b steps) }.perform { World.empty (.ok [] : Course) with sites }).world

/-- A step between two pools, of which the source is the base. -/
inductive PoolStep where
  | cue (side : Side) (c : Cue)
  | fix (id : Int64)
  | fixAs (e : Event)
  | columns

structure PoolState where
  pools : ScriptedPool.Pair
  metrics : Metrics

namespace PoolState

def answer (q : Side × Store.Request) (p : ScriptedPool.Pair) : Store.Result q.2 × ScriptedPool.Pair :=
  (Store.Sql.performOn q.1.name q.2).run (ScriptedPool.Pair.answer q.1) p

def ask (p : ScriptedPool.Pair) (d : Dialogue stores α) : α × ScriptedPool.Pair := d.run (I := stores) answer p

def repair (s : PoolState) (d : Repair.Asking Repair.Done) : Option Entry × PoolState :=
  let (r, pools) := ask s.pools d
  (some (.repaired r), ⟨pools, Repair.count .dst r s.metrics⟩)

def cue (p : ScriptedPool.Pair) (side : Side) (c : Cue) : ScriptedPool.Pair := p.modify side (·.follow c)

def perform (columns : List String) (s : PoolState) : PoolStep → Option Entry × PoolState
  | .cue side c => (none, { s with pools := cue s.pools side c })
  | .fix id => s.repair (Repair.fix .src columns id)
  | .fixAs e => s.repair (Repair.fixAs .src columns e)
  | .columns => (some (.columns columns), s)

/-- Each step's entry, none for a cue, with the state after it; the pools' logs are of this step. -/
def performAll (columns : List String) (s : PoolState) : List PoolStep → List (Option Entry × PoolState)
  | [] => []
  | step :: rest =>
    let (entry, s) := perform columns { s with pools := s.pools.clearLogs } step
    (entry, s) :: performAll columns s rest

/-- The pools after the columns were asked for, and what came of the steps unless that failed. -/
def run (setup : List (Side × Cue)) (steps : List PoolStep) :
    ScriptedPool.Pair × Except RepairError (List (Option Entry × PoolState)) :=
  let pools := setup.foldl (fun p (side, c) => cue p side c) .fresh
  let (r, pools) := ask pools (Repair.introspect .src)
  (pools, r.map fun columns => performAll columns ⟨pools, []⟩ steps)

end PoolState
end Cutover.Rehearsal.Mending
