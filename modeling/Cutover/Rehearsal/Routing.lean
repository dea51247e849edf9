import Cutover.DualWrite.Router
import Cutover.Rehearsal.Application
import Cutover.Rehearsal.ScriptedPool
import Cutover.Store.Sql

/-! An application and a store on the router, over two pools that execute nothing. -/
namespace Cutover.Rehearsal.Routing

inductive Step where
  | cue (side : Side) (c : Cue)
  | request (q : Store.Request)
  | deed (d : Deed)
  | switch (text : String)
  /-- Sets the pattern, whatever it was. -/
  | set (p : Pattern)
  | pattern
  | name

inductive Entry where
  | cued
  | answer (q : Store.Request) (r : Store.Result q)
  | gain (r : Except Obstacle Gain)
  | switched (r : Except Sql.Error Pattern)
  | done
  | pattern (p : Pattern)
  | name

structure State where
  router : DualWrite.Router
  pools : ScriptedPool.Pair
  labels : Labels

namespace State

def start (pattern : Pattern) : State := ⟨.start pattern, .fresh, []⟩

/-- Has the router answer. -/
def run (s : State) (d : Dialogue Sql.pool α) : α × State :=
  let (a, router, pools) := d.run (DualWrite.Router.serve ScriptedPool.Pair.route) (s.router, s.pools)
  (a, { s with router, pools })

end State

def Step.perform (s : State) : Step → Entry × State
  | .cue side c => (.cued, { s with pools := s.pools.modify side (·.follow c) })
  | .request q =>
    let (r, s) := s.run (Store.Sql.performOn DualWrite.name q)
    (.answer q r, s)
  | .deed d =>
    let ((r, labels), s) := s.run (Application.act s.labels d)
    (.gain r, { s with labels })
  | .switch text =>
    let (r, router) := s.router.switchNamed text
    (.switched r, { s with router })
  | .set p => (.done, { s with router := { s.router with pattern := p } })
  | .pattern => (.pattern s.router.pattern, s)
  | .name => (.name, s)

/-- Each step's entry with the state after it; the pools' logs are of this step. -/
def run (s : State) : List Step → List (Entry × State)
  | [] => []
  | step :: rest =>
    let (entry, s) := step.perform { s with pools := s.pools.clearLogs }
    (entry, s) :: run s rest

end Cutover.Rehearsal.Routing
