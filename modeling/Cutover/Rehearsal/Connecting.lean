import Cutover.Rehearsal.Application
import Cutover.Rehearsal.Responder

/-! An application at a pool of connections to a server that executes nothing. -/
namespace Cutover.Rehearsal.Connecting

inductive Step where
  | deed (d : Deed)
  /-- From now on whatever contains a text is refused. -/
  | refuse (rule : Option (String × Sql.Refusal))
  | name

inductive Entry where
  | gain (r : Except Obstacle Gain)
  | done
  | name (text : String)

structure State where
  pool : Sql.ConnectionPool
  server : Responder
  labels : Labels

def Step.perform (s : State) : Step → Entry × State
  | .deed d =>
    let ((r, labels), pool, server) :=
      (Application.act s.labels d).run (Sql.ConnectionPool.serve Responder.answer) (s.pool, s.server)
    (.gain r, ⟨pool, server, labels⟩)
  | .refuse rule => (.done, { s with server := { s.server with refusing := rule } })
  | .name => (.name s.pool.name, s)

/-- Each step's entry, and what the server was sent. -/
def perform (s : State) : List (Step × Sql.Execution) → List (Entry × List Receipt)
  | [] => []
  | (step, reply) :: rest =>
    let (entry, s) := step.perform { s with server := { s.server with reply, log := [] } }
    (entry, s.server.log) :: perform s rest

/-- A run of steps, each with what the server answers in it, unless there is no connection. -/
def run (name : String) (reachable : Bool) (steps : List (Step × Sql.Execution)) :
    Except Sql.Error (List (Entry × List Receipt)) :=
  let (connected, server) := (Sql.ConnectionPool.connect name).run Responder.answer (.start reachable)
  connected.map fun pool => perform ⟨pool, server, []⟩ steps

end Cutover.Rehearsal.Connecting
