import Cutover.Bus.LeaseTable
import Cutover.Rehearsal.Script
import Cutover.Store.Execution

/-! A database held in memory. It has the table of records and, once that was created, a table of
messages. It can be slow, refuse statements by how they begin, or be out of reach. -/
namespace Cutover.Rehearsal

structure Server where
  name : String
  table : Table
  queue : Option LeaseTable
  /-- Statements that begin like one of these are refused. -/
  refused : List String
  latency : Nat
  down : Bool

namespace Server

def ofTable (name : String) (table : Table) : Server := ⟨name, table, none, [], 0, false⟩

instance : Inhabited Server := ⟨ofTable "" .empty⟩

def setRefused (s : Server) (start : String) (on : Bool) : Server :=
  { s with refused := if on then s.refused ++ [start] else s.refused.filter (· != start) }

def refuses (s : Server) (statement : String) : Bool := s.refused.any (statement.startsWith ·)

def failure (s : Server) : Sql.Error := .backend s.name "injected failure"

def fail (e : Sql.Error) : (q : Sql.Query) → q.Reply
  | .introspect _ | .select _ | .selectFirst _ | .upsert _ | .delete .. => .error e

def failLease (e : Sql.Error) : (q : LeaseQuery) → q.Reply
  | .create | .outstanding | .insert .. | .claim .. | .claimed _ | .finish .. | .release .. => .error e

/-- Answers a statement about records. -/
def answer (q : Sql.Query) (s : Server) : q.Reply × Server :=
  if s.refuses q.statement.text then (fail s.failure q, s)
  else
    let (r, table) := s.table.execute q
    (r, { s with table })

/-- Answers a statement about messages. Until their table is created there is nothing to ask. -/
def answerLease (table : String) (q : LeaseQuery) (s : Server) : q.Reply × Server :=
  if s.refuses (q.statement table).text then (failLease s.failure q, s)
  else
    match q, s.queue with
    | .create, none => ((LeaseTable.execute [] .create).1, { s with queue := some [] })
    | q, some rows =>
      let (r, rows) := LeaseTable.execute rows q
      (r, { s with queue := some rows })
    | q, none => (failLease s.failure q, s)

/-- How many messages are done and how many are not. -/
def tally (s : Server) : Option (Nat × Nat) :=
  s.queue.map fun rows => ((rows.filter (·.done)).length, (rows.filter (!·.done)).length)

end Server
end Cutover.Rehearsal
