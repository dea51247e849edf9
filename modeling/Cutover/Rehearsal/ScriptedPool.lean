import Cutover.DualWrite
import Cutover.Sql.Pool

/-! A pool that executes nothing. It notes each call and answers from what was queued for it, except
for calls of the kinds it was told to fail. -/
namespace Cutover.Rehearsal

/-- The calls that can be told to fail. -/
inductive CallKind where
  | exec
  | query
  | queryRow
  | prepare
  | begin
  | commit
  | rollback
  deriving DecidableEq

namespace CallKind

def all : List CallKind := [.exec, .query, .queryRow, .prepare, .begin, .commit, .rollback]

def name : CallKind → String
  | .exec => "exec"
  | .query => "query"
  | .queryRow => "query_row"
  | .prepare => "prepare"
  | .begin => "begin"
  | .commit => "commit"
  | .rollback => "rollback"

def ofName? (text : String) : Option CallKind := all.find? (·.name == text)

end CallKind

/-- What a pool is told to do from now on. -/
inductive Cue where
  | fault (kind : CallKind) (on : Bool)
  /-- What a query will find. -/
  | rows (l : List Sql.Row)
  | effect (e : Sql.Effect)

/-- A call that was made. -/
inductive CallRecord where
  | statement (kind : CallKind) (s : Sql.Statement)
  | prepare (query : String)
  | begin (options : Sql.TransactionOptions)
  | finish (kind : CallKind)

structure ScriptedPool where
  name : String
  faults : List CallKind
  rows : List (List Sql.Row)
  effects : List Sql.Effect
  log : List CallRecord
  /-- How many transactions were begun. -/
  begun : Nat

namespace ScriptedPool

def fresh (name : String) : ScriptedPool := ⟨name, [], [], [], [], 0⟩

def follow (p : ScriptedPool) : Cue → ScriptedPool
  | .fault kind true => { p with faults := kind :: p.faults }
  | .fault kind false => { p with faults := p.faults.filter (· ≠ kind) }
  | .rows l => { p with rows := p.rows ++ [l] }
  | .effect e => { p with effects := p.effects ++ [e] }

def clearLog (p : ScriptedPool) : ScriptedPool := { p with log := [] }

/-- Notes a call, and has it fail if it is to. -/
def attempt (p : ScriptedPool) (kind : CallKind) (record : CallRecord)
    (work : ScriptedPool → α × ScriptedPool) : Except Sql.Error α × ScriptedPool :=
  let p := { p with log := p.log ++ [record] }
  if p.faults.contains kind then (.error (.backend p.name "injected failure"), p)
  else let (a, p) := work p; (.ok a, p)

def nextRows (p : ScriptedPool) : List Sql.Row × ScriptedPool :=
  (p.rows.headD [], { p with rows := p.rows.tail })

def nextEffect (p : ScriptedPool) : Sql.Effect × ScriptedPool :=
  (p.effects.headD ⟨1, none⟩, { p with effects := p.effects.tail })

def answer : (q : Sql.Call) → ScriptedPool → q.Reply × ScriptedPool
  | .begin o, p => p.attempt .begin (.begin o) fun p => (p.begun, { p with begun := p.begun + 1 })
  | .exec _ s, p => p.attempt .exec (.statement .exec s) nextEffect
  | .query _ s, p => p.attempt .query (.statement .query s) nextRows
  | .queryRow _ s, p => p.attempt .queryRow (.statement .queryRow s) fun p =>
    let (rows, p) := nextRows p; (rows.head?, p)
  | .prepare _ query, p => p.attempt .prepare (.prepare query) fun p => (⟨query, []⟩, p)
  | .commit _, p => p.attempt .commit (.finish .commit) fun p => ((), p)
  | .rollback _, p => p.attempt .rollback (.finish .rollback) fun p => ((), p)
  | .abandon _, p => ((), p)

/-- Two of them, as a router sees them. -/
structure Pair where
  src : ScriptedPool
  dst : ScriptedPool

namespace Pair

def fresh : Pair := ⟨.fresh "src", .fresh "dst"⟩

def get (p : Pair) : Side → ScriptedPool
  | .src => p.src
  | .dst => p.dst

def modify (p : Pair) (side : Side) (f : ScriptedPool → ScriptedPool) : Pair :=
  match side with
  | .src => { p with src := f p.src }
  | .dst => { p with dst := f p.dst }

def clearLogs (p : Pair) : Pair := ⟨p.src.clearLog, p.dst.clearLog⟩

/-- Answers for one of the two. -/
def answer (side : Side) (q : Sql.Call) (p : Pair) : q.Reply × Pair :=
  let (r, pool) := ScriptedPool.answer q (p.get side)
  (r, p.modify side fun _ => pool)

def route (q : DualWrite.pools.Ask) (p : Pair) : DualWrite.pools.Reply q × Pair := p.answer q.1 q.2

end Pair
end ScriptedPool
end Cutover.Rehearsal
