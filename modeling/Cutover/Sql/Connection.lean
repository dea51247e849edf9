import Cutover.Sql.Cell
import Cutover.Sql.Pool

/-! A pool of connections to one server. A connection prepares a statement when it first meets it and
keeps it from then on. A transaction has a connection to itself; the others wait in a queue, and when
none is waiting another is made. -/
namespace Cutover.Sql

/-- A server's reason not to do something. -/
structure Refusal where
  code : Nat
  state : String
  message : String

/-- What a server knows of a statement that it prepared. -/
structure Shape where
  parameters : Nat
  columns : List String

/-- What comes of a statement that a server executed. -/
inductive Execution where
  /-- The last identifier is zero if none was made. -/
  | effect (affected lastInsertId : UInt64)
  | rows (found : ResultSet)

namespace Execution

def toEffect : Execution → Effect
  | .effect affected last => ⟨affected, if last = 0 then none else some last⟩
  | .rows _ => ⟨0, none⟩

def resultSet : Execution → ResultSet
  | .effect .. => ⟨[], []⟩
  | .rows found => found

end Execution

/-- What a server can be sent. -/
inductive Message where
  /-- Asks whether anyone answers. -/
  | connect
  /-- A statement as text, without arguments. -/
  | text (sql : String)
  | prepare (sql : String)
  | execute (statement : Statement)

@[reducible] def Message.Reply : Message → Type
  | .connect => Bool
  | .text _ => Except Refusal Unit
  | .prepare _ => Except Refusal Shape
  | .execute _ => Except Refusal Execution

/-- A server sees which connection a message comes on. -/
def server : Interface := ⟨Nat × Message, fun q => q.2.Reply⟩

/-- What can go wrong on a connection. -/
inductive Fault where
  | unreachable
  | refused (r : Refusal)
  | arguments (expected given : Nat)
  | unreadable (column : String)

def Fault.cause : Fault → String
  | .unreachable => "the server cannot be reached"
  | .refused r => "error returned from database: " ++ toString r.code ++ " (" ++ r.state ++ "): " ++ r.message
  | .arguments expected given =>
    toString given ++ " arguments were given for " ++ toString expected ++ " parameters"
  | .unreadable column => "column " ++ column ++ " cannot be read"

structure Connection where
  /-- Its number among those that the pool has made. -/
  number : Nat
  prepared : List (String × Shape)

namespace Connection

/-- The text that makes a new connection behave. -/
def setup : String :=
  "SET sql_mode=(SELECT CONCAT(@@sql_mode, ',PIPES_AS_CONCAT,NO_ENGINE_SUBSTITUTION'))," ++
    "time_zone='+00:00',NAMES utf8mb4 COLLATE utf8mb4_unicode_ci;"

def tell (c : Connection) (sql : String) : Dialogue server (Except Fault Unit) :=
  .ask (c.number, .text sql) fun r => .done (r.mapError .refused)

/-- Makes a connection. -/
def establish (number : Nat) : Dialogue server (Except Fault Connection) :=
  let c : Connection := ⟨number, []⟩
  .ask (number, .connect) fun
    | false => .done (.error .unreachable)
    | true => (c.tell setup).bind fun r => .done (r.map fun () => c)

def prepare (c : Connection) (sql : String) : Dialogue server (Except Fault Shape × Connection) :=
  match c.prepared.lookup sql with
  | some shape => .done (.ok shape, c)
  | none => .ask (c.number, .prepare sql) fun
    | .error r => .done (.error (.refused r), c)
    | .ok shape => .done (.ok shape, { c with prepared := (sql, shape) :: c.prepared })

def execute (c : Connection) (s : Statement) : Dialogue server (Except Fault Execution × Connection) :=
  (c.prepare s.text).bind fun
    | (.error f, c) => .done (.error f, c)
    | (.ok shape, c) =>
      if s.args.length ≠ shape.parameters then .done (.error (.arguments shape.parameters s.args.length), c)
      else .ask (c.number, .execute s) fun r => .done (r.mapError .refused, c)

/-- Texts one after another, until one is refused. -/
def tellAll (c : Connection) : List String → Dialogue server (Except Fault Unit)
  | [] => .done (.ok ())
  | sql :: rest => (c.tell sql).bind fun
    | .error f => .done (.error f)
    | .ok () => c.tellAll rest

def beginTexts (o : TransactionOptions) : List String :=
  (o.isolation.map fun i => "SET TRANSACTION ISOLATION LEVEL " ++ i.sql).toList ++
    [if o.readOnly then "START TRANSACTION READ ONLY" else "START TRANSACTION"]

end Connection

structure ConnectionPool where
  name : String
  /-- The connections that nobody uses, the one that waits longest first. -/
  idle : List Connection
  /-- Those of the open transactions. -/
  held : List (Handle × Connection)
  /-- How many connections were made. -/
  made : Nat
  /-- How many transactions were begun. -/
  begun : Nat

namespace ConnectionPool

/-- A step on a connection. -/
abbrev Work (α : Type) := Connection → Dialogue server (Except Fault α × Connection)

abbrev Doing (α : Type) := Dialogue server (Except Error α × ConnectionPool)

def failed (p : ConnectionPool) (f : Fault) : Error := .backend p.name f.cause

/-- A pool with one connection. -/
def connect (name : String) : Dialogue server (Except Error ConnectionPool) :=
  (Connection.establish 0).bind fun r => .done <|
    (r.map fun c => ⟨name, [c], [], 1, 0⟩).mapError fun f => .backend name f.cause

def release (p : ConnectionPool) (c : Connection) : ConnectionPool := { p with idle := p.idle ++ [c] }

def acquire (p : ConnectionPool) : Dialogue server (Except Fault Connection × ConnectionPool) :=
  match p.idle with
  | c :: idle => .done (.ok c, { p with idle })
  | [] => (Connection.establish p.made).bind fun r => .done (r, { p with made := p.made + 1 })

/-- Does something on a connection that is free again afterwards. -/
def lend (p : ConnectionPool) (work : Work α) : Doing α :=
  p.acquire.bind fun
    | (.error f, p) => .done (.error (p.failed f), p)
    | (.ok c, p) => (work c).bind fun (r, c) => .done (r.mapError p.failed, p.release c)

def without (p : ConnectionPool) (h : Handle) : ConnectionPool :=
  { p with held := p.held.filter (·.1 != h) }

/-- Does something on the connection of a transaction. -/
def inside (p : ConnectionPool) (h : Handle) (work : Work α) : Doing α :=
  match p.held.lookup h with
  | none => .done (.error (.transactionDone p.name), p)
  | some c => (work c).bind fun (r, c) =>
    .done (r.mapError p.failed, { p.without h with held := (h, c) :: (p.without h).held })

def on (p : ConnectionPool) : Option Handle → Work α → Doing α
  | none => p.lend
  | some h => p.inside h

/-- Ends a transaction, whatever the server says to that. -/
def finish (p : ConnectionPool) (h : Handle) (sql : String) : Doing Unit :=
  match p.held.lookup h with
  | none => .done (.error (.transactionDone p.name), p)
  | some c => (c.tell sql).bind fun r => .done (r.mapError p.failed, (p.without h).release c)

def begin (p : ConnectionPool) (o : TransactionOptions) : Doing Handle :=
  p.acquire.bind fun
    | (.error f, p) => .done (.error (p.failed f), p)
    | (.ok c, p) => (c.tellAll (Connection.beginTexts o)).bind fun
      | .error f => .done (.error (p.failed f), p.release c)
      | .ok () => .done (.ok p.begun, { p with held := (p.begun, c) :: p.held, begun := p.begun + 1 })

/-- Executes a statement and reads what came of it. -/
def run (s : Statement) (read : Execution → Except String α) : Work α := fun c =>
  (c.execute s).bind fun (r, c) => .done (r.bind fun x => (read x).mapError .unreadable, c)

def answer (p : ConnectionPool) : (q : Call) → Dialogue server (q.Reply × ConnectionPool)
  | .begin o => p.begin o
  | .exec within s => p.on within (run s fun x => .ok x.toEffect)
  | .query within s => p.on within (run s (·.resultSet.read))
  | .queryRow within s => p.on within (run s (·.resultSet.readFirst))
  | .prepare within query => p.on within fun c =>
    (c.prepare query).bind fun (r, c) => .done (r.map fun shape => ⟨query, shape.columns⟩, c)
  | .commit h => p.finish h "COMMIT"
  | .rollback h => p.finish h "ROLLBACK"
  | .abandon h => (p.finish h "ROLLBACK").bind fun (_, p) => .done ((), p)

/-- The same with a server that keeps a state. -/
def serve (below : (q : server.Ask) → σ → server.Reply q × σ) (q : Call) (s : ConnectionPool × σ) :
    q.Reply × (ConnectionPool × σ) :=
  let ((a, p), lower) := (s.1.answer q).run (I := server) below s.2
  (a, (p, lower))

end ConnectionPool
end Cutover.Sql
