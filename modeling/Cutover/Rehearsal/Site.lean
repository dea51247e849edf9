import Cutover.Store.Table

/-! A store held in memory that can be slow, or fail on demand. It keeps the log of the requests made
of it. -/
namespace Cutover.Rehearsal

/-- A value for each side, one of them replaced. -/
def put (side : Side) (a : α) (f : Side → α) : Side → α := fun s => if s = side then a else f s

/-- What a store can be asked for. -/
inductive Method where
  | columns
  | orderedById
  | updatedSince
  | byIds
  | presentIds
  | byId
  | upsert
  | delete
  deriving DecidableEq

namespace Method

def all : List Method :=
  [.columns, .orderedById, .updatedSince, .byIds, .presentIds, .byId, .upsert, .delete]

def name : Method → String
  | .columns => "columns"
  | .orderedById => "find_ordered_by_id"
  | .updatedSince => "find_updated_since"
  | .byIds => "find_by_ids"
  | .presentIds => "find_ids"
  | .byId => "find_by_id"
  | .upsert => "upsert"
  | .delete => "delete"

def ofName? (text : String) : Option Method := all.find? (·.name == text)

end Method

def methodOf : Store.Request → Method
  | .columns => .columns
  | .orderedById .. => .orderedById
  | .updatedSince .. => .updatedSince
  | .byIds _ => .byIds
  | .presentIds _ => .presentIds
  | .byId _ => .byId
  | .upsert .. => .upsert
  | .delete _ => .delete

inductive Mishap where
  | unavailable
  | sql
  | decode
  | noColumns
  deriving DecidableEq

/-- What becomes of the requests of a method whose numbers, counted from zero, are in a range. -/
structure Rule where
  method : Method
  first : Nat
  /-- The first number beyond the range. -/
  last : Option Nat
  delay : Nat
  mishap : Option Mishap

def Rule.covers (r : Rule) (method : Method) (number : Nat) : Bool :=
  r.method = method && r.first ≤ number && r.last.all (number < ·)

/-- A request that was made. -/
structure Visit where
  time : Nat
  request : Store.Request

/-- A store in memory. -/
structure Site where
  name : String
  table : Table
  failing : Bool
  latency : Nat
  reads : Nat
  writes : Nat
  rules : List Rule
  log : List Visit

namespace Site

def ofTable (name : String) (table : Table) (rules : List Rule) : Site :=
  ⟨name, table, false, 0, 0, 0, rules, []⟩

instance : Inhabited Site := ⟨ofTable "" .empty []⟩

/-- How many requests of a method were made. -/
def count (s : Site) (method : Method) : Nat := (s.log.filter fun v => methodOf v.request = method).length

def rule? (s : Site) (method : Method) : Option Rule := s.rules.find? (·.covers method (s.count method))

def failWith (s : Site) : Mishap → StoreError
  | .unavailable => .unavailable s.name
  | .sql => .sql s.name (.backend s.name "injected failure")
  | .decode => .decode Interactive.table (.noSuchColumn "biz")
  | .noColumns => .noColumns s.name Interactive.table

def tally (s : Site) (q : Store.Request) : Site :=
  if q.reads then { s with reads := s.reads + 1 } else { s with writes := s.writes + 1 }

/-- Answers a request whose time has come. -/
def answer (s : Site) (q : Store.Request) : Store.Result q × Site :=
  if s.failing then (.error (.unavailable s.name), s)
  else
    let (r, table) := s.table.perform q
    (r, { s with table })

end Site

end Cutover.Rehearsal
