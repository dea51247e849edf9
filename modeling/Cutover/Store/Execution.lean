import Cutover.Sql.Query
import Cutover.Store.Table

/-! What a database makes of the queries of a record table, by the standard meaning of their parts:
a selection filters, orders, takes a window and keeps the columns asked for; an upsert inserts a row
or overwrites named columns of the one with its key; a deletion removes a row by its key. -/
namespace Cutover.Table

open Sql (Row Value Filter Select Upsert Query)

/-- The rows of the table, in the order of the keys. -/
def toRows (t : Table) : List Row := t.rows.map (·.toRow)

def keyOf (row : Row) (column : String) : Option Int64 :=
  match Sql.Row.get? row column with
  | some (.int n) => some n
  | _ => none

def passes (row : Row) : Filter → Bool
  | .all => true
  | .above column bound => (keyOf row column).any (bound < ·)
  | .among ids => (keyOf row "id").any (ids.contains ·)
  | .only id => keyOf row "id" == some id

/-- Whether one row may stand before another, by the first of the columns in which they differ. -/
def before : List String → Row → Row → Bool
  | [], _, _ => true
  | column :: rest, a, b =>
    match keyOf a column, keyOf b column with
    | some x, some y => x < y || x == y && before rest a b
    | _, _ => before rest a b

def window (page : Option Sql.Page) (rows : List Row) : List Row :=
  match page with
  | none => rows
  | some p => (rows.drop p.offset).take p.limit

def project (columns : List String) (row : Row) : Row :=
  columns.filterMap fun c => (Sql.Row.get? row c).map (⟨c, ·⟩)

def select (t : Table) (s : Select) : List Row :=
  let found := t.toRows.filter (passes · s.filter)
  let ordered := if s.order.isEmpty then found else found.mergeSort (before s.order)
  (window s.page ordered).map (project s.columns)

/-- What a column of a new row holds when it is not given a value. -/
def blank : Interactive := default

/-- Overwrites the columns that are given a value; a later value counts. -/
def assign (given : Row) (row : Row) : Row :=
  given.foldl (fun row c => row.map fun d => if Name.same c.name d.name then ⟨d.name, c.value⟩ else d) row

def executeUpsert (t : Table) (u : Upsert) : Except Sql.Error Sql.Effect × Table :=
  match Interactive.ofRow (assign u.columns blank.toRow) with
  | .error e => (.error e, t)
  | .ok incoming =>
    match t.get? incoming.id with
    | none => (.ok ⟨1, none⟩, t.put incoming)
    | some current =>
      let given := u.columns.filter fun c => !Name.same c.name "id"
      match Interactive.ofRow (assign given current.toRow) with
      | .error e => (.error e, t)
      | .ok updated => (.ok ⟨if updated = current then 0 else 2, none⟩, t.put updated)

def columnRows : List Row := Interactive.columns.map fun c => [⟨"COLUMN_NAME", .text c⟩]

def execute (t : Table) : (q : Query) → q.Reply × Table
  | .introspect table => (.ok (if table = Interactive.table then columnRows else []), t)
  | .select s => (.ok (t.select s), t)
  | .selectFirst s => (.ok (t.select s).head?, t)
  | .upsert u => t.executeUpsert u
  | .delete _ id => (.ok ⟨if (t.get? id).isSome then 1 else 0, none⟩, t.erase id)

end Cutover.Table
