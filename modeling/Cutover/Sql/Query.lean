import Cutover.Sql.Pool

/-! The statements that are made of one table of records keyed by `id`. What such a statement means
is in its parts; its text is for the database. -/
namespace Cutover.Sql

/-- Which rows a selection takes. -/
inductive Filter where
  | all
  /-- Those whose column lies strictly above a bound. -/
  | above (column : String) (bound : Int64)
  | among (ids : List Int64)
  | only (id : Int64)
  deriving DecidableEq

/-- A window into the ordered rows. -/
structure Page where
  limit : Nat
  offset : Nat
  deriving DecidableEq

structure Select where
  columns : List String
  table : String
  filter : Filter
  order : List String
  page : Option Page
  deriving DecidableEq

namespace Select

def filterText : Filter → String
  | .all => ""
  | .above column _ => " WHERE " ++ quoted column ++ " > ?"
  | .among ids => " WHERE `id` IN (" ++ placeholders ids.length ++ ")"
  | .only _ => " WHERE `id` = ?"

def orderText : List String → String
  | [] => ""
  | columns => " ORDER BY " ++ ", ".intercalate (columns.map quoted)

def pageText : Option Page → String
  | none => ""
  | some _ => " LIMIT ? OFFSET ?"

def filterArgs : Filter → List Value
  | .all => []
  | .above _ bound => [.int bound]
  | .among ids => ids.map .int
  | .only id => [.int id]

def pageArgs : Option Page → List Value
  | none => []
  | some p => [.uint (UInt64.ofNat p.limit), .uint (UInt64.ofNat p.offset)]

def statement (s : Select) : Statement where
  text := "SELECT " ++ ", ".intercalate (s.columns.map quoted) ++ " FROM " ++ quoted s.table ++
    filterText s.filter ++ orderText s.order ++ pageText s.page
  args := filterArgs s.filter ++ pageArgs s.page

end Select

/-- A row to be inserted, or its columns but the key to overwrite those of the row with its key. -/
structure Upsert where
  table : String
  columns : Row

namespace Upsert

def updates (u : Upsert) : List String := (u.columns.map (·.name)).filter (!Name.same · "id")

/-- When there is nothing to overwrite, an assignment without effect stands in. -/
def updateText (u : Upsert) : String :=
  match u.updates with
  | [] => "`id` = `id`"
  | names => ", ".intercalate (names.map fun c => quoted c ++ " = VALUES(" ++ quoted c ++ ")")

def statement (u : Upsert) : Statement where
  text := "INSERT INTO " ++ quoted u.table ++ " (" ++
    ", ".intercalate (u.columns.map (quoted ·.name)) ++ ") VALUES (" ++
    placeholders u.columns.length ++ ") ON DUPLICATE KEY UPDATE " ++ u.updateText
  args := u.columns.map (·.value)

end Upsert

inductive Query where
  /-- Asks the database itself for a table's columns. -/
  | introspect (table : String)
  | select (s : Select)
  | selectFirst (s : Select)
  | upsert (u : Upsert)
  | delete (table : String) (id : Int64)

namespace Query

def statement : Query → Statement
  | .introspect table =>
    { text := "SELECT COLUMN_NAME FROM information_schema.COLUMNS " ++
        "WHERE TABLE_SCHEMA = DATABASE() AND TABLE_NAME = ? ORDER BY ORDINAL_POSITION"
      args := [.text table] }
  | .select s | .selectFirst s => s.statement
  | .upsert u => u.statement
  | .delete table id =>
    { text := "DELETE FROM " ++ quoted table ++ " WHERE `id` = ?", args := [.int id] }

@[reducible] def Reply : Query → Type
  | .introspect _ | .select _ => Except Error (List Row)
  | .selectFirst _ => Except Error (Option Row)
  | .upsert _ | .delete .. => Except Error Effect

/-- How a query is put to a pool. -/
def send : (q : Query) → Dialogue pool q.Reply
  | .introspect table => .call (I := pool) (.query none (statement (.introspect table)))
  | .select s => .call (I := pool) (.query none s.statement)
  | .selectFirst s => .call (I := pool) (.queryRow none s.statement)
  | .upsert u => .call (I := pool) (.exec none u.statement)
  | .delete table id => .call (I := pool) (.exec none (statement (.delete table id)))

end Query

/-- A database that holds the table. -/
def records : Interface := ⟨Query, Query.Reply⟩

end Cutover.Sql
