import Cutover.Sql.Query
import Cutover.Store.Request

/-! A store in a database. Each request takes one query, or none when it can be answered without,
and a reading of the answer. -/
namespace Cutover.Store.Sql

open Cutover.Sql (Row Query Select Filter Page Upsert)

def decode (read : Row → Except Sql.Error β) (row : Row) : Except StoreError β :=
  (read row).mapError (.decode Interactive.table)

def entities (rows : List Row) : Except StoreError (List Interactive) :=
  rows.mapM (decode Interactive.ofRow)

def keys (rows : List Row) : Except StoreError (List Int64) :=
  rows.mapM (decode (Sql.Row.int64 · "id"))

/-- The names of the columns; a table without any is not there. -/
def names (store : String) (rows : List Row) : Except StoreError (List String) := do
  match ← rows.mapM (decode (Sql.Row.string · "COLUMN_NAME")) with
  | [] => .error (.noColumns store Interactive.table)
  | found => .ok found

def select (filter : Filter) (order : List String) (page : Option Page) : Select :=
  ⟨Interactive.columns, Interactive.table, filter, order, page⟩

/-- The columns to write: those the record has, in the order and spelling they are asked for. -/
def upsertOf (record : Interactive) (columns : List String) : Upsert :=
  ⟨Interactive.table, columns.filterMap fun c => (Sql.Row.get? record.toRow c).map (⟨c, ·⟩)⟩

/-- What a store makes of an answer. -/
def reading (store : String) (read : γ → Except StoreError β) (answer : Except Sql.Error γ) :
    Except StoreError β :=
  match answer with
  | .error cause => .error (.sql store cause)
  | .ok found => read found

/-- Selects rows and reads them. -/
def load (store : String) (s : Select) (read : List Row → Except StoreError β) :
    Dialogue Sql.records (Except StoreError β) :=
  .ask (.select s) fun r => .done (reading store read r)

def perform (store : String) : (q : Request) → Dialogue Sql.records (Result q)
  | .columns => .ask (.introspect Interactive.table) fun r => .done (reading store (names store) r)
  | .orderedById offset limit => load store (select .all ["id"] (some ⟨limit, offset⟩)) entities
  | .updatedSince utime offset limit =>
    load store (select (.above Interactive.utimeColumn utime) [Interactive.utimeColumn, "id"]
      (some ⟨limit, offset⟩)) entities
  | .byIds [] => .done (.ok [])
  | .byIds (id :: ids) => load store (select (.among (id :: ids)) [] none) entities
  | .presentIds [] => .done (.ok [])
  | .presentIds (id :: ids) =>
    load store ⟨["id"], Interactive.table, .among (id :: ids), [], none⟩ keys
  | .byId id => .ask (.selectFirst (select (.only id) [] none)) fun r =>
    .done (reading store (fun
      | none => .ok none
      | some row => (decode Interactive.ofRow row).map some) r)
  | .upsert record columns => .ask (.upsert (upsertOf record columns)) fun r =>
    .done (reading store (fun _ => .ok ()) r)
  | .delete id => .ask (.delete Interactive.table id) fun r =>
    .done (reading store (.ok ·.affected.toNat) r)

/-- The same over a pool of connections. -/
def performOn (store : String) (q : Request) : Dialogue Sql.pool (Result q) :=
  (perform store q).via Query.send

end Cutover.Store.Sql
