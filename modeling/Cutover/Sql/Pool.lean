import Cutover.Dialogue
import Cutover.Sql.Statement

/-! What a pool of connections to one database can be asked for, on its own or within an open
transaction. -/
namespace Cutover.Sql

/-- Tells the open transactions of a pool apart. -/
abbrev Handle := Nat

structure Prepared where
  query : String
  columns : List String

inductive Call where
  | begin (options : TransactionOptions)
  /-- A statement without rows; `within` names the transaction, if any. -/
  | exec (within : Option Handle) (statement : Statement)
  | query (within : Option Handle) (statement : Statement)
  /-- A query whose first row alone is wanted. -/
  | queryRow (within : Option Handle) (statement : Statement)
  | prepare (within : Option Handle) (query : String)
  | commit (within : Handle)
  | rollback (within : Handle)
  /-- Gives a transaction up; it is rolled back in its own time. -/
  | abandon (within : Handle)

namespace Call

@[reducible] def Reply : Call → Type
  | .begin _ => Except Error Handle
  | .exec .. => Except Error Effect
  | .query .. => Except Error (List Row)
  | .queryRow .. => Except Error (Option Row)
  | .prepare .. => Except Error Prepared
  | .commit _ | .rollback _ => Except Error Unit
  | .abandon _ => Unit

end Call

def pool : Interface := ⟨Call, Call.Reply⟩

end Cutover.Sql
