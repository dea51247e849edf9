import Cutover.Pattern

/-! What can go wrong between a statement and its answer, and how each is worded. -/
namespace Cutover.Sql

inductive Error where
  /-- The database refused or could not be reached; `cause` is its own account. -/
  | backend (pool cause : String)
  | columnType (column expected actual : String)
  | noSuchColumn (column : String)
  | pattern (cause : PatternError)
  | prepareUnsupported (pool : String)
  | transactionDone (pool : String)

namespace Error

def message : Error → String
  | .backend pool cause => pool ++ ": " ++ cause
  | .columnType column expected actual =>
    "Column " ++ column ++ " holds " ++ actual ++ "; expected " ++ expected
  | .noSuchColumn column => "No column named " ++ column
  | .pattern cause => "Bad dual-write pattern: " ++ cause.message
  | .prepareUnsupported pool => pool ++ " doesn't support prepared statements; " ++
      "statement caching across two connections is unsafe"
  | .transactionDone pool =>
    pool ++ ": this transaction has already been committed or rolled back"

end Error
end Cutover.Sql
