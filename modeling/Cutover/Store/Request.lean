import Cutover.Dialogue
import Cutover.Duration
import Cutover.Interactive

/-! What may be asked of a store of records: batches for comparisons, single rows for repairs. -/
namespace Cutover

/-- Why a store did not answer. -/
inductive StoreError where
  | decode (table : String) (cause : Sql.Error)
  | noColumns (store table : String)
  | sql (store : String) (cause : Sql.Error)
  | timeout (store : String) (elapsed : Duration)
  | unavailable (store : String)

namespace StoreError

def message : StoreError → String
  | .decode table cause => "Failed to decode a row of " ++ table ++ ": " ++ cause.message
  | .noColumns store table => "Table " ++ table ++ " has no columns in " ++ store
  | .sql store cause => store ++ ": " ++ cause.message
  | .timeout store elapsed => store ++ " timed out after " ++ elapsed.text
  | .unavailable store => store ++ " is unavailable"

/-- Whether the same request may succeed later. -/
def transient : StoreError → Bool
  | .sql .. | .timeout .. | .unavailable _ => true
  | .decode .. | .noColumns .. => false

end StoreError

namespace Store

inductive Request where
  /-- The columns of the table, as the store knows them. -/
  | columns
  | orderedById (offset limit : Nat)
  /-- Records updated strictly after `utime`, in the order of their update. -/
  | updatedSince (utime : Int64) (offset limit : Nat)
  /-- Those of the records that are there, in no particular order. -/
  | byIds (ids : List Int64)
  /-- The same, and the keys alone. -/
  | presentIds (ids : List Int64)
  | byId (id : Int64)
  /-- Inserts a record, or overwrites the named columns of the one with its key. -/
  | upsert (record : Interactive) (columns : List String)
  /-- Answered by the number of rows removed. -/
  | delete (id : Int64)
  deriving Inhabited

namespace Request

@[reducible] def Answer : Request → Type
  | .columns => List String
  | .orderedById .. | .updatedSince .. | .byIds _ => List Interactive
  | .presentIds _ => List Int64
  | .byId _ => Option Interactive
  | .upsert .. => Unit
  | .delete _ => Nat

/-- Whether a request changes nothing. -/
def reads : Request → Bool
  | .upsert .. | .delete _ => false
  | _ => true

end Request

abbrev Result (q : Request) := Except StoreError q.Answer

end Store

/-- The two stores of a migration. -/
def stores : Interface := ⟨Side × Store.Request, fun q => Store.Result q.2⟩

end Cutover
