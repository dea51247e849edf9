import Cutover.Decimal.Shortest
import Cutover.Text.Name
import Cutover.Text.Utf8
import Cutover.Sql.Error

/-! Values that go into a statement or come out of a row, and rows: named values in the order of
the selection. A column is looked up by name and the first that matches counts. -/
namespace Cutover.Sql

inductive Value where
  | null
  | int (n : Int64)
  | uint (n : UInt64)
  | float (x : Float)
  | text (s : String)
  | bytes (b : List UInt8)
  deriving BEq, Inhabited

namespace Value

/-- The name of a value's kind in an error. -/
def kind : Value → String
  | .null => "NULL"
  | .int _ => "an integer"
  | .uint _ => "an unsigned integer"
  | .float _ => "a float"
  | .text _ => "text"
  | .bytes _ => "bytes"

def display : Value → String
  | .null => "NULL"
  | .int n => toString n.toInt
  | .uint n => toString n.toNat
  | .float x => Decimal.plain x
  | .text s => "'" ++ s ++ "'"
  | .bytes b => "<" ++ toString b.length ++ " bytes>"

/-- Truth values are kept as the integers one and zero. -/
def ofBool (b : Bool) : Value := .int (if b then 1 else 0)

/-- What is absent is null. -/
def ofOption (f : α → Value) : Option α → Value
  | none => .null
  | some a => f a

end Value

structure Column where
  name : String
  value : Value
  deriving BEq, Inhabited

abbrev Row := List Column

namespace Row

def get? (row : Row) (column : String) : Option Value :=
  (row.find? (Name.same ·.name column)).map (·.value)

def require (row : Row) (column : String) : Except Error Value :=
  match get? row column with
  | some v => .ok v
  | none => .error (.noSuchColumn column)

/-- A signed integer; an unsigned one will do if it is small enough. -/
def int64 (row : Row) (column : String) : Except Error Int64 :=
  match require row column with
  | .error e => .error e
  | .ok (.int n) => .ok n
  | .ok (.uint n) =>
    if n.toNat < 0x8000000000000000 then .ok (Int64.ofNat n.toNat)
    else .error (.columnType column "an integer" (Value.uint n).kind)
  | .ok other => .error (.columnType column "an integer" other.kind)

/-- A text; bytes will do if they spell one. -/
def string (row : Row) (column : String) : Except Error String :=
  match require row column with
  | .error e => .error e
  | .ok (.text s) => .ok s
  | .ok (.bytes b) =>
    match Utf8.decode b with
    | some s => .ok s
    | none => .error (.columnType column "text" "non-UTF-8 bytes")
  | .ok other => .error (.columnType column "text" other.kind)

def bytes (row : Row) (column : String) : Except Error (List UInt8) :=
  match require row column with
  | .error e => .error e
  | .ok (.bytes b) => .ok b
  | .ok (.text s) => .ok (Utf8.encode s)
  | .ok other => .error (.columnType column "bytes" other.kind)

end Row
end Cutover.Sql
