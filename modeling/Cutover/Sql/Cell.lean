import Cutover.Sql.Value

/-! What a server sends in a column of its answer: cells, whose meaning depends on the type that was
declared for the column. -/
namespace Cutover.Sql

/-- A cell as it travels. -/
inductive Cell where
  | null
  | integer (n : Int)
  | real (x : Float)
  | octets (b : List UInt8)

/-- What a declared type makes of its cells. -/
inductive Domain where
  | signed
  | unsigned
  | single
  | double
  | binary
  /-- Points in time; one without any field counts as null. -/
  | moment
  /-- Whatever travels as text; octets that spell none stay octets. -/
  | textual
  /-- Types whose cells cannot be read unless they are null. -/
  | unreadable
  deriving DecidableEq

namespace Domain

/-- Reads a type's name, which may say that the numbers are unsigned. -/
def ofName (name : String) : Domain :=
  let words := (name.toList.splitOn ' ').map String.ofList
  let unsigned := words.contains "UNSIGNED"
  match words.headD "" with
  | "TINYINT" | "SMALLINT" | "MEDIUMINT" | "INT" | "BIGINT" => if unsigned then .unsigned else .signed
  | "BOOLEAN" => if unsigned then .unreadable else .signed
  | "YEAR" => .unreadable
  | "FLOAT" => .single
  | "DOUBLE" => .double
  | "BINARY" | "VARBINARY" | "TINYBLOB" | "BLOB" | "MEDIUMBLOB" | "LONGBLOB" | "BIT" | "GEOMETRY" => .binary
  | "DATE" | "DATETIME" | "TIMESTAMP" => .moment
  | _ => .textual

end Domain

/-- A text if the octets spell one. -/
def Value.ofOctets (b : List UInt8) : Value := ((Utf8.decode b).map .text).getD (.bytes b)

namespace Cell

/-- The value that a cell stands for, if it can be read at all. -/
def read? (domain : Domain) : Cell → Option Value
  | .null => some .null
  | .integer n =>
    match domain with
    | .signed => some (.int (Int64.ofInt n))
    | .unsigned => some (.uint (UInt64.ofInt n))
    | _ => none
  | .real x =>
    match domain with
    | .single => some (.float x.toFloat32.toFloat)
    | .double => some (.float x)
    | _ => none
  | .octets b =>
    match domain with
    | .binary => some (.bytes b)
    | .moment => some (if b.head? = some 0 then .null else .ofOctets b)
    | .textual => some (.ofOctets b)
    | _ => none

end Cell

/-- The columns of an answer, and its rows. -/
structure ResultSet where
  columns : List (String × Domain)
  rows : List (List Cell)

namespace ResultSet

/-- One row by the names of its columns; the first column that cannot be read is told. -/
def readRow (columns : List (String × Domain)) (cells : List Cell) : Except String Row :=
  (columns.zip cells).mapM fun ((name, domain), cell) =>
    match cell.read? domain with
    | some value => .ok ⟨name, value⟩
    | none => .error name

def read (s : ResultSet) : Except String (List Row) := s.rows.mapM (readRow s.columns)

/-- The first row alone; what is wrong with the others does not matter. -/
def readFirst (s : ResultSet) : Except String (Option Row) :=
  match s.rows with
  | [] => .ok none
  | cells :: _ => (readRow s.columns cells).map some

end ResultSet
end Cutover.Sql
