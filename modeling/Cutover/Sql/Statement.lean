import Cutover.Sql.Value

/-! Statements with positional arguments, and what a pool of connections answers to them. -/
namespace Cutover.Sql

structure Statement where
  text : String
  args : List Value
  deriving BEq, Inhabited

/-- The outcome of a statement without rows. -/
structure Effect where
  affected : UInt64
  lastInsertId : Option UInt64
  deriving BEq, Inhabited

inductive Isolation where
  | readUncommitted
  | readCommitted
  | repeatableRead
  | serializable
  deriving DecidableEq

namespace Isolation

def all : List Isolation := [.readUncommitted, .readCommitted, .repeatableRead, .serializable]

def sql : Isolation → String
  | .readUncommitted => "READ UNCOMMITTED"
  | .readCommitted => "READ COMMITTED"
  | .repeatableRead => "REPEATABLE READ"
  | .serializable => "SERIALIZABLE"

end Isolation

/-- How a transaction wants to run; no isolation level means the server's own. -/
structure TransactionOptions where
  isolation : Option Isolation
  readOnly : Bool
  deriving DecidableEq

def placeholders (n : Nat) : String := ", ".intercalate (List.replicate n "?")

/-- A name in the quotes that make any name one identifier. -/
def quoted (name : String) : String := "`" ++ name ++ "`"

end Cutover.Sql
