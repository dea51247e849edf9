import Cutover.Bus.Lease
import Cutover.Proofs.Sql.Reading

/-! How a database reads the statements about messages. The text falls into the same tokens as one about records;
what these are put together to is a table with its columns, a new row, a change of some rows, a selection or a
count. -/
namespace Cutover.Sql

/-- The values of a column: integers of a size in bits, octets or characters up to a number. -/
inductive Capacity where
  | integer (bits : Nat)
  | octets (most : Nat)
  | characters (most : Nat)
  deriving DecidableEq

structure Declaration where
  name : String
  capacity : Capacity
  nullable : Bool
  /-- Rows that come without a value are numbered. -/
  counted : Bool
  preset : Option Value

/-- What a column is set to: a value, or the value of a column and some more. -/
inductive Setting where
  | to (v : Value)
  | plus (column : String) (n : Int64)

inductive Test where
  | is (column : String) (v : Value)
  | below (column : String) (v : Value)

/-- What a statement about messages asks for. A change may be limited to the first rows by a column. -/
inductive Directive where
  | create (table : String) (columns : List Declaration) (key : String)
  | insert (table : String) (given : Row)
  | update (table : String) (settings : List (String × Setting)) (tests : List Test) (first : Option (String × Nat))
  | select (table : String) (columns : List String) (tests : List Test)
  | count (table : String) (name : String) (tests : List Test)

namespace Directive

open Sql.Token (name? value? several)

def digit? : Token → Option Nat
  | .stray c => if c.isDigit then some (c.toNat - '0'.toNat) else none
  | _ => none

/-- The number that begins with some digits, and what comes after. -/
def number (n : Nat) : List Token → Nat × List Token
  | [] => (n, [])
  | t :: rest =>
    match digit? t with
    | some d => number (10 * n + d) rest
    | none => (n, t :: rest)

def operand : Token → Option Value
  | .value v => some v
  | .word "NULL" => some .null
  | t => (digit? t).map fun d => .int (Int64.ofNat d)

def test : Token → Token → Token → Option Test
  | .name c, .equal, t => (operand t).map (.is c)
  | .name c, .stray '<', t => (operand t).map (.below c)
  | _, _, _ => none

/-- Tests that all have to be passed, and what comes after. -/
def tests : List Token → Option (List Test × List Token)
  | column :: sign :: value :: .word "AND" :: rest => do
    let first ← test column sign value
    let (others, rest) ← tests rest
    return (first :: others, rest)
  | column :: sign :: value :: rest => (test column sign value).map fun first => ([first], rest)
  | _ => none

def settings : List Token → Option (List (String × Setting) × List Token)
  | .name c :: .equal :: .name d :: .stray '+' :: n :: .comma :: rest => do
    let n ← digit? n
    let (others, rest) ← settings rest
    return ((c, .plus d (Int64.ofNat n)) :: others, rest)
  | .name c :: .equal :: .name d :: .stray '+' :: n :: rest =>
    (digit? n).map fun n => ([(c, .plus d (Int64.ofNat n))], rest)
  | .name c :: .equal :: t :: .comma :: rest => do
    let v ← operand t
    let (others, rest) ← settings rest
    return ((c, .to v) :: others, rest)
  | .name c :: .equal :: t :: rest => (operand t).map fun v => ([(c, .to v)], rest)
  | _ => none

def first : List Token → Option (Option (String × Nat))
  | [] => some none
  | .word "ORDER" :: .word "BY" :: .name c :: .word "LIMIT" :: rest =>
    match number 0 rest with
    | (n, []) => some (some (c, n))
    | _ => none
  | _ => none

def change (table : String) (tokens : List Token) : Option Directive := do
  match ← settings tokens with
  | (settings, .word "WHERE" :: rest) =>
    let (tests, rest) ← tests rest
    return .update table settings tests (← first rest)
  | _ => none

/-- The table that is named, the tests for its rows, and nothing more. -/
def source : List Token → Option (String × List Test)
  | .word "FROM" :: .name table :: .word "WHERE" :: rest => do
    match ← tests rest with
    | (tests, []) => return (table, tests)
    | _ => none
  | _ => none

def selection (tokens : List Token) : Option Directive := do
  let (columns, rest) ← several name? tokens
  let (table, tests) ← source rest
  return .select table columns tests

def insertion (table : String) (tokens : List Token) : Option Directive := do
  match ← several name? tokens with
  | (columns, .closing :: .word "VALUES" :: .opening :: rest) =>
    match ← several value? rest with
    | (values, [.closing]) =>
      if columns.length = values.length then return .insert table (List.zipWith Column.mk columns values) else none
    | _ => none
  | _ => none

/-- What stands in brackets, cut at the commas that stand in no further ones, line breaks left out. -/
def clauses (depth : Nat) : List Token → Option (List (List Token))
  | [] => none
  | .stray '\n' :: rest => clauses depth rest
  | .comma :: rest => do
    match depth, ← clauses depth rest with
    | 0, parts => return [] :: parts
    | _, part :: parts => return (.comma :: part) :: parts
    | _, [] => none
  | .closing :: rest => do
    match depth, rest with
    | 0, [] => return [[]]
    | 0, _ :: _ => none
    | depth + 1, rest =>
      match ← clauses depth rest with
      | part :: parts => return (.closing :: part) :: parts
      | [] => none
  | t :: rest => do
    let deeper := match t with | .opening => depth + 1 | _ => depth
    match ← clauses deeper rest with
    | part :: parts => return (t :: part) :: parts
    | [] => none

def capacity : List Token → Option (Capacity × List Token)
  | .word "BIGINT" :: rest => some (.integer 64, rest)
  | .word "INT" :: rest => some (.integer 32, rest)
  | .word "TINYINT" :: rest => some (.integer 8, rest)
  | .word "VARBINARY" :: .opening :: rest =>
    match number 0 rest with
    | (most, .closing :: rest) => some (.octets most, rest)
    | _ => none
  | .word "CHAR" :: .opening :: rest =>
    match number 0 rest with
    | (most, .closing :: rest) => some (.characters most, rest)
    | _ => none
  | _ => none

def declaration (name : String) (tokens : List Token) : Option Declaration := do
  let (capacity, rest) ← capacity tokens
  match rest with
  | [.word "NULL"] => return ⟨name, capacity, true, false, none⟩
  | [.word "NOT", .word "NULL"] => return ⟨name, capacity, false, false, none⟩
  | [.word "NOT", .word "NULL", .word "AUTO", .stray '_', .word "INCREMENT"] =>
    return ⟨name, capacity, false, true, none⟩
  | [.word "NOT", .word "NULL", .word "DEFAULT", t] => return ⟨name, capacity, false, false, some (← operand t)⟩
  | _ => none

/-- The columns that are declared, then the key, then indexes, which are of no account. -/
def scheme : List (List Token) → Option (List Declaration × String)
  | [.word "PRIMARY", .word "KEY", .opening, .name key, .closing] :: indexes =>
    if indexes.all fun | .word "KEY" :: _ => true | _ => false then some ([], key) else none
  | (.name column :: rest) :: others => do
    let declared ← declaration column rest
    let (columns, key) ← scheme others
    return (declared :: columns, key)
  | _ => none

def creation (table : String) (tokens : List Token) : Option Directive := do
  let (columns, key) ← scheme (← clauses 0 tokens)
  return .create table columns key

def ofTokens : List Token → Option Directive
  | .word "CREATE" :: .word "TABLE" :: .word "IF" :: .word "NOT" :: .word "EXISTS" :: .name table :: .opening :: rest =>
    creation table rest
  | .word "INSERT" :: .word "INTO" :: .name table :: .opening :: rest => insertion table rest
  | .word "UPDATE" :: .name table :: .word "SET" :: rest => change table rest
  | .word "SELECT" :: .word "COUNT" :: .opening :: .stray '*' :: .closing :: .word "AS" :: .name n :: rest =>
    (source rest).map fun (table, tests) => .count table n tests
  | .word "SELECT" :: rest => selection rest
  | _ => none

end Directive

/-- What a statement asks for, if it is one of those about messages. -/
def Statement.directive (s : Statement) : Option Directive :=
  match Token.scan .outside s.text.toList with
  | (tokens, .outside) => (Token.fill tokens s.args).bind Directive.ofTokens
  | _ => none

theorem Token.Reads.directive {text : String} {args : List Value} {parts : List Token}
    (reads : Token.Reads text args parts) : Statement.directive ⟨text, args⟩ = Directive.ofTokens parts := by
  obtain ⟨tokens, scanned, filled⟩ := reads
  simp [Statement.directive, scanned, filled]

end Cutover.Sql

namespace Cutover.LeaseQuery

open Cutover.Sql (Directive Declaration Token Unquoted quoted)
open Cutover.Sql.Token (Reads reads_quoted)

/-- The columns of a table of messages. -/
def columns : List Declaration :=
  [⟨"id", .integer 64, false, true, none⟩, ⟨"payload", .octets 1024, false, false, none⟩,
    ⟨"created", .integer 64, false, false, none⟩, ⟨"lease_owner", .characters 36, true, false, none⟩,
    ⟨"lease_expires", .integer 64, false, false, some (.int 0)⟩, ⟨"attempts", .integer 32, false, false, some (.int 0)⟩,
    ⟨"done", .integer 8, false, false, some (.int 0)⟩]

/-- What a statement of the protocol is to ask for. -/
def directive (table : String) : LeaseQuery → Directive
  | .create => .create table columns "id"
  | .outstanding => .count table "n" [.is "done" (.int 0)]
  | .insert payload created => .insert table [⟨"payload", .bytes payload⟩, ⟨"created", .int created⟩]
  | .claim owner expires now =>
    .update table
      [("lease_owner", .to (.text owner)), ("lease_expires", .to (.int expires)), ("attempts", .plus "attempts" 1)]
      [.is "done" (.int 0), .below "lease_expires" (.int now)] (some ("id", 1))
  | .claimed owner =>
    .select table ["id", "payload", "attempts"] [.is "lease_owner" (.text owner), .is "done" (.int 0)]
  | .finish id owner =>
    .update table [("done", .to (.int 1))] [.is "id" (.int id), .is "lease_owner" (.text owner)] none
  | .release retryAt id owner =>
    .update table [("lease_owner", .to .null), ("lease_expires", .to (.int retryAt))]
      [.is "id" (.int id), .is "lease_owner" (.text owner)] none

variable {table : String}

/-- Text about a table: what stands before its name, the name, and what stands after it. -/
theorem reads_about {before after : String} {args : List Sql.Value} {front back : List Token}
    (unquoted : Unquoted table) (first : Reads before [] front) (second : Reads after args back) :
    Reads (before ++ quoted table ++ after) args (front ++ .name table :: back) := by
  have whole := (first.append (reads_quoted unquoted)).append second
  rwa [List.nil_append, List.append_assoc] at whole

/-- What stands behind the name of a table that is to be created, line by line. -/
theorem reads_scheme : ∃ tokens, Reads " (
  `id` BIGINT NOT NULL AUTO_INCREMENT,
  `payload` VARBINARY(1024) NOT NULL,
  `created` BIGINT NOT NULL,
  `lease_owner` CHAR(36) NULL,
  `lease_expires` BIGINT NOT NULL DEFAULT 0,
  `attempts` INT NOT NULL DEFAULT 0,
  `done` TINYINT NOT NULL DEFAULT 0,
  PRIMARY KEY (`id`),
  KEY `idx_pending` (`done`, `lease_expires`)
)" [] (.opening :: tokens) ∧ Directive.creation table tokens = some (directive table .create) := by
  have id : Reads " (\n  `id` BIGINT NOT NULL AUTO_INCREMENT," []
      [.opening, .stray '\n', .name "id", .word "BIGINT", .word "NOT", .word "NULL", .word "AUTO", .stray '_',
        .word "INCREMENT", .comma] := ⟨_, rfl, rfl⟩
  have payload : Reads "\n  `payload` VARBINARY(1024) NOT NULL," []
      [.stray '\n', .name "payload", .word "VARBINARY", .opening, .stray '1', .stray '0', .stray '2', .stray '4',
        .closing, .word "NOT", .word "NULL", .comma] := ⟨_, rfl, rfl⟩
  have created : Reads "\n  `created` BIGINT NOT NULL," []
      [.stray '\n', .name "created", .word "BIGINT", .word "NOT", .word "NULL", .comma] := ⟨_, rfl, rfl⟩
  have owner : Reads "\n  `lease_owner` CHAR(36) NULL," []
      [.stray '\n', .name "lease_owner", .word "CHAR", .opening, .stray '3', .stray '6', .closing, .word "NULL",
        .comma] := ⟨_, rfl, rfl⟩
  have expires : Reads "\n  `lease_expires` BIGINT NOT NULL DEFAULT 0," []
      [.stray '\n', .name "lease_expires", .word "BIGINT", .word "NOT", .word "NULL", .word "DEFAULT", .stray '0',
        .comma] := ⟨_, rfl, rfl⟩
  have attempts : Reads "\n  `attempts` INT NOT NULL DEFAULT 0," []
      [.stray '\n', .name "attempts", .word "INT", .word "NOT", .word "NULL", .word "DEFAULT", .stray '0', .comma] :=
    ⟨_, rfl, rfl⟩
  have done : Reads "\n  `done` TINYINT NOT NULL DEFAULT 0," []
      [.stray '\n', .name "done", .word "TINYINT", .word "NOT", .word "NULL", .word "DEFAULT", .stray '0', .comma] :=
    ⟨_, rfl, rfl⟩
  have key : Reads "\n  PRIMARY KEY (`id`)," []
      [.stray '\n', .word "PRIMARY", .word "KEY", .opening, .name "id", .closing, .comma] := ⟨_, rfl, rfl⟩
  have index : Reads "\n  KEY `idx_pending` (`done`, `lease_expires`)\n)" []
      [.stray '\n', .word "KEY", .name "idx_pending", .opening, .name "done", .comma, .name "lease_expires", .closing,
        .stray '\n', .closing] := ⟨_, rfl, rfl⟩
  have whole := id.append (payload.append (created.append (owner.append (expires.append (attempts.append
    (done.append (key.append index)))))))
  simp only [String.reduceAppend] at whole
  exact ⟨_, whole, rfl⟩

/-- A statement of the protocol asks for what it is to ask for. -/
theorem directive_statement (unquoted : Unquoted table) (q : LeaseQuery) :
    (statement table q).directive = some (directive table q) := by
  have update : Reads "UPDATE " [] [.word "UPDATE"] := ⟨_, rfl, rfl⟩
  cases q with
  | create =>
    have create : Reads "CREATE TABLE IF NOT EXISTS " []
        [.word "CREATE", .word "TABLE", .word "IF", .word "NOT", .word "EXISTS"] := ⟨_, rfl, rfl⟩
    obtain ⟨tokens, scheme, asks⟩ := @reads_scheme table
    exact (reads_about unquoted create scheme).directive.trans asks
  | outstanding =>
    have count : Reads "SELECT COUNT(*) AS `n` FROM " []
        [.word "SELECT", .word "COUNT", .opening, .stray '*', .closing, .word "AS", .name "n", .word "FROM"] :=
      ⟨_, rfl, rfl⟩
    have pending : Reads " WHERE `done` = 0" [] [.word "WHERE", .name "done", .equal, .stray '0'] := ⟨_, rfl, rfl⟩
    exact (reads_about unquoted count pending).directive
  | insert payload created =>
    have insert : Reads "INSERT INTO " [] [.word "INSERT", .word "INTO"] := ⟨_, rfl, rfl⟩
    have values : Reads " (`payload`, `created`) VALUES (?, ?)" [.bytes payload, .int created]
        [.opening, .name "payload", .comma, .name "created", .closing, .word "VALUES", .opening,
          .value (.bytes payload), .comma, .value (.int created), .closing] := ⟨_, rfl, rfl⟩
    exact (reads_about unquoted insert values).directive
  | claim owner expires now =>
    have lease : Reads " SET `lease_owner` = ?, `lease_expires` = ?, " [.text owner, .int expires]
        [.word "SET", .name "lease_owner", .equal, .value (.text owner), .comma, .name "lease_expires", .equal,
          .value (.int expires), .comma] := ⟨_, rfl, rfl⟩
    have count : Reads "`attempts` = `attempts` + 1 " []
        [.name "attempts", .equal, .name "attempts", .stray '+', .stray '1'] := ⟨_, rfl, rfl⟩
    have free : Reads "WHERE `done` = 0 AND `lease_expires` < ? ORDER BY `id` LIMIT 1" [.int now]
        [.word "WHERE", .name "done", .equal, .stray '0', .word "AND", .name "lease_expires", .stray '<',
          .value (.int now), .word "ORDER", .word "BY", .name "id", .word "LIMIT", .stray '1'] := ⟨_, rfl, rfl⟩
    exact (((reads_about unquoted update lease).append count).append free).directive
  | claimed owner =>
    have select : Reads "SELECT `id`, `payload`, `attempts` FROM " []
        [.word "SELECT", .name "id", .comma, .name "payload", .comma, .name "attempts", .word "FROM"] := ⟨_, rfl, rfl⟩
    have held : Reads " WHERE `lease_owner` = ? AND `done` = 0" [.text owner]
        [.word "WHERE", .name "lease_owner", .equal, .value (.text owner), .word "AND", .name "done", .equal,
          .stray '0'] := ⟨_, rfl, rfl⟩
    exact (reads_about unquoted select held).directive
  | finish id owner =>
    have close : Reads " SET `done` = 1 WHERE `id` = ? AND `lease_owner` = ?" [.int id, .text owner]
        [.word "SET", .name "done", .equal, .stray '1', .word "WHERE", .name "id", .equal, .value (.int id),
          .word "AND", .name "lease_owner", .equal, .value (.text owner)] := ⟨_, rfl, rfl⟩
    exact (reads_about unquoted update close).directive
  | release retryAt id owner =>
    have free : Reads " SET `lease_owner` = NULL, `lease_expires` = ? " [.int retryAt]
        [.word "SET", .name "lease_owner", .equal, .word "NULL", .comma, .name "lease_expires", .equal,
          .value (.int retryAt)] := ⟨_, rfl, rfl⟩
    have held : Reads "WHERE `id` = ? AND `lease_owner` = ?" [.int id, .text owner]
        [.word "WHERE", .name "id", .equal, .value (.int id), .word "AND", .name "lease_owner", .equal,
          .value (.text owner)] := ⟨_, rfl, rfl⟩
    exact ((reads_about unquoted update free).append held).directive

end Cutover.LeaseQuery
