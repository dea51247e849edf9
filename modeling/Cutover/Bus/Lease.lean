import Cutover.Event
import Cutover.Sql.Pool

/-! A queue of messages in a table, for any number of consumers. A consumer claims a row by writing
a token of its own and a time of expiry over a row that is neither done nor leased, and reads back
the row that carries its token. Success marks the row done; failure takes the lease back and leaves
the time of the next try. A lease that nobody settles expires. Times are milliseconds by the clock
of the consumer. -/
namespace Cutover

structure Lease where
  id : Int64
  owner : String
  /-- Deliveries so far, this one included. -/
  attempts : Nat
  deriving DecidableEq

/-- The statements of the protocol. -/
inductive LeaseQuery where
  | create
  | outstanding
  | insert (payload : List UInt8) (created : Int64)
  | claim (owner : String) (expires now : Int64)
  | claimed (owner : String)
  | finish (id : Int64) (owner : String)
  | release (retryAt id : Int64) (owner : String)
  deriving DecidableEq

namespace LeaseQuery

open Sql (quoted Statement)

def createText (table : String) : String :=
  "CREATE TABLE IF NOT EXISTS " ++ quoted table ++ " (
  `id` BIGINT NOT NULL AUTO_INCREMENT,
  `payload` VARBINARY(1024) NOT NULL,
  `created` BIGINT NOT NULL,
  `lease_owner` CHAR(36) NULL,
  `lease_expires` BIGINT NOT NULL DEFAULT 0,
  `attempts` INT NOT NULL DEFAULT 0,
  `done` TINYINT NOT NULL DEFAULT 0,
  PRIMARY KEY (`id`),
  KEY `idx_pending` (`done`, `lease_expires`)
)"

def statement (table : String) : LeaseQuery → Statement
  | .create => ⟨createText table, []⟩
  | .outstanding => ⟨"SELECT COUNT(*) AS `n` FROM " ++ quoted table ++ " WHERE `done` = 0", []⟩
  | .insert payload created =>
    ⟨"INSERT INTO " ++ quoted table ++ " (`payload`, `created`) VALUES (?, ?)",
      [.bytes payload, .int created]⟩
  | .claim owner expires now =>
    ⟨"UPDATE " ++ quoted table ++ " SET `lease_owner` = ?, `lease_expires` = ?, " ++
        "`attempts` = `attempts` + 1 " ++
        "WHERE `done` = 0 AND `lease_expires` < ? ORDER BY `id` LIMIT 1",
      [.text owner, .int expires, .int now]⟩
  | .claimed owner =>
    ⟨"SELECT `id`, `payload`, `attempts` FROM " ++ quoted table ++
        " WHERE `lease_owner` = ? AND `done` = 0", [.text owner]⟩
  | .finish id owner =>
    ⟨"UPDATE " ++ quoted table ++ " SET `done` = 1 WHERE `id` = ? AND `lease_owner` = ?",
      [.int id, .text owner]⟩
  | .release retryAt id owner =>
    ⟨"UPDATE " ++ quoted table ++ " SET `lease_owner` = NULL, `lease_expires` = ? " ++
        "WHERE `id` = ? AND `lease_owner` = ?", [.int retryAt, .int id, .text owner]⟩

@[reducible] def Reply : LeaseQuery → Type
  | .outstanding | .claimed _ => Except Sql.Error (Option Sql.Row)
  | _ => Except Sql.Error Sql.Effect

/-- How a statement is put to a pool. -/
def send (table : String) : (q : LeaseQuery) → Dialogue Sql.pool q.Reply
  | .create => .call (I := Sql.pool) (.exec none (statement table .create))
  | .outstanding => .call (I := Sql.pool) (.queryRow none (statement table .outstanding))
  | .insert payload created => .call (I := Sql.pool) (.exec none (statement table (.insert payload created)))
  | .claim owner expires now => .call (I := Sql.pool) (.exec none (statement table (.claim owner expires now)))
  | .claimed owner => .call (I := Sql.pool) (.queryRow none (statement table (.claimed owner)))
  | .finish id owner => .call (I := Sql.pool) (.exec none (statement table (.finish id owner)))
  | .release retryAt id owner =>
    .call (I := Sql.pool) (.exec none (statement table (.release retryAt id owner)))

end LeaseQuery

/-- A database that holds the table of messages. -/
def leases : Interface := ⟨LeaseQuery, LeaseQuery.Reply⟩

/-- A queue: its table, and how long a consumer may keep a message. -/
structure LeaseQueue where
  table : String
  lease : Duration

namespace LeaseQueue

def defaultTable : String := "migrator_events"

abbrev Asking (α : Type) := Dialogue leases (Except EventError α)

def failed (q : LeaseQueue) (cause : Sql.Error) : EventError := .queue q.table cause

/-- Sends a statement that answers nothing. -/
def tell (q : LeaseQueue) (answer : Except Sql.Error Sql.Effect) : Except EventError Unit :=
  match answer with
  | .error e => .error (q.failed e)
  | .ok _ => .ok ()

def create (q : LeaseQueue) : Asking Unit := .ask .create fun r => .done (q.tell r)

def outstanding (q : LeaseQueue) : Asking Int64 :=
  .ask .outstanding fun
    | .error e => .done (.error (q.failed e))
    | .ok none => .done (.ok 0)
    | .ok (some row) => .done ((Sql.Row.int64 row "n").mapError q.failed)

def publish (q : LeaseQueue) (now : Int64) (payload : List UInt8) : Asking Unit :=
  .ask (.insert payload now) fun r => .done (q.tell r)

def produce (q : LeaseQueue) (now : Int64) (e : Event) : Asking Unit := q.publish now e.encode

/-- When a lease taken now expires. -/
def expiry (q : LeaseQueue) (now : Int64) : Int64 := now + q.lease.millisWord

/-- A count of deliveries that does not fit counts as the greatest. -/
def attemptsOf (n : Int64) : Nat :=
  if 0 ≤ n.toInt ∧ n.toInt < 0x100000000 then n.toInt.toNat else 0xffffffff

def leaseOf (owner : String) (row : Sql.Row) : Except Sql.Error (List UInt8 × Lease) := do
  let id ← Sql.Row.int64 row "id"
  let payload ← Sql.Row.bytes row "payload"
  let attempts ← Sql.Row.int64 row "attempts"
  return (payload, ⟨id, owner, attemptsOf attempts⟩)

/-- Claims a row for `owner` and reads it back. When no row is free, or the lease was lost before it
could be read, there is nothing to take. -/
def take (q : LeaseQueue) (now : Int64) (owner : String) : Asking (Option (List UInt8 × Lease)) :=
  .ask (.claim owner (q.expiry now) now) fun
    | .error e => .done (.error (q.failed e))
    | .ok effect =>
      if effect.affected = 0 then .done (.ok none)
      else .ask (.claimed owner) fun
        | .error e => .done (.error (q.failed e))
        | .ok none => .done (.ok none)
        | .ok (some row) => .done (((leaseOf owner row).mapError q.failed).map some)

def ack (q : LeaseQueue) (l : Lease) : Asking Unit :=
  .ask (.finish l.id l.owner) fun r => .done (q.tell r)

/-- When a released message may be tried again. -/
def retryAt (now : Int64) (r : Redelivery) (attempts : Nat) : Int64 :=
  now + (r.delay attempts).millisWord

def nack (q : LeaseQueue) (now : Int64) (l : Lease) (r : Redelivery) : Asking Unit :=
  .ask (.release (retryAt now r l.attempts) l.id l.owner) fun answer => .done (q.tell answer)

end LeaseQueue
end Cutover
