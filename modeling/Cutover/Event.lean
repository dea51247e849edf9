import Cutover.Duration
import Cutover.Json.Record
import Cutover.Json.Value
import Cutover.Pattern
import Cutover.Sql.Error

/-! Inconsistencies found by a comparison: one event names one record, the direction of the
comparison and what is wrong. -/
namespace Cutover

inductive Drift where
  /-- In both, and different. -/
  | neq
  /-- In the base alone. -/
  | targetMissing
  /-- In the target alone. -/
  | baseMissing
  deriving DecidableEq, Inhabited

namespace Drift

def all : List Drift := [.neq, .targetMissing, .baseMissing]

def name : Drift → String
  | .neq => "neq"
  | .targetMissing => "target_missing"
  | .baseMissing => "base_missing"

def ofName? (text : String) : Option Drift := all.find? (·.name == text)

end Drift

def Side.ofLabel? (text : String) : Option Side := Side.all.find? (·.label == text)

structure Event where
  id : Int64
  /-- The side taken for the truth. -/
  direction : Side
  drift : Drift
  deriving DecidableEq, Inhabited

namespace Event

def display (e : Event) : String :=
  e.direction.label ++ ":" ++ e.drift.name ++ ":" ++ toString e.id.toInt

def toJson (e : Event) : Json :=
  .object [("id", .int e.id.toInt), ("direction", .string e.direction.label),
    ("type", .string e.drift.name)]

/-- The message that carries an event. -/
def encode (e : Event) : List UInt8 := Utf8.encode e.toJson.text

def fields : List Json.Field := [⟨"id", .required⟩, ⟨"direction", .required⟩, ⟨"type", .required⟩]

def ofJson (r : Json.Raw) : Option Event := do
  match ← Json.record fields r with
  | [some id, some direction, some drift] =>
    return ⟨← Json.int64? id, ← (Json.choice? direction).bind Side.ofLabel?,
      ← (Json.choice? drift).bind Drift.ofName?⟩
  | _ => none

/-- The event of a message; a message that is none will never become one. -/
def decode (message : List UInt8) : Option Event := (Json.Raw.read message).bind ofJson

end Event

/-- How long a message that failed is held back: `min` after the first failure, twice as long after
each further one, and never longer than `max`. -/
structure Redelivery where
  min : Duration
  max : Duration
  deriving DecidableEq

namespace Redelivery

def immediate : Redelivery := ⟨.zero, .zero⟩

/-- The doubling stops where the factor would leave a word of 32 bits. -/
def factor (attempts : Nat) : Nat := Nat.pow 2 (Nat.min (attempts - 1) 31)

/-- The delay that follows the failure of delivery number `attempts`, counted from one. -/
def delay (r : Redelivery) (attempts : Nat) : Duration := (r.min.times (factor attempts)).lesser r.max

end Redelivery

/-- What can go wrong on the way of an event. -/
inductive EventError where
  | handler (cause : String)
  | decode
  | publishTimeout (id : Int64) (elapsed : Duration)
  | shutdownTimeout
  | queue (name : String) (cause : Sql.Error)
  | unknownTask

def EventError.message : EventError → String
  | .handler cause => cause
  | .decode => "Failed to deserialize an inconsistency event"
  | .publishTimeout id elapsed =>
    "Timed-out publishing event " ++ toString id.toInt ++ " after " ++ elapsed.text
  | .shutdownTimeout => "Timeout shutting-down the event processor: deadline has elapsed"
  | .queue name cause => "Event queue " ++ name ++ ": " ++ cause.message
  | .unknownTask => "Tried to settle an unknown task"

end Cutover
