import Cutover.Json.Spelling

/-! Records of named fields. A record is written as an object or, its fields in order, as an array.
In an object the fields may stand in any order, other members are passed over, and no field may be
given twice. -/
namespace Cutover.Json

/-- Whether a field may be missing. An optional one may be missing from an object only, one with a
default from the end of an array as well. -/
inductive Presence where
  | required
  | optional
  | defaulted
  deriving DecidableEq

structure Field where
  name : String
  presence : Presence

/-- The one member of a name, if there is one; two are an error. -/
def unique (name : String) (members : List (String × Raw)) : Option (Option Raw) :=
  match members.filter (·.1 == name) with
  | [] => some none
  | [(_, value)] => some (some value)
  | _ => none

def fromObject (members : List (String × Raw)) : List Field → Option (List (Option Raw))
  | [] => some []
  | field :: fields => do
    let found ← unique field.name members
    if found.isNone ∧ field.presence = .required then none
    else return found :: (← fromObject members fields)

def fromArray : List Raw → List Field → Option (List (Option Raw))
  | [], [] => some []
  | [], field :: fields => if field.presence = .defaulted then (fromArray [] fields).map (none :: ·) else none
  | _ :: _, [] => none
  | item :: items, _ :: fields => (fromArray items fields).map (some item :: ·)

def decodeKeys : List (Octets × Raw) → Option (List (String × Raw))
  | [] => some []
  | (key, value) :: rest => do return (← textOf key, value) :: (← decodeKeys rest)

/-- The written forms of the fields, in order. -/
def record (fields : List Field) : Raw → Option (List (Option Raw))
  | .object members => do fromObject (← decodeKeys members) fields
  | .array items => fromArray items fields
  | _ => none

def string? : Raw → Option String
  | .string body => textOf body
  | _ => none

def bool? : Raw → Option Bool
  | .bool b => some b
  | _ => none

def int? : Raw → Option Int
  | .number spelling => intOf spelling
  | _ => none

def int64? (r : Raw) : Option Int64 :=
  (int? r).bind fun n => if -0x8000000000000000 ≤ n ∧ n < 0x8000000000000000 then some (Int64.ofInt n) else none

def uint64? (r : Raw) : Option UInt64 :=
  (int? r).bind fun n => if 0 ≤ n ∧ n < 0x10000000000000000 then some (UInt64.ofNat n.toNat) else none

def int32? (r : Raw) : Option Int32 :=
  (int? r).bind fun n => if -0x80000000 ≤ n ∧ n < 0x80000000 then some (Int32.ofInt n) else none

/-- One of a set of names: a string, or an object whose one member has the name and is null. -/
def choice? : Raw → Option String
  | .string body => textOf body
  | .object [(key, .null)] => textOf key
  | _ => none

/-- What is missing or null is none. -/
def option? (read : Raw → Option α) : Option Raw → Option (Option α)
  | none | some .null => some none
  | some r => (read r).map some

end Cutover.Json
