import Cutover.Event
import Cutover.Metrics
import Cutover.Store.Request

/-! Repair of one record. The target is made to agree with the base whatever it holds: a record that
the base has is written over every column, one that the base lacks is deleted. The base is read
anew, so that a repair does not depend on what was wrong when it was asked for, and doing it twice
does no harm. -/
namespace Cutover

inductive RepairError where
  | introspect (store : String) (cause : StoreError)
  | read (store : String) (id : Int64) (cause : StoreError)
  | write (store : String) (id : Int64) (cause : StoreError)

def RepairError.message : RepairError → String
  | .introspect store cause =>
    "Failed to introspect the columns of " ++ store ++ ": " ++ cause.message
  | .read store id cause =>
    "Failed to read " ++ toString id.toInt ++ " from " ++ store ++ ": " ++ cause.message
  | .write store id cause =>
    "Failed to repair " ++ toString id.toInt ++ " in " ++ store ++ ": " ++ cause.message

namespace Repair

/-- What a repair did to the target. -/
inductive Done where
  | upserted
  | deleted (rows : Nat)
  deriving DecidableEq

abbrev Outcome := Except RepairError Done

abbrev Asking (α : Type) := Dialogue stores (Except RepairError α)

/-- The columns that repairs write, as the base reports them. -/
def introspect (base : Side) : Asking (List String) :=
  .ask (base, .columns) fun r => .done (r.mapError (.introspect base.name))

def upsert (target : Side) (columns : List String) (record : Interactive) : Asking Done :=
  .ask (target, .upsert record columns) fun
    | .ok () => .done (.ok .upserted)
    | .error cause => .done (.error (.write target.name record.id cause))

def delete (target : Side) (id : Int64) : Asking Done :=
  .ask (target, .delete id) fun
    | .ok rows => .done (.ok (.deleted rows))
    | .error cause => .done (.error (.write target.name id cause))

/-- Makes the record `id` of the other side agree with that of `base`. -/
def fix (base : Side) (columns : List String) (id : Int64) : Asking Done :=
  .ask (base, .byId id) fun
    | .ok (some record) => upsert base.other columns record
    | .ok none => delete base.other id
    | .error cause => .done (.error (.read base.name id cause))

/-- A repair that trusts an event which says that the base lacks the record. -/
def fixAs (base : Side) (columns : List String) (e : Event) : Asking Done :=
  match e.drift with
  | .neq | .targetMissing => fix base columns e.id
  | .baseMissing => delete base.other e.id

/-- Counts an outcome. -/
def count (target : Side) (outcome : Outcome) (m : Metrics) : Metrics :=
  match outcome with
  | .ok .upserted => m.add .fixerUpserts 1 [("target", target.name)]
  | .ok (.deleted rows) => m.add .fixerDeletes rows [("target", target.name)]
  | .error _ => m.add .fixerFailures 1 []

end Repair

/-- Repairs in both directions, each with the columns of its base. -/
structure Repairer where
  columns : Side → List String

namespace Repairer

/-- Both sides are asked for their columns, the source first. -/
def build : Repair.Asking Repairer :=
  (Repair.introspect .src).bind fun
    | .error e => .done (.error e)
    | .ok ofSrc => (Repair.introspect .dst).bind fun
      | .error e => .done (.error e)
      | .ok ofDst => .done (.ok ⟨fun
        | .src => ofSrc
        | .dst => ofDst⟩)

/-- What is done about an event: its direction says which side is right. -/
def handle (r : Repairer) (e : Event) : Repair.Asking Repair.Done :=
  Repair.fix e.direction (r.columns e.direction) e.id

end Repairer
end Cutover
