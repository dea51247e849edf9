import Cutover.Control.Plane
import Cutover.Proofs.Bus.Carrier
import Cutover.Proofs.Repair.Handling
import Cutover.Proofs.Validation.Course

/-! A migration in operation: the control plane, the comparisons it has started, the queue of events,
the handlers that repair what the events name, and the tables, which the application goes on changing.
Any part may move next. A log keeps what was started, published and written, and what the pattern in
force was. -/
namespace Cutover.Control

open Repair Validation

/-- A comparison that was started. -/
structure Sitting where
  id : Nat
  settings : Settings
  course : Course
  calledOff : Bool

inductive Entry where
  | launched (id : Nat) (pattern : Pattern)
  | published (id : Nat) (e : Event)
  /-- A repair has changed a store, under the pattern then in force. -/
  | wrote (side : Side) (e : Event) (pattern : Pattern)
  deriving DecidableEq

structure Operation (k : Carrier) where
  plane : Plane
  sittings : List Sitting
  bus : k.State
  bench : Bench
  log : List Entry

namespace Operation

variable {k : Carrier}

inductive Step (k : Carrier) where
  | command (c : Circumstances) (command : Command)
  | shutDown
  /-- Something happens to a comparison. An event whose publication is reported to have failed may be in
  the queue nevertheless. -/
  | progress (i : Nat) (m : Course.Move) (stamp : k.Stamp) (stray : Bool)
  /-- Something is done with the queue. If it hands an event out, the event gets a handler. -/
  | tend (a : k.Act)
  | answered (i : Nat)
  | failed (i : Nat) (cause : StoreError) (performed : Bool)
  /-- The application changes a store. -/
  | edit (side : Side) (table : Table)

/-- Carries out what the control plane orders. -/
def obey (x : Operation k) : Scheduler.Order → Operation k
  | .cancel id => { x with
      sittings := x.sittings.map fun s => if s.id = id then { s with calledOff := true } else s }
  | .launch l settings => { x with
      sittings := x.sittings ++ [⟨l.id, settings, .start, false⟩]
      log := x.log ++ [.launched l.id x.plane.router] }

/-- The store that a handler is about to change, and the event for which it does. -/
def write? (b : Bench) (i : Nat) : Option (Side × Event) :=
  match b.handlings[i]? with
  | some ⟨e, .ask q _⟩ => if q.2.reads then none else some (q.1, e)
  | _ => none

def writes (x : Operation k) (i : Nat) : List Entry :=
  (write? x.bench i).toList.map fun (side, e) => .wrote side e x.plane.router

/-- A handler goes on. -/
def handle (r : Repairer) (x : Operation k) (turn : Turn) (written : List Entry) : Option (Operation k) :=
  (x.bench.advance r turn).map fun bench => { x with bench, log := x.log ++ written }

/-- Something happens to a comparison; it sees that it was called off only after it was. -/
def proceed (x : Operation k) (i : Nat) (m : Course.Move) (stamp : k.Stamp) (stray : Bool) :
    Option (Operation k) :=
  match x.sittings[i]? with
  | none => none
  | some s =>
    let arriving := if stray then m.2.attempted else m.2.news
    if m.2 matches .calledOff ∧ ¬s.calledOff then none
    else (s.course.advance s.settings x.bench.tables m).map fun course => { x with
      sittings := x.sittings.set i { s with course }
      bus := arriving.foldl (fun b e => k.produce stamp e b) x.bus
      log := x.log ++ arriving.map (.published s.id) }

/-- A message that carries no event gets no handler. -/
def tend (r : Repairer) (x : Operation k) (a : k.Act) : Option (Operation k) :=
  let (message, bus) := k.act a x.bus
  match message.bind Event.decode with
  | none => some { x with bus }
  | some e => handle r { x with bus } (.begin e) []

def advance (r : Repairer) (x : Operation k) : Step k → Option (Operation k)
  | .command c command =>
    let m := x.plane.perform c command
    some (m.orders.foldl obey { x with plane := m.plane })
  | .shutDown =>
    let m := x.plane.shutDown
    some (m.orders.foldl obey { x with plane := m.plane })
  | .progress i m stamp stray => x.proceed i m stamp stray
  | .tend a => x.tend r a
  | .answered i => x.handle r (.answered i) (x.writes i)
  | .failed i cause performed =>
    x.handle r (.failed i cause performed) (if performed then x.writes i else [])
  | .edit side table =>
    some { x with bench := { x.bench with tables := Function.update x.bench.tables side table } }

def follow (r : Repairer) : Operation k → List (Step k) → Option (Operation k)
  | x, [] => some x
  | x, step :: rest => (x.advance r step).bind fun x => x.follow r rest

theorem follows {r : Repairer} : Follows (advance r) (follow (k := k) r) :=
  ⟨fun _ => rfl, fun _ _ _ => rfl⟩

/-- Nothing has been started yet. -/
def start (pattern : Pattern) (tuning : Tuning) (tables : Tables) : Operation k :=
  ⟨.adopt pattern tuning, [], k.empty, ⟨tables, []⟩, []⟩

end Operation
end Cutover.Control
