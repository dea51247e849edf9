import Cutover.Control
import Cutover.Scheduler

/-! The control plane at work: the scheduler, and the pattern of the router that it governs. Every
operation is told how the router would take a switch, and says what became of the plane, what others
are to do and what is to be counted. -/
namespace Cutover.Control

structure Plane where
  scheduler : Scheduler
  /-- The pattern that the router has. -/
  router : Pattern
  tuning : Validation.Tuning

/-- What an operation finds when it is carried out. -/
structure Circumstances where
  /-- What the router says to a switch; one that refuses keeps the pattern it has. -/
  verdict : Pattern → Except Sql.Error Unit
  /-- Seconds since the epoch. -/
  now : Int64
  running : Nat → Bool

/-- What came of an operation. -/
structure Move (α : Type) where
  result : α
  plane : Plane
  orders : List Scheduler.Order
  /-- What is counted. -/
  count : Metrics → Metrics

def Move.map (f : α → β) (m : Move α) : Move β := ⟨f m.result, m.plane, m.orders, m.count⟩

namespace Plane

/-- A plane adopts the pattern that the router has. -/
def adopt (pattern : Pattern) (tuning : Validation.Tuning) : Plane := ⟨.start pattern, pattern, tuning⟩

/-- An operation that changes nothing. -/
def still (p : Plane) (result : α) : Move α := ⟨result, p, [], id⟩

def switch (p : Plane) (c : Circumstances) (pattern : Pattern) : Move (Except SchedulerError Unit) :=
  match p.scheduler.switch pattern (c.verdict pattern) with
  | (.ok (), scheduler) =>
    ⟨.ok (), { p with scheduler, router := pattern }, [], Scheduler.countSwitch pattern⟩
  | (.error e, scheduler) => ⟨.error e, { p with scheduler }, [], id⟩

/-- A comparison has been started, or it has not. -/
def launched (p : Plane) (kind : SessionKind) :
    Except SchedulerError Nat × Scheduler × List Scheduler.Order → Move (Except SchedulerError Nat)
  | (.ok number, scheduler, orders) =>
    ⟨.ok number, { p with scheduler }, orders, Scheduler.countLaunch kind⟩
  | (.error e, scheduler, orders) => ⟨.error e, { p with scheduler }, orders, id⟩

def startFull (p : Plane) (c : Circumstances) : Move (Except SchedulerError Nat) :=
  p.launched .full (p.scheduler.startFull p.tuning c.now)

def startIncremental (p : Plane) (c : Circumstances) (utime : Int64) (interval : Duration) :
    Move (Except SchedulerError Nat) :=
  p.launched .incremental (p.scheduler.startIncremental p.tuning c.now utime interval)

def stopFull (p : Plane) : Move Unit := ⟨(), p, p.scheduler.stopFull, id⟩

def stopIncremental (p : Plane) : Move Unit := ⟨(), p, p.scheduler.stopIncremental, id⟩

def shutDown (p : Plane) : Move Unit :=
  let (scheduler, orders) := p.scheduler.shutDown
  ⟨(), { p with scheduler }, orders, id⟩

def status (p : Plane) (c : Circumstances) : Status := p.scheduler.status c.running

/-- The answer that tells whether an operation was carried out. -/
def told (refusal : Answer) (r : Except SchedulerError α) : Answer :=
  match r with
  | .ok _ => .ok
  | .error _ => refusal

/-- Carries out a command. -/
def perform (p : Plane) (c : Circumstances) : Command → Move Answer
  | .switch pattern => (p.switch c pattern).map (told .notOk)
  | .unknownPattern name => p.still (.unknownPattern name)
  | .startFull => (p.startFull c).map (told .systemFail)
  | .stopFull => p.stopFull.map fun () => .ok
  | .startIncremental none => p.still .systemError
  | .startIncremental (some start) =>
    (p.startIncremental c start.utime (.ofMillis start.interval.toInt.toNat)).map (told .systemFail)
  | .stopIncremental => p.stopIncremental.map fun () => .ok
  | .status => p.still (.okWith (p.status c).toJson)

/-- Carries out a command and answers the request that it came with. -/
def serve (p : Plane) (c : Circumstances) (r : Request) (command : Command) : Move Response :=
  (p.perform c command).map (respond r.method)

end Plane
end Cutover.Control
