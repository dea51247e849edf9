import Cutover.Answer
import Cutover.Validation.Pass

/-! The operator's hold on a migration: the pattern in force, and at most one full and one
incremental comparison. A comparison takes the side that is primary when it is started for the
truth; starting one calls off the one before it of the same kind. -/
namespace Cutover

inductive SessionKind where
  | full
  | incremental
  deriving DecidableEq

def SessionKind.name : SessionKind → String
  | .full => "full"
  | .incremental => "incremental"

/-- A comparison that was started. -/
structure Launch where
  id : Nat
  kind : SessionKind
  direction : Side
  /-- Seconds since the epoch. -/
  started : Int64
  deriving DecidableEq

inductive SchedulerError where
  | propagate (pattern prior : Pattern) (cause : Sql.Error)
  | shutDown

def SchedulerError.message : SchedulerError → String
  | .propagate pattern prior cause =>
    "Failed to switch to " ++ pattern.name ++ "; still on " ++ prior.name ++ ": " ++ cause.message
  | .shutDown => "The scheduler has been shut down"

structure Scheduler where
  pattern : Pattern
  full : Option Launch
  incr : Option Launch
  /-- How many comparisons were started. -/
  launched : Nat
  closed : Bool
  deriving DecidableEq

namespace Scheduler

/-- What the scheduler has others do. -/
inductive Order where
  /-- Calls a comparison off. -/
  | cancel (id : Nat)
  | launch (session : Launch) (settings : Validation.Settings)

/-- A scheduler adopts the pattern that the router has. -/
def start (pattern : Pattern) : Scheduler := ⟨pattern, none, none, 0, false⟩

instance : Inhabited Scheduler := ⟨start .srcOnly⟩

/-- Switches the pattern, if the router follows; `verdict` is what it said. -/
def switch (s : Scheduler) (pattern : Pattern) (verdict : Except Sql.Error Unit) :
    Except SchedulerError Unit × Scheduler :=
  match verdict with
  | .ok () => (.ok (), { s with pattern })
  | .error cause => (.error (.propagate pattern s.pattern cause), s)

def cancelling : Option Launch → List Order
  | none => []
  | some l => [.cancel l.id]

def settings (s : Scheduler) (t : Validation.Tuning) : Validation.Settings :=
  .whole s.pattern.primary t

/-- The next comparison of a kind. -/
def next (s : Scheduler) (kind : SessionKind) (started : Int64) : Launch :=
  ⟨s.launched + 1, kind, s.pattern.primary, started⟩

def startFull (s : Scheduler) (t : Validation.Tuning) (now : Int64) :
    Except SchedulerError Nat × Scheduler × List Order :=
  if s.closed then (.error .shutDown, s, [])
  else
    let l := s.next .full now
    (.ok l.id, { s with full := some l, launched := s.launched + 1 },
      cancelling s.full ++ [.launch l (s.settings t)])

def startIncremental (s : Scheduler) (t : Validation.Tuning) (now utime : Int64) (interval : Duration) :
    Except SchedulerError Nat × Scheduler × List Order :=
  if s.closed then (.error .shutDown, s, [])
  else
    let l := s.next .incremental now
    (.ok l.id, { s with incr := some l, launched := s.launched + 1 },
      cancelling s.incr ++ [.launch l { s.settings t with mode := .incremental, utime, interval }])

def stopFull (s : Scheduler) : List Order := cancelling s.full

def stopIncremental (s : Scheduler) : List Order := cancelling s.incr

/-- Calls both comparisons off and starts none any more. -/
def shutDown (s : Scheduler) : Scheduler × List Order :=
  ({ s with closed := true }, cancelling s.full ++ cancelling s.incr)

def report (running : Nat → Bool) (l : Launch) : SessionReport :=
  ⟨UInt64.ofNat l.id, l.direction.label, l.started, running l.id⟩

/-- The state as the operator sees it; `running` tells which comparisons have not ended. -/
def status (s : Scheduler) (running : Nat → Bool) : Status :=
  ⟨s.pattern, s.full.map (report running), s.incr.map (report running)⟩

def countSwitch (p : Pattern) (m : Metrics) : Metrics := m.add .patternSwitches 1 [("pattern", p.name)]

def countLaunch (kind : SessionKind) (m : Metrics) : Metrics :=
  m.add .sessionsStarted 1 [("kind", kind.name)]

end Scheduler
end Cutover
