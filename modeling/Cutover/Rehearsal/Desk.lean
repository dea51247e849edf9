import Cutover.Rehearsal.Comparison

/-! The control plane on the stage: requests and operators' calls change the scheduler, and what it
orders is done. -/
namespace Cutover.Rehearsal.Desk

variable {X : Type}

/-- Comparisons are numbered anew in every set-up. -/
def sessionId (generation id : Nat) : Nat := generation * 0x100000000 + id

def obey (generation : Nat) : List Scheduler.Order → Play X Unit
  | [] => pure ()
  | .cancel id :: rest => do
    Script.change (·.cancel (sessionId generation id))
    obey generation rest
  | .launch session settings :: rest => do
    Comparison.launch (.begin (sessionId generation session.id) generation settings)
    obey generation rest

def running (w : World X) (id : Nat) : Bool := w.running (sessionId w.desk.generation id)

/-- The time of the rehearsal, in seconds since the epoch. -/
def present : Int64 := 0

def circumstances (w : World X) : Control.Circumstances := ⟨w.desk.verdict, present, running w⟩

/-- Does something at the control plane, and has done what it orders. -/
def make (operation : Control.Plane → Control.Circumstances → Control.Move α) : Play X α := do
  let w ← Script.world
  let m := operation w.desk.plane (circumstances w)
  Script.change fun w =>
    { w with desk := { w.desk with plane := m.plane }, metrics := m.count w.metrics }
  obey w.desk.generation m.orders
  return m.result

/-- The router is asked to switch. -/
def askRouter (pattern : Pattern) : Play X Unit :=
  Script.change fun w => { w with desk := w.desk.ask pattern }

def switch (pattern : Pattern) : Play X (Except SchedulerError Unit) := do
  askRouter pattern
  make (·.switch · pattern)

def startFull : Play X (Except SchedulerError Nat) := make (·.startFull ·)

def startIncremental (utime : Int64) (interval : Duration) : Play X (Except SchedulerError Nat) :=
  make (·.startIncremental · utime interval)

def stopFull : Play X Unit := make fun p _ => p.stopFull

def stopIncremental : Play X Unit := make fun p _ => p.stopIncremental

def shutDown : Play X Unit := make fun p _ => p.shutDown

def command (r : Control.Request) (c : Control.Command) : Play X Control.Response := do
  match c with
  | .switch pattern => askRouter pattern
  | _ => pure ()
  make (·.serve · r c)

/-- What comes of a request: a response, or a view of what has been counted. -/
inductive Reception where
  | response (r : Control.Response)
  | metrics (found : List (String × Nat))

def receive (r : Control.Request) : Play X Reception := do
  match Control.route r with
  | .command c => return .response (← command r c)
  | .healthcheck => return .response (Control.healthy r.method)
  | .metrics =>
    let w ← Script.world
    return .metrics (if r.method == "HEAD" then [] else w.metrics.exposition)
  | .notFound => return .response Control.notFound
  | .notAllowed allow => return .response (Control.notAllowed allow)
  | .badName => return .response Control.badName

/-- Gives a request its identifier. -/
def identify (given : Option String) : Play X String := Script.act fun w =>
  let (id, gate) := w.desk.gate.identify given
  (id, { w with desk := { w.desk with gate } })

end Cutover.Rehearsal.Desk
