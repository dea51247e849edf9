import Cutover.Dialogue

/-! Scripts: pieces of work that take time. A script looks at a shared world and alters it in one
go, and in between it may wait for a point in time or for the world to change. It may have other
jobs started and called off; what a job does is said elsewhere, by another script. Times are
milliseconds of one clock. -/
namespace Cutover.Rehearsal

inductive Script (W J α : Type) where
  | done (result : α)
  /-- Sees the clock and the world. -/
  | look (next : Nat → W → Script W J α)
  | alter (f : W → W) (next : Script W J α)
  /-- Goes on at `wake`, if that is given, or as soon as the world is `ready`. -/
  | pause (wake : Option Nat) (ready : W → Bool) (next : Script W J α)
  | spawn (job : J) (next : Script W J α)
  /-- Calls off every job that fits. -/
  | dismiss (which : J → Bool) (next : Script W J α)

/-- How a script under a deadline ended. -/
inductive Guarded (α : Type) where
  | finished (result : α)
  | stopped
  | timedOut

namespace Script

variable {W J α β : Type} {I : Interface}

protected def bind (f : α → Script W J β) : Script W J α → Script W J β
  | .done a => f a
  | .look next => .look fun now w => (next now w).bind f
  | .alter g next => .alter g (next.bind f)
  | .pause wake ready next => .pause wake ready (next.bind f)
  | .spawn job next => .spawn job (next.bind f)
  | .dismiss which next => .dismiss which (next.bind f)

instance : Monad (Script W J) where
  pure := .done
  bind s f := s.bind f

def now : Script W J Nat := .look fun now _ => .done now

def world : Script W J W := .look fun _ w => .done w

def change (f : W → W) : Script W J Unit := .alter f (.done ())

/-- Looks at the world and alters it at once. -/
def act (f : W → α × W) : Script W J α :=
  .look fun _ w => .alter (fun _ => (f w).2) (.done (f w).1)

/-- The same, with a view of the clock. -/
def actAt (f : Nat → W → α × W) : Script W J α :=
  .look fun now w => .alter (fun _ => (f now w).2) (.done (f now w).1)

/-- Lets time pass. -/
def rest (ms : Nat) : Script W J Unit :=
  .look fun now _ => .pause (some (now + ms)) (fun _ => false) (.done ())

def waitFor (ready : W → Bool) : Script W J Unit := .pause none ready (.done ())

/-- Waits for the world to change, but no longer than `ms`. -/
def waitAtMost (ms : Nat) (ready : W → Bool) : Script W J Unit :=
  .look fun now _ => .pause (some (now + ms)) ready (.done ())

def start (job : J) : Script W J Unit := .spawn job (.done ())

def callOff (which : J → Bool) : Script W J Unit := .dismiss which (.done ())

/-- The earlier of a deadline and a point in time. -/
def sooner (deadline : Option Nat) : Option Nat → Option Nat
  | none => deadline
  | some t => match deadline with
    | none => some t
    | some d => some (min t d)

/-- Runs a script until a deadline passes or the world says `stop`. When its own time has come it
goes on, even if the deadline is the same. -/
def within (deadline : Option Nat) (stop : W → Bool) : Script W J α → Script W J (Guarded α)
  | .done a => .done (.finished a)
  | .look next => .look fun now w => (next now w).within deadline stop
  | .alter f next => .alter f (next.within deadline stop)
  | .spawn job next => .spawn job (next.within deadline stop)
  | .dismiss which next => .dismiss which (next.within deadline stop)
  | .pause wake ready next =>
    .pause (sooner deadline wake) (fun w => ready w || stop w) <| .look fun now w =>
      if stop w then .done .stopped
      else if ready w || wake.any (· ≤ now) then next.within deadline stop
      else .done .timedOut

/-- Has the questions of a dialogue answered by scripts. -/
def play (answer : (q : I.Ask) → Script W J (I.Reply q)) : Dialogue I α → Script W J α
  | .done a => .done a
  | .ask q next => (answer q).bind fun r => play answer (next r)

end Script
end Cutover.Rehearsal
