import Cutover.Control.Plane

/-! What the control plane orders. It keeps to the pattern of the router, and every comparison that it
starts takes the next number, and the side that is primary by then for the truth. -/
namespace Cutover.Control

open Validation

/-- The orders start nothing. -/
def CallsOff (orders : List Scheduler.Order) : Prop := ∀ o ∈ orders, ∃ id, o = .cancel id

theorem callsOff_nil : CallsOff [] := by simp [CallsOff]

theorem callsOff_cancelling (o : Option Launch) : CallsOff (Scheduler.cancelling o) := by
  cases o <;> simp [CallsOff, Scheduler.cancelling]

theorem CallsOff.append {first second : List Scheduler.Order} (left : CallsOff first)
    (right : CallsOff second) : CallsOff (first ++ second) := by
  intro o member
  rcases List.mem_append.1 member with here | there
  · exact left o here
  · exact right o there

namespace Plane

variable {p : Plane}

/-- The scheduler knows the pattern that the router has. -/
def Agreed (p : Plane) : Prop := p.scheduler.pattern = p.router

/-- What an operation can come to. -/
inductive Outcome (p : Plane) : Plane → List Scheduler.Order → Prop where
  /-- Nothing is started. -/
  | settled {q : Plane} {orders : List Scheduler.Order} (agreed : q.Agreed)
    (count : q.scheduler.launched = p.scheduler.launched) (off : CallsOff orders) : Outcome p q orders
  | launching {q : Plane} {offs : List Scheduler.Order} {l : Launch} {settings : Settings}
    (agreed : q.Agreed) (number : l.id = p.scheduler.launched + 1) (count : q.scheduler.launched = l.id)
    (off : CallsOff offs) (direction : settings.direction = q.router.primary) :
    Outcome p q (offs ++ [.launch l settings])

theorem Outcome.agreed {q : Plane} {orders : List Scheduler.Order} (outcome : p.Outcome q orders) :
    q.Agreed := by
  cases outcome with
  | settled agreed => exact agreed
  | launching agreed => exact agreed

theorem outcome_startFull (agreed : p.Agreed) (c : Circumstances) :
    p.Outcome (p.startFull c).plane (p.startFull c).orders := by
  simp only [startFull, Scheduler.startFull]
  split
  · exact .settled agreed rfl callsOff_nil
  · have direction : (p.scheduler.settings p.tuning).direction = p.router.primary := by
      rw [← agreed]
      rfl
    exact .launching agreed rfl rfl (callsOff_cancelling _) direction

theorem outcome_startIncremental (agreed : p.Agreed) (c : Circumstances) (utime : Int64)
    (interval : Duration) : p.Outcome (p.startIncremental c utime interval).plane
      (p.startIncremental c utime interval).orders := by
  simp only [startIncremental, Scheduler.startIncremental]
  split
  · exact .settled agreed rfl callsOff_nil
  · have direction : (p.scheduler.settings p.tuning).direction = p.router.primary := by
      rw [← agreed]
      rfl
    exact .launching agreed rfl rfl (callsOff_cancelling _) direction

theorem outcome_perform (agreed : p.Agreed) (c : Circumstances) (command : Command) :
    p.Outcome (p.perform c command).plane (p.perform c command).orders := by
  cases command with
  | switch pattern =>
    simp only [perform, switch, Scheduler.switch, Move.map]
    cases c.verdict pattern with
    | ok => exact .settled rfl rfl callsOff_nil
    | error => exact .settled agreed rfl callsOff_nil
  | startFull => exact outcome_startFull agreed c
  | startIncremental start =>
    cases start with
    | none => exact .settled agreed rfl callsOff_nil
    | some start => exact outcome_startIncremental agreed c ..
  | stopFull => exact .settled agreed rfl (callsOff_cancelling _)
  | stopIncremental => exact .settled agreed rfl (callsOff_cancelling _)
  | unknownPattern | status => exact .settled agreed rfl callsOff_nil

theorem outcome_shutDown (agreed : p.Agreed) : p.Outcome p.shutDown.plane p.shutDown.orders :=
  .settled agreed rfl ((callsOff_cancelling _).append (callsOff_cancelling _))

end Plane
end Cutover.Control
