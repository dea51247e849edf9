import Cutover.Control.Plane
import Cutover.Daemon.Notice

/-! The daemon in service. It works with one set-up at a time, built from the configuration in force.
When it is told to read the configuration again it takes the set-up down and makes another; the
pattern in force outlives them all, so the one that a configuration names counts at the start alone. -/
namespace Cutover.Daemon

structure Service where
  config : Config
  plane : Control.Plane
  /-- How many set-ups there were before the present one. -/
  generation : Nat

namespace Service

/-- The first set-up. -/
def start (c : Config) : Service := ⟨c, .adopt c.initialPattern c.validator, 0⟩

/-- The set-up is taken down: its comparisons are called off, and it starts none any more. -/
def retire (s : Service) : Service × List Scheduler.Order :=
  let m := s.plane.shutDown
  ({ s with plane := m.plane }, m.orders)

/-- Reads the configuration again, given what its file holds. -/
def reload (o : Options) (content : Option String) (s : Service) : Service × List Notice :=
  let (config, notices) := reconfigure o content s.config
  ({ s with config }, notices)

/-- The next set-up. -/
def renew (s : Service) : Service :=
  ⟨s.config, .adopt s.plane.router s.config.validator, s.generation + 1⟩

end Service
end Cutover.Daemon
