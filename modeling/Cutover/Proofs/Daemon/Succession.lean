import Cutover.Daemon.Service
import Cutover.Proofs.Control.Refusal

/-! The set-ups of a daemon, one after another. Each has a scheduler of its own, which is told at its start
what pattern the router has. So the pattern outlives them all, whatever the configurations name that are read
in between; a set-up that is taken down leaves no comparison behind that goes on, and starts none any more. -/
namespace Cutover

namespace Control

/-- The pattern that was switched to, by a command and its answer. -/
def switched : Command × Answer → Option Pattern
  | (.switch pattern, a) => if a.isOk then some pattern else none
  | _ => none

/-- The last pattern that was switched to; the first one if none was. -/
def decided (first : Pattern) (answered : List (Command × Answer)) : Pattern :=
  (answered.filterMap switched).getLast?.getD first

theorem decided_concat (first : Pattern) (answered : List (Command × Answer)) (entry : Command × Answer) :
    decided first (answered ++ [entry]) = (switched entry).getD (decided first answered) := by
  cases found : switched entry <;> simp [decided, List.filterMap_append, found]

example : decided .srcOnly [(.switch .srcFirst, .ok), (.switch .dstOnly, .notOk), (.startFull, .ok)] =
    .srcFirst := rfl

/-- Only a switch changes the pattern of the router, and only if the answer says so. -/
theorem Plane.router_perform (p : Plane) (c : Circumstances) (command : Command) :
    (p.perform c command).plane.router = (switched (command, (p.perform c command).result)).getD p.router := by
  cases command with
  | switch pattern =>
    have no : Answer.notOk.isOk = false := rfl
    cases verdict : c.verdict pattern <;>
      simp [perform, Move.map, switch, Scheduler.switch, switched, verdict, told, no]
  | startFull =>
    simp only [perform, Move.map, startFull, Scheduler.startFull, switched]
    split <;> rfl
  | startIncremental start =>
    cases start with
    | none => rfl
    | some start =>
      simp only [perform, Move.map, startIncremental, Scheduler.startIncremental, switched]
      split <;> rfl
  | unknownPattern | stopFull | stopIncremental | status => rfl

namespace Roster

variable {x : Roster}

/-- A command is a doing, or none. -/
def doing (c : Circumstances) : Command → Option Doing
  | .switch pattern => some (.switch c pattern)
  | .startFull => some (.startFull c)
  | .startIncremental start =>
    start.map fun start => .startIncremental c start.utime (.ofMillis start.interval.toInt.toNat)
  | .stopFull => some .stopFull
  | .stopIncremental => some .stopIncremental
  | .unknownPattern _ | .status => none

theorem carry_perform (x : Roster) (c : Circumstances) (command : Command) :
    x.carry (x.plane.perform c command) = x.run (doing c command).toList := by
  cases command with
  | startIncremental start => cases start <;> rfl
  | _ => rfl

/-- A shutdown starts nothing and forgets nothing. -/
theorem launches_shutDown (x : Roster) : (x.step .shutDown).launches = x.launches := by
  cases x.change_shutDown with
  | settled f later sessions => exact launches_settled later sessions
  | launching new opened sessions faithful number taken current launched closed =>
    cases closed.symm.trans ((closed_step x .shutDown).2 (.inr rfl))

/-- All its comparisons are called off, and none can be started. -/
structure Dismissed (x : Roster) : Prop where
  cancelled : ∀ s ∈ x.sessions, s.cancelled = true
  full : ∀ c, (x.plane.startFull c).result = .error .shutDown
  incremental : ∀ c utime interval, (x.plane.startIncremental c utime interval).result = .error .shutDown

theorem Sound.dismissed (sound : x.Sound) (closed : x.plane.scheduler.closed = true) : x.Dismissed where
  cancelled := sound.closed closed
  full c := by simp [Plane.startFull, Scheduler.startFull, closed, Plane.launched]
  incremental c utime interval := by
    simp [Plane.startIncremental, Scheduler.startIncremental, closed, Plane.launched]

end Roster
end Control

namespace Daemon

open Control

/-- What befalls the daemon. -/
inductive Occasion where
  | request (c : Circumstances) (r : Request)
  /-- A comparison comes to an end of its own accord. -/
  | ended (id : Nat)
  /-- It is told to read its configuration again; the file may not be there. -/
  | hangup (content : Option String)

structure Succession where
  service : Service
  /-- The comparisons that the present set-up has started. -/
  sessions : List Session
  /-- The set-ups before, as each was left when the next one was made. -/
  former : List Roster
  /-- The commands that were carried out, and what was answered. -/
  answered : List (Command × Answer)

namespace Succession

def start (c : Config) : Succession := ⟨.start c, [], [], []⟩

/-- The present set-up. -/
def roster (x : Succession) : Roster := ⟨x.service.plane, x.sessions⟩

/-- A command is carried out in the present set-up. -/
def perform (x : Succession) (c : Circumstances) (command : Command) : Succession :=
  let m := x.service.plane.perform c command
  let roster := x.roster.carry m
  { x with
    service := { x.service with plane := roster.plane }
    sessions := roster.sessions
    answered := x.answered ++ [(command, m.result)] }

/-- The present set-up is taken down before the configuration is read and the next one made. -/
def renew (o : Options) (x : Succession) (content : Option String) : Succession :=
  let (retired, orders) := x.service.retire
  let old := orders.foldl Roster.obey ⟨retired.plane, x.sessions⟩
  { x with service := (retired.reload o content).1.renew, sessions := [], former := x.former ++ [old] }

def step (o : Options) (x : Succession) : Occasion → Succession
  | .request c r =>
    match route r with
    | .command command => x.perform c command
    | _ => x
  | .ended id => { x with sessions := (x.roster.step (.ended id)).sessions }
  | .hangup content => x.renew o content

def run (o : Options) (x : Succession) (occasions : List Occasion) : Succession := occasions.foldl (step o) x

variable {o : Options} {first : Pattern} {x : Succession}

/-- The pattern in force is the one decided on, in the scheduler as in the router, and the set-ups before were
taken down. -/
structure Sound (first : Pattern) (x : Succession) : Prop where
  roster : x.roster.Sound
  agreed : x.service.plane.Agreed
  pattern : x.service.plane.router = decided first x.answered
  former : ∀ old ∈ x.former, old.Sound ∧ old.plane.scheduler.closed = true
  count : x.former.length = x.service.generation

theorem sound_start (c : Config) : (start c).Sound c.initialPattern where
  roster := Roster.sound_start c.initialPattern c.validator
  agreed := rfl
  pattern := rfl
  former := List.forall_mem_nil _
  count := rfl

theorem Sound.perform (sound : x.Sound first) (c : Circumstances) (command : Command) :
    (x.perform c command).Sound first := by
  -- a command that is carried out is a doing of the present set-up, so that what holds of all doings holds here
  have carried := x.roster.carry_perform c command
  have plane := Roster.plane_carry x.roster (x.service.plane.perform c command)
  refine ⟨?_, ?_, ?_, sound.former, sound.count⟩
  · show (x.roster.carry (x.roster.plane.perform c command)).Sound
    rw [carried]
    exact sound.roster.run _
  · show (x.roster.carry (x.roster.plane.perform c command)).plane.Agreed
    rw [carried]
    refine Roster.agreed_run sound.agreed fun p => ?_
    cases command <;> simp [Roster.doing]
  · simp only [Succession.perform, plane, decided_concat, Plane.router_perform, sound.pattern]

/-- The set-up that is taken down keeps its comparisons, all of them called off. -/
theorem renew_former (o : Options) (x : Succession) (content : Option String) :
    (x.renew o content).former = x.former ++ [x.roster.step .shutDown] := rfl

/-- The next set-up takes over the pattern, and nothing else. -/
theorem roster_renew (o : Options) (x : Succession) (content : Option String) :
    (x.renew o content).roster =
      .start x.service.plane.router (x.renew o content).service.config.validator := rfl

theorem Sound.renew (sound : x.Sound first) (content : Option String) : (x.renew o content).Sound first where
  roster := Roster.sound_start _ _
  agreed := rfl
  pattern := sound.pattern
  former old member := by
    rw [renew_former, List.mem_append, List.mem_singleton] at member
    rcases member with before | rfl
    · exact sound.former old before
    · exact ⟨sound.roster.change (Roster.change_step _ _), (Roster.closed_step _ _).2 (.inr rfl)⟩
  count := by
    rw [renew_former, List.length_append, sound.count]
    rfl

theorem Sound.step (sound : x.Sound first) (occasion : Occasion) : (x.step o occasion).Sound first := by
  cases occasion with
  | request c r =>
    simp only [Succession.step]
    split
    · exact sound.perform c _
    · exact sound
  | ended id =>
    exact { sound with roster := sound.roster.change (x.roster.change_step (.ended id)) }
  | hangup content => exact sound.renew content

theorem Sound.run (sound : x.Sound first) (occasions : List Occasion) : (x.run o occasions).Sound first := by
  induction occasions generalizing x with
  | nil => exact sound
  | cons occasion rest ih => exact ih (sound.step occasion)

/-- A configuration that cannot be had leaves the one before in force. -/
theorem config_renew (o : Options) (x : Succession) (content : Option String) :
    (x.renew o content).service.config =
      match content with
      | some text => (Config.ofText text).getD x.service.config
      | none => if o.config.isSome then x.service.config else .standard := by
  show (reconfigure o content x.service.config).1 = _
  cases content with
  | none => cases asked : o.config <;> simp [reconfigure, configure, Config.load, asked]
  | some text => cases found : Config.ofText text <;> simp [reconfigure, configure, Config.load, found]

/-- Whatever is asked of a daemon and however often it is told to read its configuration again: the scheduler
reports the pattern that the router has, which is the last one that was switched to, or the first of all. Of
every set-up that was taken down all comparisons are called off, and none is started ever after. The next
set-up begins with that pattern and without a comparison, by the configuration that was read, or by the one
before if that cannot be made out. -/
theorem pattern_survives (o : Options) (first : Config) (occasions : List Occasion) :
    let x := (start first).run o occasions
    let pattern := decided first.initialPattern x.answered
    (x.service.plane.scheduler.pattern = pattern ∧ x.service.plane.router = pattern ∧
      ∀ c, (x.service.plane.status c).pattern = pattern) ∧
      (x.former.length = x.service.generation ∧ ∀ old ∈ x.former, ∀ more : List Doing,
        (old.run more).Dismissed ∧ (old.run more).launches = old.launches) ∧
      ∀ content,
        let y := x.step o (.hangup content)
        (∃ old, y.former = x.former ++ [old] ∧ old.Dismissed ∧ old.launches = x.roster.launches) ∧
          y.roster = .start pattern y.service.config.validator ∧
          y.service.config =
            match content with
            | some text => (Config.ofText text).getD x.service.config
            | none => if o.config.isSome then x.service.config else .standard := by
  intro x pattern
  have sound : x.Sound first.initialPattern := (sound_start first).run occasions
  have known : x.service.plane.scheduler.pattern = pattern := sound.agreed.trans sound.pattern
  refine ⟨⟨known, sound.pattern, fun _ => known⟩, ⟨sound.count, fun old member more => ?_⟩, fun content => ?_⟩
  · obtain ⟨orderly, closed⟩ := sound.former old member
    exact ⟨(orderly.run more).dismissed ((Roster.closed_run old more).2 (.inl closed)),
      (Roster.shut_run closed more).1⟩
  · have last : x.roster.step .shutDown ∈ (x.renew o content).former := by simp [renew_former]
    obtain ⟨orderly, closed⟩ := (sound.renew content).former _ last
    have next := roster_renew o x content
    rw [sound.pattern] at next
    exact ⟨⟨_, renew_former o x content, orderly.dismissed closed, Roster.launches_shutDown _⟩, next,
      config_renew o x content⟩

end Succession
end Daemon
end Cutover
