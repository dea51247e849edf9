import Cutover.Rehearsal.Script

/-! The stage on which jobs run. One job runs at a time, until it has to wait. Jobs that become able
to go on get their turn in the order in which they did; only when none is able to does the clock
move, straight to the next point in time that one waits for. Jobs of one company act as one: among
them the first that is able to goes on. -/
namespace Cutover.Rehearsal

/-- What the stage has to know about jobs. -/
structure Casting (W J : Type) where
  /-- What a job does each time it is its turn; it goes on as long as the answer is yes. -/
  body : J → Script W J Bool
  /-- The company that a job belongs to. -/
  company : J → List Nat
  /-- Its place among the others. -/
  rank : J → Nat

structure Player (W J : Type) where
  id : Nat
  job : J
  script : Script W J Bool

structure Stage (W J : Type) where
  now : Nat
  world : W
  /-- Everyone on the stage, in order of appearance and by rank within a company. -/
  players : List (Player W J)
  /-- How many have appeared. -/
  appeared : Nat
  /-- Companies whose turn it is. -/
  queue : List (List Nat)

namespace Stage

variable {W J : Type}

/-- Whether a script is able to go on. -/
def able (now : Nat) (w : W) : Script W J Bool → Bool
  | .pause wake ready _ => ready w || wake.any (· ≤ now)
  | _ => true

/-- Places a newcomer behind those of his company whose rank is not above his. -/
def place (c : Casting W J) (p : Player W J) (players : List (Player W J)) : List (Player W J) :=
  let (before, after) := players.span fun q => c.company q.job != c.company p.job
  let (first, last) := after.span fun q =>
    c.company q.job == c.company p.job && c.rank q.job ≤ c.rank p.job
  before ++ first ++ p :: last

def enter (c : Casting W J) (job : J) (s : Stage W J) : Stage W J :=
  { s with players := place c ⟨s.appeared, job, c.body job⟩ s.players, appeared := s.appeared + 1 }

/-- Runs a script until it has to wait, or has ended. -/
def advance (c : Casting W J) (s : Stage W J) : Script W J Bool → Stage W J × Script W J Bool
  | .done again => (s, .done again)
  | .look next => advance c s (next s.now s.world)
  | .alter f next => advance c { s with world := f s.world } next
  | .spawn job next => advance c (s.enter c job) next
  | .dismiss which next =>
    advance c { s with players := s.players.filter fun p => !which p.job } next
  | .pause wake ready next =>
    if ready s.world || wake.any (· ≤ s.now) then advance c s next else (s, .pause wake ready next)

/-- Notes how far a player has come; one whose job is done leaves. -/
def settle (c : Casting W J) (id : Nat) (script : Script W J Bool) (s : Stage W J) : Stage W J :=
  { s with players := s.players.filterMap fun p =>
      if p.id = id then
        match script with
        | .done true => some { p with script := c.body p.job }
        | .done false => none
        | script => some { p with script }
      else some p }

/-- Companies that are able to go on and are not in the queue yet join it, in order of appearance. -/
def summon (c : Casting W J) (s : Stage W J) : Stage W J :=
  { s with queue := s.players.foldl (fun queue p =>
      let company := c.company p.job
      if able s.now s.world p.script && !queue.contains company then queue ++ [company]
      else queue) s.queue }

/-- The next point in time that someone waits for. -/
def nextWake (s : Stage W J) : Option Nat :=
  s.players.foldl (fun soonest p => match p.script with
    | .pause wake _ _ => Script.sooner soonest wake
    | _ => soonest) none

/-- One turn: someone of the company that is first in the queue goes on; when there is no queue the
clock moves. There is no turn when nobody waits for a point in time. -/
def turn (c : Casting W J) (s : Stage W J) : Option (Stage W J) :=
  match s.queue with
  | company :: queue =>
    match s.players.find? fun p => c.company p.job == company && able s.now s.world p.script with
    | none => some { s with queue }
    | some p =>
      let (s, script) := s.advance c p.script
      some ((s.settle c p.id script).summon c)
  | [] => s.nextWake.map fun wake => summon c { s with now := Nat.max s.now wake }

/-- Plays on until the world is as wanted or nothing is left to happen. -/
def play (c : Casting W J) (finished : W → Bool) : Nat → Stage W J → Stage W J
  | 0, s => s
  | fuel + 1, s =>
    if finished s.world then s
    else match s.turn c with
      | none => s
      | some s => play c finished fuel s

/-- An empty stage with one job to begin with. -/
def opening (c : Casting W J) (world : W) (job : J) : Stage W J :=
  (enter c job ⟨0, world, [], 0, []⟩).summon c

end Stage
end Cutover.Rehearsal
