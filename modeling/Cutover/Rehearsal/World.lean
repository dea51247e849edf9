import Cutover.Consumer
import Cutover.Control.Plane
import Cutover.Rehearsal.Channel
import Cutover.Rehearsal.Site
import Cutover.Rehearsal.Stage
import Cutover.Validation.Pass

/-! The world of a rehearsal: two stores and a queue, the comparisons and consumers at work, and what
has been counted. What else a rehearsal needs is left open. -/
namespace Cutover.Rehearsal

/-- A comparison at work. -/
structure SessionRun where
  /-- The number of the comparison among all that there were. -/
  id : Nat
  /-- Which of the successive set-ups it belongs to. -/
  generation : Nat
  settings : Validation.Settings
  session : Validation.Session
  cancelled : Bool
  outcome : Option (Except Validation.Error Unit)

namespace SessionRun

def pass (r : SessionRun) : Validation.Kind → Validation.Pass
  | .baseToTarget => r.session.forward
  | .targetToBase => r.session.backward

def setPass (r : SessionRun) (p : Validation.Pass) : Validation.Kind → SessionRun
  | .baseToTarget => { r with session := { r.session with forward := p } }
  | .targetToBase => { r with session := { r.session with backward := p } }

def begin (id generation : Nat) (settings : Validation.Settings) : SessionRun :=
  ⟨id, generation, settings, .start, false, none⟩

end SessionRun

/-- A consumer at work. -/
structure ConsumerRun where
  generation : Nat
  settings : Consumption
  consumer : Consumer Ticket
  /-- When it gives its tasks up. -/
  deadline : Option Nat

/-- The control plane at its place. -/
structure Desk where
  plane : Control.Plane
  /-- Which of the successive set-ups it serves. -/
  generation : Nat
  gate : Control.Gate
  /-- Whether the router refuses to switch. -/
  refusing : Bool
  /-- The patterns that the router was asked for. -/
  asked : List Pattern

namespace Desk

def ofPlane (plane : Control.Plane) : Desk := ⟨plane, 0, ⟨0⟩, false, []⟩

instance : Inhabited Desk := ⟨ofPlane (.adopt .srcOnly .standard)⟩

/-- What the router says to a switch. -/
def verdict (d : Desk) (_ : Pattern) : Except Sql.Error Unit :=
  if d.refusing then .error (.backend "control" "injected failure") else .ok ()

/-- Notes that the router is asked to switch. -/
def ask (d : Desk) (pattern : Pattern) : Desk := { d with asked := d.asked ++ [pattern] }

end Desk

structure World (X : Type) where
  metrics : Metrics
  sites : Side → Site
  channel : Channel
  sessions : List SessionRun
  consumers : List ConsumerRun
  desk : Desk
  /-- Whether the rehearsal is over, whatever is still at work. -/
  ended : Bool
  extra : X

namespace World

variable {X : Type}

def empty (extra : X) : World X := ⟨[], fun _ => default, default, [], [], default, false, extra⟩

def site (w : World X) (side : Side) : Site := w.sites side

def setSite (w : World X) (side : Side) (s : Site) : World X := { w with sites := put side s w.sites }

def session? (w : World X) (id : Nat) : Option SessionRun := w.sessions.find? (·.id == id)

/-- What a pass of a comparison waits for. -/
def phase? (w : World X) (id : Nat) (kind : Validation.Kind) : Option Validation.Phase :=
  match w.session? id with
  | none => none
  | some run => some (run.pass kind).phase

def setSession (w : World X) (r : SessionRun) : World X :=
  { w with sessions := w.sessions.map fun s => if s.id = r.id then r else s }

def consumer? (w : World X) (generation : Nat) : Option ConsumerRun :=
  w.consumers.find? (·.generation == generation)

def setConsumer (w : World X) (r : ConsumerRun) : World X :=
  { w with consumers := w.consumers.map fun c => if c.generation = r.generation then r else c }

def cancel (w : World X) (id : Nat) : World X :=
  { w with sessions := w.sessions.map fun s => if s.id = id then { s with cancelled := true } else s }

/-- Whether a comparison was called off. -/
def cancelled (w : World X) (id : Nat) : Bool := (w.session? id).any (·.cancelled)

def running (w : World X) (id : Nat) : Bool := (w.session? id).any (·.outcome.isNone)

/-- Tells a consumer to stop. -/
def signal (w : World X) (generation : Nat) : World X :=
  { w with consumers := w.consumers.map fun c =>
      if c.generation = generation then { c with consumer := c.consumer.signal } else c }

end World

/-- The jobs of a rehearsal. -/
inductive Job where
  | main
  | pass (session : Nat) (kind : Validation.Kind)
  | publish (session : Nat) (kind : Validation.Kind) (event : Event)
  | consume (generation : Nat)
  | handle (generation task : Nat) (event : Event)
  /-- Whatever else a rehearsal has to have done beside. -/
  | errand (number : Nat)
  deriving DecidableEq

namespace Job

/-- Both passes of a comparison act as one, and publish as one. -/
def company : Job → List Nat
  | .main => [0]
  | .pass session _ | .publish session .. => [1, session]
  | .consume generation => [2, generation]
  | .handle generation task _ => [3, generation, task]
  | .errand number => [4, number]

def rank : Job → Nat
  | .pass _ .baseToTarget => 0
  | .publish _ .baseToTarget _ => 1
  | .pass _ .targetToBase => 2
  | .publish _ .targetToBase _ => 3
  | _ => 0

end Job

abbrev Play (X α : Type) := Script (World X) Job α

/-- Asks a store in memory: the request is noted, a rule may delay it and have it fail, and what is
left is up to the store. -/
def serve (side : Side) (q : Store.Request) : Play X (Store.Result q) := do
  Script.change fun w => w.setSite side ((w.site side).tally q)
  let w ← Script.world
  let latency := (w.site side).latency
  if latency ≠ 0 then Script.rest latency
  Script.act fun w =>
    let (r, s) := (w.site side).answer q
    (r, w.setSite side s)

def visit (side : Side) (q : Store.Request) : Play X (Store.Result q) := do
  let rule ← Script.actAt fun now w =>
    let s := w.site side
    (s.rule? (methodOf q), w.setSite side { s with log := s.log ++ [⟨now, q⟩] })
  match rule with
  | none => serve side q
  | some r =>
    if r.delay ≠ 0 then Script.rest r.delay
    match r.mishap with
    | none => serve side q
    | some f => do
      let w ← Script.world
      return .error ((w.site side).failWith f)

end Cutover.Rehearsal
