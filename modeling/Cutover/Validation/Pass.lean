import Cutover.Validation.Burst
import Cutover.Validation.Settings

/-! One pass of a comparison. A pass walks through one store in batches and looks each batch up in
the other: from the base it finds records that the target lacks or holds differently, from the
target those that the base lacks. It is a machine that is told the outcome of what it waits for;
when that comes, and what the stores look like then, is up to its surroundings. -/
namespace Cutover.Validation

inductive Kind where
  | baseToTarget
  | targetToBase
  deriving DecidableEq

def Kind.name : Kind → String
  | .baseToTarget => "base-to-target"
  | .targetToBase => "target-to-base"

/-- What a pass waits for. -/
inductive Phase where
  /-- The next batch of the store it walks through. -/
  | scanning
  /-- The end of the delay after a failed scan. -/
  | backingOff
  /-- The end of the pause at the end of the data. -/
  | resting
  /-- The answer of the other store about a batch. -/
  | checking (batch : List Interactive)
  /-- Room for the events of a batch of the given size. -/
  | publishing (size : Nat) (burst : Burst)
  | finished
  | failed (cause : Error)

structure Pass where
  kind : Kind
  /-- How many records of the scan are behind it. -/
  offset : Nat
  /-- How many scans in a row have failed. -/
  failures : Nat
  phase : Phase

/-- Something worth counting. -/
inductive Note where
  | readFailure (kind : Kind)
  | batch (kind : Kind)
  | emitted (drift : Drift)
  | publishFailure
  deriving DecidableEq

def Note.count (m : Metrics) : Note → Metrics
  | .readFailure kind => m.add .validatorReadFailures 1 [("pass", kind.name)]
  | .batch kind => m.add .validatorBatches 1 [("pass", kind.name)]
  | .emitted drift => m.add .validatorEventsEmitted 1 [("type", drift.name)]
  | .publishFailure => m.add .validatorPublishFailures 1 []

/-- The keys of a batch that are worth an event, and the kind of event. -/
structure Verdict where
  drift : Drift
  ids : List Int64
  deriving DecidableEq

namespace Verdict

/-- The last of the records with a key. -/
def lastWith (id : Int64) (records : List Interactive) : Option Interactive :=
  records.reverse.find? (·.id == id)

/-- Records of the base against those the target has of them. When it has none, all are missing;
otherwise a missing one counts as different. -/
def ofTargets (batch targets : List Interactive) : Verdict :=
  if targets.isEmpty then ⟨.targetMissing, batch.map (·.id)⟩
  else ⟨.neq, (batch.filter fun r => lastWith r.id targets != some r).map (·.id)⟩

/-- Records of the target against the keys that the base has of them. -/
def ofPresent (batch : List Interactive) (present : List Int64) : Verdict :=
  ⟨.baseMissing, (batch.map (·.id)).filter (!present.contains ·)⟩

end Verdict

namespace Pass

def start (kind : Kind) : Pass := ⟨kind, 0, 0, .scanning⟩

/-- The store that the pass walks through. -/
def scanned (s : Settings) (p : Pass) : Side :=
  match p.kind with
  | .baseToTarget => s.base
  | .targetToBase => s.target

/-- The store that it looks a batch up in. -/
def consulted (s : Settings) (p : Pass) : Side := (p.scanned s).other

/-- The next batch. The target is walked through in the order of the keys, and so is the base unless
the comparison follows updates. -/
def scan (s : Settings) (p : Pass) : Dialogue stores (Except StoreError (List Interactive)) :=
  match p.kind, s.mode with
  | .baseToTarget, .incremental =>
    .call (I := stores) (p.scanned s, .updatedSince s.utime p.offset s.batchSize)
  | _, _ => .call (I := stores) (p.scanned s, .orderedById p.offset s.batchSize)

/-- Looks a batch up in the other store: the records there, or for records of the target just which
of the keys the base has. -/
def check (s : Settings) (p : Pass) (batch : List Interactive) :
    Dialogue stores (Except StoreError Verdict) :=
  match p.kind with
  | .baseToTarget => .ask (p.consulted s, .byIds (batch.map (·.id))) fun
    | .ok targets => .done (.ok (.ofTargets batch targets))
    | .error e => .done (.error e)
  | .targetToBase => .ask (p.consulted s, .presentIds (batch.map (·.id))) fun
    | .ok present => .done (.ok (.ofPresent batch present))
    | .error e => .done (.error e)

def moveOn (p : Pass) (size : Nat) : Pass :=
  { p with offset := p.offset + size, phase := .scanning }

/-- The scan has been answered. -/
def onScan (s : Settings) (p : Pass) : Except StoreError (List Interactive) → Pass × List Note
  | .error e =>
    if e.transient then
      ({ p with failures := p.failures + 1, phase := .backingOff }, [.readFailure p.kind])
    else ({ p with phase := .failed (.read (p.scanned s).name e) }, [.readFailure p.kind])
  | .ok [] =>
    ({ p with failures := 0, phase := if s.interval = .zero then .finished else .resting }, [])
  | .ok (first :: rest) => ({ p with failures := 0, phase := .checking (first :: rest) }, [])

/-- The other store has answered about a batch. A batch that could not be looked up is passed over:
the next comparison will see what it hid. -/
def onCheck (s : Settings) (p : Pass) (batch : List Interactive) :
    Except StoreError Verdict → Pass × List Note
  | .error e =>
    if e.transient then (p.moveOn batch.length, [.readFailure p.kind, .batch p.kind])
    else ({ p with phase := .failed (.read (p.consulted s).name e) }, [.readFailure p.kind])
  | .ok verdict =>
    match verdict.ids with
    | [] => (p.moveOn batch.length, [.batch p.kind])
    | ids =>
      let events := ids.map fun id => ⟨id, s.direction, verdict.drift⟩
      ({ p with phase := .publishing batch.length (.start events) }, [])

/-- A delay or a pause has ended. -/
def onRested (p : Pass) : Pass :=
  match p.phase with
  | .backingOff | .resting => { p with phase := .scanning }
  | _ => p

/-- An attempt to publish an event has ended. -/
def onPublished (p : Pass) (e : Event) (succeeded : Bool) : Pass × List Note :=
  match p.phase with
  | .publishing size burst =>
    let note := if succeeded then .emitted e.drift else .publishFailure
    let burst := burst.settle e
    if burst.finished then (p.moveOn size, [note, .batch p.kind])
    else ({ p with phase := .publishing size burst }, [note])
  | _ => (p, [])

/-- The comparison is called off. What is being published is still published. -/
def onCancel (p : Pass) : Pass :=
  match p.phase with
  | .scanning | .backingOff | .resting | .checking _ => { p with phase := .finished }
  | _ => p

/-- How long the pass waits before it scans again. -/
def delay (s : Settings) (p : Pass) : Duration :=
  match p.phase with
  | .backingOff => s.backoff.delay p.failures
  | _ => s.interval

end Pass

/-- Both passes of a comparison. -/
structure Session where
  forward : Pass
  backward : Pass

namespace Session

def start : Session := ⟨.start .baseToTarget, .start .targetToBase⟩

/-- How a comparison ended, if it has. It fails as soon as one pass does, and the other is
abandoned; it succeeds when both are through. -/
def outcome (s : Session) : Option (Except Error Unit) :=
  match s.forward.phase, s.backward.phase with
  | .failed e, _ => some (.error e)
  | _, .failed e => some (.error e)
  | .finished, .finished => some (.ok ())
  | _, _ => none

end Session
end Cutover.Validation
