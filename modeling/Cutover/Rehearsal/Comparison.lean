import Cutover.Rehearsal.Backdrop

/-! A comparison on the stage. Each of its passes is a job that does what the pass waits for, within
the time allowed and until the comparison is called off; every attempt to publish is a job of its
own. -/
namespace Cutover.Rehearsal.Comparison

open Validation (Pass Kind Note Phase)

variable {X : Type}

def note (notes : List Note) (w : World X) : World X :=
  { w with metrics := notes.foldl Note.count w.metrics }

/-- Changes a pass of a comparison, and counts. -/
def update (id : Nat) (kind : Kind) (f : Pass → Pass × List Note) (w : World X) : World X :=
  match w.session? id with
  | none => w
  | some run =>
    let (p, notes) := f (run.pass kind)
    note notes (w.setSession (run.setPass p kind))

def belongs (id : Nat) : Job → Bool
  | .pass session _ | .publish session .. => session == id
  | _ => false

/-- The comparison is over, and whatever is left of it is called off. -/
def conclude (id : Nat) (outcome : Except Validation.Error Unit) : Play X Bool := do
  Script.change fun w => match w.session? id with
    | none => w
    | some run => w.setSession { run with outcome := some outcome }
  Script.callOff (belongs id)
  return false

/-- Goes on, unless the pass or the whole comparison is through. -/
def proceed (id : Nat) (kind : Kind) : Play X Bool := do
  let w ← Script.world
  match w.session? id with
  | none => return false
  | some run =>
    match run.session.outcome with
    | some outcome => conclude id outcome
    | none =>
      match (run.pass kind).phase with
      | .finished => return false
      | _ => return true

def startAll (id : Nat) (kind : Kind) : List Event → Play X Unit
  | [] => pure ()
  | e :: rest => do
    Script.start (.publish id kind e)
    startAll id kind rest

/-- The outcome of a read within its time, or nothing when the comparison was called off. -/
def outcome (store : String) (allowed : Duration) :
    Guarded (Except StoreError α) → Option (Except StoreError α)
  | .finished r => some r
  | .timedOut => some (.error (.timeout store allowed))
  | .stopped => none

/-- Asks the stores, within the time allowed and as long as the comparison is on. -/
def read (b : Backdrop X) (run : SessionRun) (store : Side)
    (d : Dialogue stores (Except StoreError α)) : Play X (Option (Except StoreError α)) := do
  let w ← Script.world
  if w.cancelled run.id then return none
  let now ← Script.now
  let allowed := run.settings.batchTimeout
  return outcome store.name allowed
    (← (b.consult run.generation d).within (some (now + allowed.ticks)) (·.cancelled run.id))

/-- Waits until the pass has nothing left to publish. -/
def published (id : Nat) (kind : Kind) (w : World X) : Bool :=
  match w.phase? id kind with
  | some (.publishing ..) => false
  | _ => true

def step (b : Backdrop X) (run : SessionRun) (kind : Kind) : Play X Unit := do
  let p := run.pass kind
  let s := run.settings
  let apply := fun f => Script.change (J := Job) (update (X := X) run.id kind f)
  match p.phase with
  | .scanning =>
    match ← read b run (p.scanned s) (p.scan s) with
    | none => apply fun p => (p.onCancel, [])
    | some answer => apply (·.onScan s answer)
  | .checking batch =>
    match ← read b run (p.consulted s) (p.check s batch) with
    | none => apply fun p => (p.onCancel, [])
    | some answer => do
      apply (·.onCheck s batch answer)
      let w ← Script.world
      match w.phase? run.id kind with
      | some (.publishing _ burst) => startAll run.id kind burst.outstanding
      | _ => pure ()
  | .backingOff | .resting => do
    Script.waitAtMost (p.delay s).ticks (·.cancelled run.id)
    let w ← Script.world
    apply fun p => (if w.cancelled run.id then p.onCancel else p.onRested, [])
  | .publishing .. => Script.waitFor (published run.id kind)
  | .finished | .failed _ => pure ()

/-- One step of a pass. Settings that make no sense end the comparison before anything is read. -/
def pass (b : Backdrop X) (id : Nat) (kind : Kind) : Play X Bool := do
  let w ← Script.world
  match w.session? id with
  | none => return false
  | some run =>
    match run.settings.flaw with
    | some e => conclude id (.error e)
    | none => do
      step b run kind
      proceed id kind

/-- The attempts that may begin once one has ended. -/
def followers (e : Event) (p : Pass) : List Event :=
  match p.phase with
  | .publishing _ burst => burst.waiting.take ((burst.settle e).outstanding.length + 1 - burst.outstanding.length)
  | _ => []

/-- One attempt to publish. It takes no notice of the comparison being called off. -/
def publish (b : Backdrop X) (id : Nat) (kind : Kind) (e : Event) : Play X Bool := do
  let w ← Script.world
  match w.session? id with
  | none => return false
  | some run => do
    let now ← Script.now
    let limit := now + run.settings.publishTimeout.ticks
    let succeeded := match ← (b.publish run.generation e).within (some limit) (fun _ => false) with
      | .finished succeeded => succeeded
      | _ => false
    let w ← Script.world
    let next := match w.session? id with
      | none => []
      | some run => followers e (run.pass kind)
    Script.change (update id kind (·.onPublished e succeeded))
    startAll id kind next
    return false

/-- Brings a comparison onto the stage. -/
def launch (run : SessionRun) : Play X Unit := do
  Script.change fun w => { w with sessions := w.sessions ++ [run] }
  Script.start (.pass run.id .baseToTarget)
  Script.start (.pass run.id .targetToBase)

end Cutover.Rehearsal.Comparison
