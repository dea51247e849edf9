import Mathlib.Logic.Function.Basic
import Cutover.Proofs.Doubling
import Cutover.Proofs.Run
import Cutover.Proofs.Validation.Detection

/-! A comparison with a clock. Reads take as long as they take, while a delay or a pause ends at the very
instant that it was set for. So of each pass it can be told when its next read begins: at once, when it has
something to go on with; after a delay that doubles with each failure in a row, when its scan has failed. What
the other pass does makes no difference to that. -/
namespace Cutover.Validation

/-- A read that has ended. -/
inductive Read where
  | scan (offset : Nat) (found : Except StoreError (List Interactive))
  | lookUp (batch : List Interactive) (failure : Option StoreError)

/-- A read in its time, in nanoseconds. -/
structure Stint where
  read : Read
  began : Nat
  ended : Nat

namespace Stint

/-- How many scans have failed since one did not, by the reads of a pass, the latest first. -/
def streak : List Stint → Nat
  | [] => 0
  | a :: past =>
    match a.read with
    | .scan _ (.error _) => streak past + 1
    | .scan _ (.ok _) => 0
    | .lookUp .. => streak past

/-- The offset that a pass stands at. -/
def position : List Stint → Nat
  | [] => 0
  | a :: past =>
    match a.read with
    | .scan offset _ => offset
    | .lookUp batch _ => position past + batch.length

/-- Which read follows upon others, the latest first, and when it begins. -/
inductive Ensues (s : Settings) : List Stint → Read → Nat → Prop where
  | first {found : Except StoreError (List Interactive)} : Ensues s [] (.scan 0 found) 0
  /-- A scan that failed is repeated when the delay is over. -/
  | again {a : Stint} {past : List Stint} {offset began : Nat} {cause : StoreError}
    {found : Except StoreError (List Interactive)} (failed : a.read = .scan offset (.error cause))
    (transient : cause.transient = true)
    (waited : streak (a :: past) ≤ 32 →
      began = a.ended + Doubling.nanos s.backoff.min s.backoff.max (streak (a :: past))) :
    Ensues s (a :: past) (.scan offset found) began
  /-- At the end of the data the scan is repeated after the pause. -/
  | rested {a : Stint} {past : List Stint} {offset : Nat} {found : Except StoreError (List Interactive)}
    (exhausted : a.read = .scan offset (.ok [])) :
    Ensues s (a :: past) (.scan offset found) (a.ended + s.interval.nanos)
  | lookedUp {a : Stint} {past : List Stint} {offset : Nat} {batch : List Interactive}
    {failure : Option StoreError} (found : a.read = .scan offset (.ok batch)) (some : batch ≠ []) :
    Ensues s (a :: past) (.lookUp batch failure) a.ended
  /-- A look-up that failed is not repeated, and nothing is waited for. -/
  | passedOver {a : Stint} {past : List Stint} {batch : List Interactive} {cause : StoreError}
    {found : Except StoreError (List Interactive)} (failed : a.read = .lookUp batch (some cause))
    (transient : cause.transient = true) :
    Ensues s (a :: past) (.scan (position past + batch.length) found) a.ended
  /-- What a look-up has brought to light is published before the next scan. -/
  | published {a : Stint} {past : List Stint} {batch : List Interactive} {began : Nat}
    {found : Except StoreError (List Interactive)} (done : a.read = .lookUp batch none)
    (later : a.ended ≤ began) : Ensues s (a :: past) (.scan (position past + batch.length) found) began

/-- Every read follows upon those before it, the latest first. -/
inductive Scheduled (s : Settings) : List Stint → Prop where
  | nil : Scheduled s []
  | cons {a : Stint} {past : List Stint} (h : Scheduled s past) (ensues : Ensues s past a.read a.began) :
    Scheduled s (a :: past)

end Stint

open Stint

namespace Pass

variable {s : Settings} {t : Tables} {p : Pass} {i : Incident} {q : Pass × List Note}
  {past : List Stint} {since now : Nat}

/-- The read that comes to its end with an incident. -/
def read? (s : Settings) (t : Tables) (p : Pass) : Incident → Option Read
  | .answered =>
    match p.phase with
    | .scanning => some (.scan p.offset ((p.scan s).run Tables.answer t).1)
    | .checking batch => some (.lookUp batch none)
    | _ => none
  | .failed cause =>
    match p.phase with
    | .scanning => some (.scan p.offset (.error cause))
    | .checking batch => some (.lookUp batch (some cause))
    | _ => none
  | _ => none

/-- How long a pass waits that has set itself a time. -/
def timer? (s : Settings) (p : Pass) : Option Nat :=
  match p.phase with
  | .backingOff | .resting => some (p.delay s).nanos
  | _ => none

/-- The reads of a pass after an incident at `now`. -/
def stints (s : Settings) (t : Tables) (p : Pass) (past : List Stint) (since now : Nat) (i : Incident) :
    List Stint :=
  ((p.read? s t i).map (⟨·, since, now⟩)).toList ++ past

/-- What a pass that began to wait at `since` makes next of the reads that it has made. -/
def Stands (s : Settings) (past : List Stint) (since : Nat) (p : Pass) : Prop :=
  match p.phase with
  | .scanning => p.failures = streak past ∧ ∀ found, Ensues s past (.scan p.offset found) since
  | .backingOff => ∃ a rest cause, past = a :: rest ∧ a.read = .scan p.offset (.error cause) ∧
      cause.transient = true ∧ a.ended = since ∧ p.failures = streak past
  | .resting => ∃ a rest, past = a :: rest ∧ a.read = .scan p.offset (.ok []) ∧ a.ended = since ∧
      p.failures = streak past
  | .checking batch => p.failures = streak past ∧ position past = p.offset ∧
      ∀ failure, Ensues s past (.lookUp batch failure) since
  | .publishing size _ => ∃ a rest batch, past = a :: rest ∧ a.read = .lookUp batch none ∧
      batch.length = size ∧ a.ended ≤ since ∧ position rest = p.offset ∧ p.failures = streak past
  | .finished | .failed _ => True

theorem stands_start (s : Settings) (kind : Kind) : (start kind).Stands s [] 0 := ⟨rfl, fun _ => .first⟩

theorem stands_moveOn {size : Nat} (failures : p.failures = streak past)
    (onward : ∀ found, Ensues s past (.scan (p.offset + size) found) since) :
    (p.moveOn size).Stands s past since := ⟨failures, onward⟩

theorem Stands.scanned (stands : p.Stands s past since) (phase : p.phase = .scanning)
    (found : Except StoreError (List Interactive)) :
    (p.onScan s found).1.Stands s (⟨.scan p.offset found, since, now⟩ :: past) now := by
  obtain ⟨failures, -⟩ : p.failures = streak past ∧ _ := by simpa only [Stands, phase] using stands
  match found with
  | .error cause =>
    by_cases transient : cause.transient = true
    · simp [onScan, transient, Stands, streak, failures]
    · simp [onScan, transient, Stands]
  | .ok [] =>
    by_cases once : s.interval = .zero
    · simp [onScan, once, Stands]
    · simp [onScan, once, Stands, streak]
  | .ok (first :: rest) =>
    exact ⟨rfl, rfl, fun _ => .lookedUp rfl (List.cons_ne_nil first rest)⟩

theorem Stands.checked {batch : List Interactive} (stands : p.Stands s past since)
    (phase : p.phase = .checking batch) (v : Verdict) :
    (p.onCheck s batch (.ok v)).1.Stands s (⟨.lookUp batch none, since, now⟩ :: past) now := by
  obtain ⟨failures, place, -⟩ : p.failures = streak past ∧ position past = p.offset ∧ _ := by
    simpa only [Stands, phase] using stands
  obtain ⟨drift, ids⟩ := v
  cases ids with
  | nil => exact stands_moveOn failures fun _ => place ▸ .published rfl (Nat.le_refl now)
  | cons id ids => exact ⟨_, past, batch, rfl, rfl, rfl, Nat.le_refl now, place, failures⟩

theorem Stands.unchecked {batch : List Interactive} (stands : p.Stands s past since)
    (phase : p.phase = .checking batch) (cause : StoreError) :
    (p.onCheck s batch (.error cause)).1.Stands s (⟨.lookUp batch (some cause), since, now⟩ :: past) now := by
  obtain ⟨failures, place, -⟩ : p.failures = streak past ∧ position past = p.offset ∧ _ := by
    simpa only [Stands, phase] using stands
  by_cases transient : cause.transient = true
  · simp only [onCheck, transient, if_pos]
    exact stands_moveOn failures fun _ => place ▸ .passedOver rfl transient
  · simp [onCheck, transient, Stands]

/-- The read after a delay begins when the delay is over that belongs to the length of the streak. -/
theorem Stands.rested (stands : p.Stands s past since) (elapsed : p.timer? s = some (now - since))
    (later : since ≤ now) (phase : p.phase = .backingOff ∨ p.phase = .resting) :
    Stands s past now { p with phase := .scanning } := by
  rcases phase with phase | phase
  · simp only [Stands, timer?, phase, delay, Option.some.injEq] at stands elapsed
    obtain ⟨a, rest, cause, rfl, failed, transient, rfl, failures⟩ := stands
    refine ⟨failures, fun _ => .again failed transient fun few => ?_⟩
    rw [← Doubling.nanos_delay_backoff _ few, ← failures, elapsed]
    omega
  · simp only [Stands, timer?, phase, delay, Option.some.injEq] at stands elapsed
    obtain ⟨a, rest, rfl, exhausted, rfl, failures⟩ := stands
    refine ⟨failures, fun _ => ?_⟩
    have pause : now = a.ended + s.interval.nanos := by omega
    exact pause ▸ .rested exhausted

theorem Stands.published {size : Nat} {burst : Burst} (stands : p.Stands s past since) (later : since ≤ now)
    (phase : p.phase = .publishing size burst) (e : Event) (succeeded : Bool) :
    (p.onPublished e succeeded).1.Stands s past now := by
  simp only [Stands, phase] at stands
  obtain ⟨a, rest, batch, rfl, done, rfl, earlier, place, failures⟩ := stands
  by_cases through : (burst.settle e).finished = true
  · simp only [onPublished, phase, through, if_pos]
    exact stands_moveOn failures fun _ => place ▸ .published done (earlier.trans later)
  · simp only [onPublished, phase, through]
    exact ⟨a, rest, batch, rfl, done, rfl, earlier.trans later, place, failures⟩

theorem Stands.scheduled (stands : p.Stands s past since) (scheduled : Scheduled s past)
    (step : p.Response s t i q) : Scheduled s (p.stints s t past since now i) := by
  cases step with
  | scanned phase | unscanned phase =>
    simp only [stints, read?, phase]
    simp only [Stands, phase] at stands
    exact .cons scheduled (stands.2 _)
  | checked phase | unchecked phase =>
    simp only [stints, read?, phase]
    simp only [Stands, phase] at stands
    exact .cons scheduled (stands.2.2 _)
  | rested | published | calledOff => exact scheduled

/-- A pass to which something happens is not through. -/
theorem alive_of_advance (made : p.advance s t i = some q) :
    p.phase ≠ .finished ∧ ∀ e, p.phase ≠ .failed e := by
  constructor
  · intro through
    cases i <;> simp [advance, through] at made
  · intro e failed
    cases i <;> simp [advance, failed] at made

theorem Stands.advance (stands : p.Stands s past since) (later : since ≤ now)
    (punctual : i matches .rested → p.timer? s = some (now - since)) (step : p.Response s t i q) :
    q.1.Stands s (p.stints s t past since now i) now := by
  cases step with
  | scanned phase | unscanned phase =>
    simp only [stints, read?, phase]
    exact stands.scanned phase _
  | @checked batch phase =>
    obtain ⟨v, answered, -⟩ := check_answered s t p batch
    simp only [stints, read?, phase, answered]
    exact stands.checked phase v
  | unchecked phase cause =>
    simp only [stints, read?, phase]
    exact stands.unchecked phase cause
  | rested phase => exact stands.rested (punctual rfl) later phase
  | published phase member succeeded => exact stands.published later phase _ succeeded
  | calledOff => trivial

end Pass

/-- Backoff bounds that make sense, with nothing added to a delay at random. -/
structure Settings.Regular (s : Settings) : Prop where
  sane : s.flaw = none
  plain : s.backoff.jitter = 0

/-- A comparison, the time, since when each pass has been waiting, and the reads of each, the latest first. -/
structure Timed where
  course : Course
  now : Nat
  since : Kind → Nat
  stints : Kind → List Stint

namespace Timed

/-- An incident of one of the passes, with its time and what the stores hold by then. -/
structure Move where
  time : Nat
  tables : Tables
  kind : Kind
  incident : Incident

def start : Timed := ⟨.start, 0, fun _ => 0, fun _ => []⟩

def pass (x : Timed) (kind : Kind) : Pass := x.course.session.pass kind

/-- The time that a pass has set itself. -/
def due (s : Settings) (x : Timed) (kind : Kind) : Option Nat :=
  ((x.pass kind).timer? s).map (x.since kind + ·)

/-- Time does not run backwards, nor past a time that a pass has set itself; a delay or a pause ends when its
time has come. -/
def Punctual (s : Settings) (x : Timed) (m : Move) : Prop :=
  x.now ≤ m.time ∧ (∀ time ∈ x.due s .baseToTarget, m.time ≤ time) ∧
    (∀ time ∈ x.due s .targetToBase, m.time ≤ time) ∧
    (m.incident matches .rested → x.due s m.kind = some m.time)

instance (s : Settings) (x : Timed) (m : Move) : Decidable (x.Punctual s m) :=
  inferInstanceAs (Decidable (_ ∧ _))

def after (s : Settings) (x : Timed) (m : Move) (course : Course) : Timed where
  course
  now := m.time
  since := Function.update x.since m.kind m.time
  stints := Function.update x.stints m.kind
    ((x.pass m.kind).stints s m.tables (x.stints m.kind) (x.since m.kind) m.time m.incident)

def advance (s : Settings) (x : Timed) (m : Move) : Option Timed :=
  if x.Punctual s m then (x.course.advance s m.tables (m.kind, m.incident)).map (x.after s m) else none

def follow (s : Settings) : Timed → List Move → Option Timed
  | x, [] => some x
  | x, m :: rest => (x.advance s m).bind fun x => x.follow s rest

variable {s : Settings} {x y z : Timed} {m : Move} {moves : List Move} {kind : Kind}

theorem follows : Follows (advance s) (follow s) := ⟨fun _ => rfl, fun _ _ _ => rfl⟩

theorem Punctual.le_due (punctual : x.Punctual s m) {time : Nat} (set : x.due s kind = some time) :
    m.time ≤ time := by
  obtain ⟨-, forward, backward, -⟩ := punctual
  cases kind with
  | baseToTarget => exact forward time set
  | targetToBase => exact backward time set

theorem Punctual.timer_eq (punctual : x.Punctual s m) (rested : m.incident matches .rested) :
    (x.pass m.kind).timer? s = some (m.time - x.since m.kind) := by
  obtain ⟨length, set, elapsed⟩ := Option.map_eq_some_iff.1 (punctual.2.2.2 rested)
  rw [set, ← elapsed, Nat.add_sub_cancel_left]

/-- A move is an incident of one pass at its time, and leaves the other pass alone. -/
structure Moved (s : Settings) (x : Timed) (m : Move) (q : Pass × List Note) (y : Timed) : Prop where
  punctual : x.Punctual s m
  running : x.course.outcome s = none
  made : (x.pass m.kind).advance s m.tables m.incident = some q
  now : y.now = m.time
  pass : y.pass m.kind = q.1
  since : y.since m.kind = m.time
  stints : y.stints m.kind =
    (x.pass m.kind).stints s m.tables (x.stints m.kind) (x.since m.kind) m.time m.incident
  other : ∀ j ≠ m.kind, y.pass j = x.pass j ∧ y.since j = x.since j ∧ y.stints j = x.stints j

theorem moved_of_advance (step : x.advance s m = some y) : ∃ q, x.Moved s m q y := by
  obtain ⟨punctual, step⟩ := Option.ite_none_right_eq_some.1 step
  obtain ⟨course, moved, rfl⟩ := Option.map_eq_some_iff.1 step
  obtain ⟨running, -⟩ := Course.advance_eq_some moved
  rw [Course.advance, running] at moved
  obtain ⟨q, made, rfl⟩ := Option.map_eq_some_iff.1 moved
  refine ⟨q, punctual, running, made, rfl, ?_, ?_, ?_, fun j other => ⟨?_, ?_, ?_⟩⟩
  · exact Session.pass_setPass_self ..
  · exact Function.update_self ..
  · exact Function.update_self ..
  · exact Session.pass_setPass_of_ne _ _ other
  · exact Function.update_of_ne other ..
  · exact Function.update_of_ne other ..

theorem Moved.step {q : Pass × List Note} (moved : x.Moved s m q y) :
    (x.pass m.kind).Response s m.tables m.incident q := Pass.response_of_advance moved.made

/-- A pass has kept to the timetable, and no time that it has set itself is past. -/
structure Kept (s : Settings) (x : Timed) (kind : Kind) : Prop where
  stands : (x.pass kind).Stands s (x.stints kind) (x.since kind)
  scheduled : Scheduled s (x.stints kind)
  since : x.since kind ≤ x.now
  due : ∀ time, x.due s kind = some time → x.now ≤ time

theorem kept_start (s : Settings) (kind : Kind) : start.Kept s kind := by
  cases kind <;> exact ⟨Pass.stands_start s _, .nil, Nat.le_refl 0, fun _ set => by cases set⟩

theorem Kept.own {q : Pass × List Note} (kept : x.Kept s m.kind) (moved : x.Moved s m q y) :
    y.Kept s m.kind := by
  have later : x.since m.kind ≤ m.time := kept.since.trans moved.punctual.1
  refine ⟨?_, ?_, ?_, fun time set => ?_⟩
  · rw [moved.pass, moved.stints, moved.since]
    exact kept.stands.advance later moved.punctual.timer_eq moved.step
  · rw [moved.stints]
    exact kept.stands.scheduled kept.scheduled moved.step
  · rw [moved.since, moved.now]
  · obtain ⟨length, -, rfl⟩ := Option.map_eq_some_iff.1 set
    rw [moved.since, moved.now]
    exact Nat.le_add_right ..

theorem Kept.aside {q : Pass × List Note} (kept : x.Kept s kind) (moved : x.Moved s m q y)
    (other : kind ≠ m.kind) : y.Kept s kind := by
  obtain ⟨pass, since, stints⟩ := moved.other kind other
  have due : y.due s kind = x.due s kind := by rw [Timed.due, pass, since, Timed.due]
  refine ⟨?_, ?_, ?_, fun time set => ?_⟩
  · rw [pass, since, stints]
    exact kept.stands
  · rw [stints]
    exact kept.scheduled
  · rw [since, moved.now]
    exact kept.since.trans moved.punctual.1
  · rw [moved.now]
    exact moved.punctual.le_due (due ▸ set)

theorem Kept.follow (run : start.follow s moves = some x) (kind : Kind) : x.Kept s kind := by
  refine follows.invariant (P := fun x => ∀ kind, x.Kept s kind) (fun m _ x y kept step => ?_)
    (kept_start s) run kind
  obtain ⟨q, moved⟩ := moved_of_advance step
  intro j
  rcases eq_or_ne j m.kind with rfl | other
  · exact (kept m.kind).own moved
  · exact (kept j).aside moved other

/-- What a pass waits for whose scan has failed: that its delay is over, which belongs to the length of the
streak. No time passes beyond that; nothing else happens to the pass, unless the comparison is called off; and
then it scans again from where it was. -/
structure Waits (s : Settings) (x : Timed) (kind : Kind) (due : Nat) : Prop where
  set : x.due s kind = some due
  long : streak (x.stints kind) ≤ 32 → ∃ a ∈ (x.stints kind).head?,
    due = a.ended + Doubling.nanos s.backoff.min s.backoff.max (streak (x.stints kind))
  still : ∀ m y, x.advance s m = some y → m.time ≤ due
  next : ∀ m y, x.advance s m = some y → m.kind = kind → (m.incident matches .calledOff) ∨
    m.time = due ∧ y.pass kind = { x.pass kind with phase := .scanning }
  elapsed : (∀ j e, (x.pass j).phase ≠ .failed e) → ∃ m y, x.advance s m = some y ∧ m.incident matches .rested

/-- Of the times that passes have set themselves one comes first. -/
theorem exists_earliest {time : Nat} (set : x.due s kind = some time) :
    ∃ j first, x.due s j = some first ∧ ∀ k later, x.due s k = some later → first ≤ later := by
  cases forward : x.due s .baseToTarget with
  | none =>
    refine ⟨kind, time, set, fun k later known => ?_⟩
    cases kind <;> cases k <;> simp_all
  | some one =>
    cases backward : x.due s .targetToBase with
    | none =>
      refine ⟨.baseToTarget, one, forward, fun k later known => ?_⟩
      cases k <;> simp_all
    | some two =>
      rcases Nat.le_total one two with before | before
      · refine ⟨.baseToTarget, one, forward, fun k later known => ?_⟩
        cases k <;> simp_all
      · refine ⟨.targetToBase, two, backward, fun k later known => ?_⟩
        cases k <;> simp_all

theorem isSome_advance_rested {time : Nat} (running : x.course.outcome s = none)
    (set : x.due s kind = some time) (due : x.now ≤ time)
    (first : ∀ k later, x.due s k = some later → time ≤ later) (tables : Tables) :
    (x.advance s ⟨time, tables, kind, .rested⟩).isSome = true := by
  have punctual : x.Punctual s ⟨time, tables, kind, .rested⟩ :=
    ⟨due, fun later known => first _ later known, fun later known => first _ later known, fun _ => set⟩
  obtain ⟨length, timer, -⟩ := Option.map_eq_some_iff.1 set
  have rests : ((x.pass kind).advance s tables .rested).isSome = true := by
    cases phase : (x.pass kind).phase <;> simp [Pass.timer?, Pass.advance, phase] at timer ⊢
  rw [advance, if_pos punctual, Option.isSome_map, Course.advance, running, Option.isSome_map]
  exact rests

theorem exists_waits (kept : ∀ kind, x.Kept s kind) (sane : s.flaw = none)
    (waiting : (x.pass kind).phase = .backingOff) : ∃ due, x.Waits s kind due := by
  have stands := (kept kind).stands
  simp only [Pass.Stands, waiting] at stands
  obtain ⟨a, rest, cause, reads, failed, transient, ended, failures⟩ := stands
  have set : x.due s kind = some (x.since kind + (s.backoff.delay (x.pass kind).failures).nanos) := by
    simp [due, Pass.timer?, Pass.delay, waiting]
  refine ⟨_, set, fun few => ⟨a, by simp [reads], ?_⟩, fun m y step => ?_, fun m y step own => ?_,
    fun healthy => ?_⟩
  · rw [← ended, failures, Doubling.nanos_delay_backoff _ few]
  · obtain ⟨q, moved⟩ := moved_of_advance step
    exact moved.punctual.le_due set
  · obtain ⟨q, moved⟩ := moved_of_advance step
    subst own
    obtain ⟨time, tables, kind, incident⟩ := m
    have pass := moved.pass
    have punctual := moved.punctual
    have here := moved.step
    cases here with
    | rested phase =>
      exact .inr ⟨Option.some.inj ((punctual.2.2.2 rfl).symm.trans set), pass⟩
    | calledOff => exact .inl rfl
    | scanned phase | unscanned phase | checked phase | unchecked phase | published phase =>
      cases waiting.symm.trans phase
  · have busy : (x.pass kind).phase ≠ .finished := by
      intro through
      cases waiting.symm.trans through
    have running := Course.outcome_eq_none_of_busy sane healthy busy
    obtain ⟨j, first, known, least⟩ := exists_earliest set
    obtain ⟨y, step⟩ := Option.isSome_iff_exists.1
      (isSome_advance_rested running known ((kept j).due first known) least fun _ => .empty)
    exact ⟨_, y, step, rfl⟩

section Alone

/-- One pass is where it would be had the other never begun. -/
structure Beside (kind : Kind) (x y : Timed) : Prop where
  pass : y.pass kind = x.pass kind
  since : y.since kind = x.since kind
  stints : y.stints kind = x.stints kind
  now : y.now ≤ x.now
  idle : ∀ j ≠ kind, (y.pass j).phase = .scanning

variable {x' : Timed}

theorem Beside.aside (beside : Beside kind x y) (step : x.advance s m = some x') (other : kind ≠ m.kind) :
    Beside kind x' y := by
  obtain ⟨q, moved⟩ := moved_of_advance step
  obtain ⟨pass, since, stints⟩ := moved.other kind other
  refine ⟨?_, ?_, ?_, ?_, beside.idle⟩
  · rw [beside.pass, pass]
  · rw [beside.since, since]
  · rw [beside.stints, stints]
  · rw [moved.now]
    exact beside.now.trans moved.punctual.1

theorem Beside.punctual (beside : Beside m.kind x y) (punctual : x.Punctual s m) : y.Punctual s m := by
  have same : y.due s m.kind = x.due s m.kind := by rw [due, beside.pass, beside.since, due]
  have heeds (k : Kind) (time : Nat) (set : y.due s k = some time) : m.time ≤ time := by
    rcases eq_or_ne k m.kind with rfl | other
    · exact punctual.le_due (same ▸ set)
    · simp [due, Pass.timer?, beside.idle k other] at set
  refine ⟨beside.now.trans punctual.1, heeds .baseToTarget, heeds .targetToBase, fun rested => ?_⟩
  exact same.trans (punctual.2.2.2 rested)

theorem Beside.own (beside : Beside m.kind x y) (step : x.advance s m = some x') :
    ∃ y', y.advance s m = some y' ∧ Beside m.kind x' y' := by
  obtain ⟨q, moved⟩ := moved_of_advance step
  have made : (y.pass m.kind).advance s m.tables m.incident = some q := beside.pass ▸ moved.made
  obtain ⟨busy, sound⟩ := Pass.alive_of_advance made
  have sane := x.course.flaw_eq_none (s := s) (by simp [moved.running])
  have healthy (k : Kind) (e : Error) : (y.pass k).phase ≠ .failed e := by
    rcases eq_or_ne k m.kind with rfl | other
    · exact sound e
    · simp [beside.idle k other]
  have running : y.course.outcome s = none := Course.outcome_eq_none_of_busy sane healthy busy
  have goes : (y.advance s m).isSome = true := by
    rw [advance, if_pos (beside.punctual moved.punctual), Option.isSome_map, Course.advance, running,
      Option.isSome_map]
    exact Option.isSome_iff_exists.2 ⟨q, made⟩
  obtain ⟨y', taken⟩ := Option.isSome_iff_exists.1 goes
  obtain ⟨r, also⟩ := moved_of_advance taken
  obtain rfl : q = r := Option.some.inj (made.symm.trans also.made)
  refine ⟨y', taken, ?_, ?_, ?_, ?_, fun j other => ?_⟩
  · rw [also.pass, moved.pass]
  · rw [also.since, moved.since]
  · rw [also.stints, moved.stints, beside.pass, beside.since, beside.stints]
  · rw [also.now, moved.now]
  · rw [(also.other j other).1]
    exact beside.idle j other

theorem Beside.follow (beside : Beside kind x y) (run : x.follow s moves = some x') :
    ∃ y', y.follow s (moves.filter (·.kind = kind)) = some y' ∧ Beside kind x' y' := by
  induction moves generalizing x y with
  | nil =>
    cases run
    exact ⟨y, rfl, beside⟩
  | cons m rest ih =>
    obtain ⟨next, step, run⟩ := Option.bind_eq_some_iff.1 run
    by_cases own : m.kind = kind
    · subst own
      obtain ⟨y', taken, there⟩ := beside.own step
      rw [List.filter_cons_of_pos (by simp), Timed.follow, taken, Option.bind_some]
      exact ih there run
    · rw [List.filter_cons_of_neg (by simpa using own)]
      exact ih (beside.aside step (Ne.symm own)) run

theorem beside_start (kind : Kind) : Beside kind start start :=
  ⟨rfl, rfl, rfl, Nat.le_refl 0, fun j _ => by cases j <;> rfl⟩

end Alone

/-- Whatever reads come to and whenever they end, each pass keeps to the timetable. After the `k`-th scan in a
row that has failed it waits for the `k`-th delay, no more and no less, and scans again from the same offset;
a scan that has not failed, be there anything to be found or not, puts an end to the streak; a look-up that has
failed neither is waited after nor counts. And the reads of either pass are those that it would make, at the
same times, if there were no other. -/
theorem retried_on_schedule (regular : s.Regular) (run : start.follow s moves = some x) (kind : Kind) :
    Scheduled s (x.stints kind) ∧
    ((x.pass kind).phase = .backingOff → ∃ due, x.Waits s kind due) ∧
    ∃ y, start.follow s (moves.filter (·.kind = kind)) = some y ∧ y.stints kind = x.stints kind := by
  refine ⟨(Kept.follow run kind).scheduled, exists_waits (Kept.follow run) regular.sane, ?_⟩
  obtain ⟨y, alone, beside⟩ := (beside_start kind).follow run
  exact ⟨y, alone, beside.stints⟩

/-- Delays of 100 ms, 200 ms and from then on 250 ms. -/
def brief : Settings :=
  { Settings.whole .src { Tuning.standard with batchSize := 2 } with backoff := ⟨.ofMillis 100, .ofMillis 250, 0⟩ }

/-- The forward pass fails to scan three times, and again after a page that could not be looked up; meanwhile
the backward pass fails to scan once. Times are in milliseconds. -/
def hitches : List Move :=
  let away : StoreError := .unavailable "src"
  [(5, .baseToTarget, .failed away), (60, .targetToBase, .failed away), (105, .baseToTarget, .rested),
    (106, .baseToTarget, .failed away), (160, .targetToBase, .rested), (306, .baseToTarget, .rested),
    (310, .baseToTarget, .failed away), (560, .baseToTarget, .rested), (561, .baseToTarget, .answered),
    (564, .baseToTarget, .failed away), (570, .baseToTarget, .failed away),
    (670, .baseToTarget, .rested)].map fun (time, kind, incident) =>
      ⟨time * 1000000, Course.staleCopy, kind, incident⟩

theorem retried_on_schedule_hitches : brief.Regular ∧ ∃ x, start.follow brief hitches = some x ∧
    Scheduled brief (x.stints .baseToTarget) ∧
    (x.stints .baseToTarget).reverse.map (fun a => (a.began / 1000000, a.ended / 1000000)) =
      [(0, 5), (105, 106), (306, 310), (560, 561), (561, 564), (564, 570)] ∧
    (x.pass .baseToTarget).failures = 1 := by
  have regular : brief.Regular := ⟨by decide, by decide⟩
  have reached : (start.follow brief hitches).map (fun x =>
      ((x.stints .baseToTarget).reverse.map (fun a => (a.began / 1000000, a.ended / 1000000)),
        (x.pass .baseToTarget).failures)) =
      some ([(0, 5), (105, 106), (306, 310), (560, 561), (561, 564), (564, 570)], 1) := by decide
  obtain ⟨x, run, known⟩ := Option.map_eq_some_iff.1 reached
  obtain ⟨times, failures⟩ := Prod.mk.inj known
  exact ⟨regular, x, run, (retried_on_schedule regular run .baseToTarget).1, times, failures⟩

end Timed
end Cutover.Validation
