import Cutover.Proofs.Metrics
import Cutover.Proofs.Run
import Cutover.Proofs.Validation.Detection
import Cutover.Proofs.Validation.Paging

/-! A comparison of two stores at rest, some of whose reads fail and may succeed later. A scan that has failed
is tried again from where it was, so that the pages are met as ever; a page that could not be looked up is
passed over, and all that is lost are the events of such pages. An error that no retry mends ends the
comparison at once. -/
namespace Cutover.Validation

namespace Incident

def fails : Incident → Bool
  | .failed _ => true
  | _ => false

/-- Nothing is worse than a read that fails and may succeed later. -/
def bearable : Incident → Bool
  | .failed cause => cause.transient
  | i => i.smooth

end Incident

/-- A scan that has ended, with the offset that it began at. -/
structure Scan where
  offset : Nat
  found : Except StoreError (List Interactive)

namespace Scan

def failed (x : Scan) : Bool := x.found matches .error _

/-- Where the pass goes on after the scan. -/
def next (x : Scan) : Nat :=
  match x.found with
  | .ok batch => x.offset + batch.length
  | .error _ => x.offset

/-- Each scan begins where the one before has left off: at the same offset if that has failed. -/
def Retraced : Nat → List Scan → Prop
  | _, [] => True
  | offset, x :: rest => x.offset = offset ∧ Retraced x.next rest

theorem retraced_concat (offset : Nat) (scans : List Scan) (x : Scan) :
    Retraced offset (scans ++ [x]) ↔
      Retraced offset scans ∧ x.offset = scans.foldl (fun _ y => y.next) offset := by
  induction scans generalizing offset with
  | nil => simp [Retraced]
  | cons y rest ih => simp [Retraced, ih, and_assoc]

end Scan

structure LookUp where
  batch : List Interactive
  failed : Bool

/-- The reads of one pass that have ended, in their order. -/
structure Journal where
  scans : List Scan
  lookUps : List LookUp

namespace Journal

def failures (j : Journal) : Nat := j.scans.countP (·.failed) + j.lookUps.countP (·.failed)

/-- The batches that could not be looked up. -/
def skipped (j : Journal) : List (List Interactive) := (j.lookUps.filter (·.failed)).map (·.batch)

def scan (j : Journal) (x : Scan) : Journal := { j with scans := j.scans ++ [x] }

def lookUp (j : Journal) (x : LookUp) : Journal := { j with lookUps := j.lookUps ++ [x] }

end Journal

namespace Pass

variable {s : Settings} {t : Tables} {p : Pass} {i : Incident} {m : Pass × List Note} {j : Journal}
  {notes : List Note}

/-- Notes the read that comes to its end with an incident. -/
def record (s : Settings) (t : Tables) (p : Pass) (j : Journal) : Incident → Journal
  | .answered =>
    match p.phase with
    | .scanning => j.scan ⟨p.offset, ((p.scan s).run Tables.answer t).1⟩
    | .checking batch => j.lookUp ⟨batch, false⟩
    | _ => j
  | .failed cause =>
    match p.phase with
    | .scanning => j.scan ⟨p.offset, .error cause⟩
    | .checking batch => j.lookUp ⟨batch, true⟩
    | _ => j
  | _ => j

section Debt

/-- The pass as it is when its delay is over. -/
def resumed (p : Pass) : Pass :=
  match p.phase with
  | .backingOff => { p with phase := .scanning }
  | _ => p

def effort (s : Settings) (t : Tables) (p : Pass) : Nat :=
  match p.phase with
  | .backingOff => p.resumed.load s t + 1
  | _ => p.load s t

/-- The events that are given up when a look-up fails. -/
def forgone (s : Settings) (t : Tables) (p : Pass) : Incident → List Event
  | .failed _ =>
    match p.phase with
    | .checking batch => s.findings t p.kind batch
    | _ => []
  | _ => []

theorem resumed_eq (here : p.phase ≠ .backingOff) : p.resumed = p := by
  cases phase : p.phase <;> simp_all [resumed]

theorem effort_eq (here : p.phase ≠ .backingOff) : p.effort s t = p.load s t := by
  cases phase : p.phase <;> simp_all [effort]

/-- What a step does that may be a failure: it pays what it publishes and gives up off the debt, and a failure
costs two steps at most. -/
structure Borne (s : Settings) (t : Tables) (p : Pass) (i : Incident) (q : Pass) : Prop where
  sound : q.resumed.Sound s t
  kind : q.kind = p.kind
  due : (p.resumed.due s t).Perm (i.news ++ (p.forgone s t i ++ q.resumed.due s t))
  effort : q.effort s t < p.effort s t + if i.fails then 2 else 0

theorem Advanced.borne {q : Pass} (advanced : Advanced s t p i.news q) (here : p.phase ≠ .backingOff)
    (fine : i.fails = false) : Borne s t p i q := by
  obtain ⟨sound, kind, due, load⟩ := advanced
  have there : q.phase ≠ .backingOff := by
    intro waiting
    simp [Sound, waiting] at sound
  have nothing : p.forgone s t i = [] := by cases i <;> simp_all [forgone, Incident.fails]
  refine ⟨?_, kind, ?_, ?_⟩
  · rwa [resumed_eq there]
  · rwa [resumed_eq there, resumed_eq here, nothing, List.nil_append]
  · rw [effort_eq there, effort_eq here]
    omega

theorem borne_unscanned {cause : StoreError} (transient : cause.transient = true)
    (phase : p.phase = .scanning) : Borne s t p (.failed cause) (p.onScan s (.error cause)).1 := by
  constructor <;>
    simp [onScan, transient, resumed, phase, Sound, due, forgone, Incident.news, effort, load, Incident.fails]

theorem borne_unchecked {cause : StoreError} {batch : List Interactive} (transient : cause.transient = true)
    (phase : p.phase = .checking batch) : Borne s t p (.failed cause) (p.onCheck s batch (.error cause)).1 := by
  constructor <;>
    simp [onCheck, transient, resumed, phase, moveOn, Sound, due, forgone, Incident.news, effort, load,
      Incident.fails]
  omega

theorem borne_rested (phase : p.phase = .backingOff) :
    Borne s t p .rested { p with phase := .scanning } := by
  constructor <;>
    simp [resumed, phase, Sound, due, forgone, Incident.news, effort, load, Incident.fails]

theorem borne_of_bearable (positive : 1 ≤ s.batchSize) (once : s.interval = .zero)
    (sound : p.resumed.Sound s t) (bearable : i.bearable = true) (step : p.Response s t i m) :
    Borne s t p i m.1 := by
  have steady (here : p.phase ≠ .backingOff) : p.Sound s t := by rwa [resumed_eq here] at sound
  cases step with
  | scanned phase => exact (advanced_scanning positive once phase).borne (by simp [phase]) rfl
  | unscanned phase cause => exact borne_unscanned bearable phase
  | checked phase =>
    exact (advanced_checking (steady (by simp [phase])) phase).borne (by simp [phase]) rfl
  | unchecked phase cause => exact borne_unchecked bearable phase
  | rested phase =>
    rcases phase with phase | phase
    · exact borne_rested phase
    · simp [resumed, phase, Sound] at sound
  | published phase member succeeded =>
    cases succeeded with
    | true => exact (advanced_publishing (steady (by simp [phase])) phase member).borne (by simp [phase]) rfl
    | false => cases bearable
  | calledOff => cases bearable

theorem exists_smooth_of_resumed (sound : p.resumed.Sound s t) :
    p.phase = .finished ∨ ∃ i, i.smooth = true ∧ (p.advance s t i).isSome = true := by
  by_cases waiting : p.phase = .backingOff
  · exact .inr ⟨.rested, rfl, by simp [advance, waiting]⟩
  · rw [resumed_eq waiting] at sound
    exact exists_smooth sound

end Debt

section Record

/-- The pages that have not been looked up. -/
def upcoming (s : Settings) (t : Tables) (p : Pass) : List (List Interactive) :=
  match p.phase with
  | .scanning | .backingOff => pages s.batchSize ((s.extent t p.kind).drop p.offset)
  | .checking batch => batch :: pages s.batchSize ((s.extent t p.kind).drop (p.offset + batch.length))
  | .publishing size _ => pages s.batchSize ((s.extent t p.kind).drop (p.offset + size))
  | .resting | .finished | .failed _ => []

/-- Whether a batch was looked up and is not done with. -/
def inHand (p : Pass) : Nat :=
  match p.phase with
  | .publishing .. => 1
  | _ => 0

/-- What the journal and the notes tell of a pass. -/
structure Recorded (s : Settings) (t : Tables) (notes : List Note) (j : Journal) (p : Pass) : Prop where
  visited : j.lookUps.map (·.batch) ++ p.upcoming s t = pages s.batchSize (s.extent t p.kind)
  retraced : Scan.Retraced 0 j.scans
  resumes : p.phase = .finished ∨ p.passed = j.scans.foldl (fun _ x => x.next) 0
  failures : notes.count (.readFailure p.kind) = j.failures
  batches : notes.count (.batch p.kind) + p.inHand = j.lookUps.length

theorem Recorded.offset_eq (recorded : Recorded s t notes j p)
    (phase : p.phase = .scanning) : p.offset = j.scans.foldl (fun _ x => x.next) 0 := by
  simpa [phase, passed] using recorded.resumes

theorem Recorded.scanned (positive : 1 ≤ s.batchSize) (once : s.interval = .zero)
    (recorded : Recorded s t notes j p) (phase : p.phase = .scanning) :
    Recorded s t (notes ++ (p.onScan s (.ok (p.page s t))).2) (j.scan ⟨p.offset, .ok (p.page s t)⟩)
      (p.onScan s (.ok (p.page s t))).1 := by
  have here := recorded.offset_eq phase
  obtain ⟨visited, retraced, -, failures, batches⟩ := recorded
  have again := (Scan.retraced_concat 0 j.scans ⟨p.offset, .ok (p.page s t)⟩).2 ⟨retraced, here⟩
  simp only [upcoming, phase, inHand] at visited batches
  cases found : p.page s t with
  | nil =>
    have nothing := drop_eq_nil_of_page positive found
    rw [nothing, pages_nil] at visited
    rw [found] at again
    exact ⟨by simpa [onScan, once, upcoming, Journal.scan] using visited, again,
      .inl (by simp [onScan, once]),
      by simpa [onScan, Journal.scan, Journal.failures, Scan.failed] using failures,
      by simpa [onScan, once, inHand, Journal.scan] using batches⟩
  | cons first rest =>
    rw [pages_of_page positive (by simp [found]), found] at visited
    rw [found] at again
    exact ⟨by simpa [onScan, upcoming, Journal.scan] using visited, again,
      .inr (by simp [onScan, passed, Journal.scan, Scan.next]),
      by simpa [onScan, Journal.scan, Journal.failures, Scan.failed] using failures,
      by simpa [onScan, inHand, Journal.scan] using batches⟩

theorem Recorded.unscanned {cause : StoreError} (transient : cause.transient = true)
    (recorded : Recorded s t notes j p) (phase : p.phase = .scanning) :
    Recorded s t (notes ++ (p.onScan s (.error cause)).2) (j.scan ⟨p.offset, .error cause⟩)
      (p.onScan s (.error cause)).1 := by
  have here := recorded.offset_eq phase
  obtain ⟨visited, retraced, -, failures, batches⟩ := recorded
  have again := (Scan.retraced_concat 0 j.scans ⟨p.offset, .error cause⟩).2 ⟨retraced, here⟩
  simp only [upcoming, phase, inHand, Journal.failures] at visited batches failures
  refine ⟨by simpa [onScan, transient, upcoming, Journal.scan] using visited, again, ?_, ?_, ?_⟩
  · exact .inr (by simp [onScan, transient, passed, Journal.scan, Scan.next])
  · simp [onScan, transient, Journal.scan, Journal.failures, Scan.failed] at failures ⊢
    omega
  · simpa [onScan, transient, inHand, Journal.scan] using batches

theorem Recorded.checked {batch : List Interactive} (recorded : Recorded s t notes j p)
    (phase : p.phase = .checking batch) (v : Verdict) :
    Recorded s t (notes ++ (p.onCheck s batch (.ok v)).2) (j.lookUp ⟨batch, false⟩)
      (p.onCheck s batch (.ok v)).1 := by
  obtain ⟨visited, retraced, resumes, failures, batches⟩ := recorded
  simp only [upcoming, phase, inHand, passed, reduceCtorEq, false_or] at visited resumes batches
  obtain ⟨drift, ids⟩ := v
  cases ids with
  | nil =>
    refine ⟨by simpa [onCheck, moveOn, upcoming, Journal.lookUp] using visited, retraced, ?_, ?_, ?_⟩
    · exact .inr (by simpa [onCheck, moveOn, passed, Journal.lookUp] using resumes)
    · simpa [onCheck, moveOn, Journal.lookUp, Journal.failures] using failures
    · simpa [onCheck, moveOn, inHand, Journal.lookUp] using batches
  | cons id ids =>
    refine ⟨by simpa [onCheck, upcoming, Journal.lookUp] using visited, retraced, ?_, ?_, ?_⟩
    · exact .inr (by simpa [onCheck, passed, Journal.lookUp] using resumes)
    · simpa [onCheck, Journal.lookUp, Journal.failures] using failures
    · simpa [onCheck, inHand, Journal.lookUp] using batches

theorem Recorded.unchecked {batch : List Interactive} {cause : StoreError}
    (transient : cause.transient = true) (recorded : Recorded s t notes j p)
    (phase : p.phase = .checking batch) :
    Recorded s t (notes ++ (p.onCheck s batch (.error cause)).2) (j.lookUp ⟨batch, true⟩)
      (p.onCheck s batch (.error cause)).1 := by
  obtain ⟨visited, retraced, resumes, failures, batches⟩ := recorded
  simp only [upcoming, phase, inHand, passed, reduceCtorEq, false_or] at visited resumes batches
  refine ⟨by simpa [onCheck, transient, moveOn, upcoming, Journal.lookUp] using visited, retraced, ?_, ?_, ?_⟩
  · exact .inr (by simpa [onCheck, transient, moveOn, passed, Journal.lookUp] using resumes)
  · simp [onCheck, transient, moveOn, Journal.lookUp, Journal.failures] at failures ⊢
    omega
  · simpa [onCheck, transient, moveOn, inHand, Journal.lookUp] using batches

theorem Recorded.published {size : Nat} {burst : Burst} (recorded : Recorded s t notes j p)
    (phase : p.phase = .publishing size burst) (e : Event) :
    Recorded s t (notes ++ (p.onPublished e true).2) j (p.onPublished e true).1 := by
  obtain ⟨visited, retraced, resumes, failures, batches⟩ := recorded
  simp only [upcoming, phase, inHand, passed, reduceCtorEq, false_or] at visited resumes batches
  by_cases through : (burst.settle e).finished = true
  · have onward : p.onPublished e true = (p.moveOn size, [.emitted e.drift, .batch p.kind]) := by
      simp [onPublished, phase, through]
    rw [onward]
    exact ⟨visited, retraced, .inr resumes, by simpa [moveOn] using failures,
      by simpa [moveOn, inHand] using batches⟩
  · have onward : p.onPublished e true =
        ({ p with phase := .publishing size (burst.settle e) }, [.emitted e.drift]) := by
      simp [onPublished, phase, through]
    rw [onward]
    exact ⟨visited, retraced, .inr resumes, by simpa using failures, by simpa [inHand] using batches⟩

theorem Recorded.rested (recorded : Recorded s t notes j p) (phase : p.phase = .backingOff) :
    Recorded s t notes j { p with phase := .scanning } := by
  obtain ⟨visited, retraced, resumes, failures, batches⟩ := recorded
  simp only [upcoming, phase, inHand, passed, reduceCtorEq, false_or] at visited resumes batches
  exact ⟨visited, retraced, .inr resumes, failures, batches⟩

theorem Recorded.advance (positive : 1 ≤ s.batchSize) (once : s.interval = .zero)
    (recorded : Recorded s t notes j p) (sound : p.resumed.Sound s t) (bearable : i.bearable = true)
    (step : p.Response s t i m) : Recorded s t (notes ++ m.2) (p.record s t j i) m.1 := by
  cases step with
  | scanned phase =>
    simp only [record, phase, scan_answered]
    exact recorded.scanned positive once phase
  | unscanned phase cause =>
    simp only [record, phase]
    exact recorded.unscanned bearable phase
  | @checked batch phase =>
    obtain ⟨v, answered, -⟩ := check_answered s t p batch
    simp only [record, phase, answered]
    exact recorded.checked phase v
  | unchecked phase cause =>
    simp only [record, phase]
    exact recorded.unchecked bearable phase
  | rested phase =>
    rcases phase with phase | phase
    · simpa [record] using recorded.rested phase
    · simp [resumed, phase, Sound] at sound
  | published phase member succeeded =>
    cases succeeded with
    | true => exact recorded.published phase _
    | false => cases bearable
  | calledOff => cases bearable

/-- What is noted counts for the pass alone that it happens to. -/
theorem count_of_other (step : p.Response s t i m) {kind : Kind} (other : kind ≠ p.kind) :
    m.2.count (.readFailure kind) = 0 ∧ m.2.count (.batch kind) = 0 := by
  cases step with
  | scanned phase =>
    rw [scan_answered]
    cases ((s.extent t p.kind).drop p.offset).take s.batchSize <;> simp [onScan]
  | unscanned phase cause => by_cases again : cause.transient = true <;> simp [onScan, again, Ne.symm other]
  | @checked batch phase =>
    obtain ⟨⟨drift, ids⟩, answered, -⟩ := check_answered s t p batch
    rw [answered]
    cases ids <;> simp [onCheck, Ne.symm other]
  | unchecked phase cause => by_cases again : cause.transient = true <;> simp [onCheck, again, Ne.symm other]
  | @published _ burst e phase _ succeeded =>
    cases succeeded <;> by_cases through : (burst.settle e).finished = true <;>
      simp [onPublished, phase, through, Ne.symm other]
  | rested | calledOff => simp

theorem Recorded.aside {more : List Note} (recorded : Recorded s t notes j p)
    (silent : more.count (.readFailure p.kind) = 0 ∧ more.count (.batch p.kind) = 0) :
    Recorded s t (notes ++ more) j p := by
  obtain ⟨visited, retraced, resumes, failures, batches⟩ := recorded
  refine ⟨visited, retraced, resumes, ?_, ?_⟩
  · rw [List.count_append, silent.1, failures, Nat.add_zero]
  · rw [List.count_append, silent.2, Nat.add_zero, batches]

theorem skipped_record (s : Settings) (t : Tables) (p : Pass) (j : Journal) (i : Incident) :
    (p.record s t j i).skipped.flatMap (s.findings t p.kind) =
      j.skipped.flatMap (s.findings t p.kind) ++ p.forgone s t i := by
  cases i with
  | answered | failed =>
    cases phase : p.phase <;> simp [record, forgone, phase, Journal.scan, Journal.lookUp, Journal.skipped]
  | rested | published | calledOff => simp [record, forgone]

end Record

/-- The store that the read is put to for which the pass waits. -/
def asked (s : Settings) (p : Pass) : Option Side :=
  match p.phase with
  | .scanning => store? (p.scan s)
  | .checking batch => store? (p.check s batch)
  | _ => none
where
  store? {α : Type} : Dialogue stores α → Option Side
    | .ask q _ => some q.1
    | .done _ => none

theorem phase_of_permanent {cause : StoreError} (permanent : cause.transient = false)
    (step : p.Response s t (.failed cause) m) :
    ∃ side, p.asked s = some side ∧ m.1.phase = .failed (.read side.name cause) := by
  cases step with
  | unscanned phase =>
    refine ⟨p.scanned s, ?_, by simp [onScan, permanent]⟩
    cases kind : p.kind <;> cases mode : s.mode <;> simp only [asked, phase, scan, kind, mode] <;> rfl
  | @unchecked batch phase =>
    refine ⟨p.consulted s, ?_, by simp [onCheck, permanent]⟩
    cases kind : p.kind <;> simp only [asked, phase, check, kind] <;> rfl

end Pass

theorem Kind.name_inj {k l : Kind} : k.name = l.name ↔ k = l := by
  cases k <;> cases l <;> decide

/-- A count of a pass, by all that was noted. -/
def counted (counter : Counter) (kind : Kind) (notes : List Note) : Nat :=
  (notes.foldl Note.count []).value counter.name [("pass", kind.name)]

theorem counted_eq (kind : Kind) (notes : List Note) :
    counted .validatorReadFailures kind notes = notes.count (.readFailure kind) ∧
      counted .validatorBatches kind notes = notes.count (.batch kind) := by
  have each (m : Metrics) (n : Note) :
      (Note.count m n).value Counter.validatorReadFailures.name [("pass", kind.name)] =
        m.value Counter.validatorReadFailures.name [("pass", kind.name)] +
          (if n = .readFailure kind then 1 else 0) ∧
      (Note.count m n).value Counter.validatorBatches.name [("pass", kind.name)] =
        m.value Counter.validatorBatches.name [("pass", kind.name)] + if n = .batch kind then 1 else 0 := by
    cases n with
    | readFailure k =>
      rw [Note.count, Metrics.value_add, Metrics.value_add_of_ne (by decide)]
      simp [Kind.name_inj, eq_comm]
    | batch k =>
      rw [Note.count, Metrics.value_add, Metrics.value_add_of_ne (by decide)]
      simp [Kind.name_inj, eq_comm]
    | emitted | publishFailure =>
      simp only [Note.count]
      rw [Metrics.value_add_of_ne (by decide), Metrics.value_add_of_ne (by decide)]
      simp
  have all (m : Metrics) :
      (notes.foldl Note.count m).value Counter.validatorReadFailures.name [("pass", kind.name)] =
        m.value Counter.validatorReadFailures.name [("pass", kind.name)] + notes.count (.readFailure kind) ∧
      (notes.foldl Note.count m).value Counter.validatorBatches.name [("pass", kind.name)] =
        m.value Counter.validatorBatches.name [("pass", kind.name)] + notes.count (.batch kind) := by
    induction notes generalizing m with
    | nil => simp
    | cons n rest ih =>
      obtain ⟨failures, batches⟩ := ih (Note.count m n)
      obtain ⟨failure, batch⟩ := each m n
      simp only [List.foldl_cons, List.count_cons, beq_iff_eq]
      omega
  simpa [counted, Metrics.value] using all []

/-- A comparison, and the reads of its passes that have ended. -/
structure Chronicle where
  course : Course
  journal : Kind → Journal

namespace Chronicle

def start : Chronicle := ⟨.start, fun _ => ⟨[], []⟩⟩

def advance (s : Settings) (t : Tables) (x : Chronicle) (m : Course.Move) : Option Chronicle :=
  (x.course.advance s t m).map fun course => ⟨course, Function.update x.journal m.1
    ((x.course.session.pass m.1).record s t (x.journal m.1) m.2)⟩

def follow (s : Settings) (t : Tables) : Chronicle → List Course.Move → Option Chronicle
  | x, [] => some x
  | x, m :: rest => (x.advance s t m).bind fun x => x.follow s t rest

def Bearable (schedule : List Course.Move) : Prop := ∀ m ∈ schedule, m.2.bearable = true

instance (schedule : List Course.Move) : Decidable (Bearable schedule) :=
  inferInstanceAs (Decidable (∀ m ∈ schedule, m.2.bearable = true))

def failures (schedule : List Course.Move) : Nat := schedule.countP (·.2.fails)

/-- What the batches are worth that could not be looked up. -/
def lost (s : Settings) (t : Tables) (x : Chronicle) : List Event :=
  (x.journal .baseToTarget).skipped.flatMap (s.findings t .baseToTarget) ++
    (x.journal .targetToBase).skipped.flatMap (s.findings t .targetToBase)

def due (s : Settings) (t : Tables) (x : Chronicle) : List Event :=
  x.course.session.forward.resumed.due s t ++ x.course.session.backward.resumed.due s t

def effort (s : Settings) (t : Tables) (x : Chronicle) : Nat :=
  x.course.session.forward.effort s t + x.course.session.backward.effort s t

variable {s : Settings} {t : Tables} {x y : Chronicle} {m : Course.Move} {schedule : List Course.Move}

/-- A comparison that nothing worse has happened to than failures that pass. -/
structure Sound (s : Settings) (t : Tables) (x : Chronicle) : Prop where
  passes : ∀ kind, (x.course.session.pass kind).resumed.Sound s t
  kinds : ∀ kind, (x.course.session.pass kind).kind = kind
  recorded : ∀ kind, Pass.Recorded s t x.course.notes (x.journal kind) (x.course.session.pass kind)
  balance : (x.course.published ++ x.lost s t ++ x.due s t).Perm
    (s.report t .baseToTarget ++ s.report t .targetToBase)

theorem sound_start (s : Settings) (t : Tables) : start.Sound s t := by
  refine ⟨fun kind => ?_, fun kind => ?_, fun kind => ?_, .refl _⟩
  · cases kind <;> trivial
  · cases kind <;> rfl
  · cases kind <;> exact ⟨rfl, trivial, .inr rfl, rfl, rfl⟩

theorem Sound.advance (once : s.interval = .zero) (sound : x.Sound s t) (bearable : m.2.bearable = true)
    (step : x.advance s t m = some y) :
    y.Sound s t ∧ y.effort s t < x.effort s t + if m.2.fails then 2 else 0 := by
  obtain ⟨kind, i⟩ := m
  obtain ⟨course, moved, rfl⟩ := Option.map_eq_some_iff.1 step
  obtain ⟨running, q, here, rfl⟩ := Course.advance_eq_some moved
  have positive := s.positive_of_flaw (x.course.flaw_eq_none (by simp [running]))
  have borne := Pass.borne_of_bearable positive once (sound.passes kind) bearable here
  have recorded := (sound.recorded kind).advance positive once (sound.passes kind) bearable here
  have skipped := Pass.skipped_record s t (x.course.session.pass kind) (x.journal kind) i
  refine ⟨⟨?_, ?_, ?_, ?_⟩, ?_⟩
  · exact Session.forall_setPass kind (P := fun _ p => p.resumed.Sound s t) sound.passes borne.sound
  · exact Session.forall_setPass kind (P := fun j p => p.kind = j) sound.kinds
      (borne.kind.trans (sound.kinds kind))
  · intro j
    show Pass.Recorded s t (x.course.notes ++ q.2) (Function.update x.journal kind _ j)
      ((x.course.session.setPass q.1 kind).pass j)
    by_cases same : j = kind
    · subst same
      rwa [Function.update_self, Session.pass_setPass_self]
    · rw [Function.update_of_ne same, Session.pass_setPass_of_ne _ _ same]
      have other : j ≠ (x.course.session.pass kind).kind := by rwa [sound.kinds]
      refine (sound.recorded j).aside ?_
      rw [sound.kinds]
      exact Pass.count_of_other here other
  · rw [List.perm_iff_count]
    intro e
    have balance := sound.balance.count_eq e
    have paid := borne.due.count_eq e
    rw [sound.kinds] at skipped
    cases kind <;>
      simp only [lost, due, Session.pass, Session.setPass, Function.update_self, ne_eq, reduceCtorEq,
        not_false_eq_true, Function.update_of_ne, List.count_append] at balance paid skipped ⊢ <;>
      simp only [skipped, List.count_append] <;> omega
  · have less := borne.effort
    cases kind <;> simp only [effort, Session.setPass, Session.pass] at less ⊢ <;> omega

theorem Sound.follow (once : s.interval = .zero) (sound : x.Sound s t) (bearable : Bearable schedule)
    (kept : x.follow s t schedule = some y) :
    y.Sound s t ∧ y.effort s t + schedule.length ≤ x.effort s t + 2 * failures schedule := by
  induction schedule generalizing x with
  | nil =>
    cases kept
    exact ⟨sound, by simp [failures]⟩
  | cons m rest ih =>
    obtain ⟨next, step, kept⟩ := Option.bind_eq_some_iff.1 kept
    obtain ⟨first, less⟩ := sound.advance once (bearable m List.mem_cons_self) step
    obtain ⟨later, few⟩ := ih first (fun m member => bearable m (List.mem_cons_of_mem _ member)) kept
    refine ⟨later, ?_⟩
    simp only [failures, List.countP_cons, List.length_cons] at few ⊢
    split at less <;> simp_all <;> omega

/-- What a comparison has done that has come through. -/
structure Accomplished (s : Settings) (t : Tables) (x : Chronicle) : Prop where
  visited : ∀ kind, (x.journal kind).lookUps.map (·.batch) = pages s.batchSize (s.extent t kind)
  published : (x.course.published ++ x.lost s t).Perm (s.report t .baseToTarget ++ s.report t .targetToBase)
  failures : ∀ kind, counted .validatorReadFailures kind x.course.notes = (x.journal kind).failures
  batches : ∀ kind, counted .validatorBatches kind x.course.notes =
    (pages s.batchSize (s.extent t kind)).length

theorem Sound.accomplished (sound : x.Sound s t)
    (through : ∀ kind, (x.course.session.pass kind).phase = .finished) : x.Accomplished s t := by
  have visited (kind : Kind) :
      (x.journal kind).lookUps.map (·.batch) = pages s.batchSize (s.extent t kind) := by
    have visited := (sound.recorded kind).visited
    rwa [Pass.upcoming, through, List.append_nil, sound.kinds] at visited
  have nothing : x.due s t = [] := by
    have forward := through .baseToTarget
    have backward := through .targetToBase
    simp only [Session.pass] at forward backward
    simp [due, Pass.resumed, Pass.due, forward, backward]
  refine ⟨visited, ?_, fun kind => ?_, fun kind => ?_⟩
  · have balance := sound.balance
    rwa [nothing, List.append_nil] at balance
  · have failures := (sound.recorded kind).failures
    rw [sound.kinds] at failures
    rw [(counted_eq kind _).1, failures]
  · have batches := (sound.recorded kind).batches
    rw [sound.kinds, Pass.inHand, through, Nat.add_zero, ← (counted_eq kind _).2] at batches
    rw [batches, ← visited, List.length_map]

/-- Failures that pass cost time, and the events of the batches that could not be looked up. However many of
them there are, the comparison cannot go on for ever, and stops only when it has succeeded; every scan that has
failed is repeated at its offset, and every batch is looked up once. What it has published is, but for those
events, what it publishes when nothing fails. A failure that does not pass ends the comparison with an error
that names the store, and neither pass does anything more. -/
theorem failures_cost_lookups (positive : 1 ≤ s.batchSize) (sane : s.backoff.flaw = none)
    (once : s.interval = .zero) :
    (∃ bound, ∀ schedule x, Bearable schedule → start.follow s t schedule = some x →
      schedule.length ≤ bound + 2 * failures schedule) ∧
    (∀ schedule x, Bearable schedule → start.follow s t schedule = some x →
      (∀ kind, Scan.Retraced 0 (x.journal kind).scans) ∧
      ((x.course.outcome s = none ∧
          ∃ m : Course.Move, m.2.smooth = true ∧ (x.course.advance s t m).isSome = true) ∨
        (x.course.outcome s = some (.ok ()) ∧ x.Accomplished s t))) ∧
    (∀ plain c, Course.Smooth plain → Course.start.follow s t plain = some c →
      c.outcome s = some (.ok ()) →
      c.published.Perm (s.report t .baseToTarget ++ s.report t .targetToBase)) ∧
    ∀ c kind cause d, cause.transient = false → Course.advance s t c (kind, .failed cause) = some d →
      ∃ side, (c.session.pass kind).asked s = some side ∧
        d.outcome s = some (.error (.read side.name cause)) ∧ ∀ m, d.advance s t m = none := by
  have flawless : s.flaw = none := by
    have : s.batchSize ≠ 0 := by omega
    simp [Settings.flaw, this, sane]
  refine ⟨⟨start.effort s t, fun schedule x bearable kept => ?_⟩, fun schedule x bearable kept => ?_,
    fun plain c smooth kept ended => (Course.published_of_ok once smooth kept ended).2, ?_⟩
  · have := ((sound_start s t).follow once bearable kept).2
    omega
  · have sound := ((sound_start s t).follow once bearable kept).1
    refine ⟨fun kind => (sound.recorded kind).retraced, (Course.settled_of_passes flawless fun kind =>
      Pass.exists_smooth_of_resumed (sound.passes kind)).imp_right ?_⟩
    rintro ⟨ended, through⟩
    exact ⟨ended, sound.accomplished through⟩
  · intro c kind cause d permanent step
    obtain ⟨running, q, here, rfl⟩ := Course.advance_eq_some step
    obtain ⟨side, asked, phase⟩ := Pass.phase_of_permanent permanent here
    have going : c.session.outcome = none := by simpa [Course.outcome, flawless] using running
    have ended := Session.outcome_setPass_failed going phase kind
    refine ⟨side, asked, by simpa [Course.outcome, flawless] using ended, fun m => ?_⟩
    simp [Course.advance, Course.outcome, flawless, ended]

/-- The first scan of either pass fails at some point, and so does the first look-up of the forward pass. -/
def flaky : List Course.Move :=
  [(.baseToTarget, .failed (.unavailable "src")), (.targetToBase, .answered), (.baseToTarget, .rested),
    (.baseToTarget, .answered), (.targetToBase, .answered),
    (.baseToTarget, .failed (.timeout "dst" (.ofMillis 1000))),
    (.targetToBase, .failed (.sql "dst" (.backend "dst" "gone away"))), (.baseToTarget, .answered),
    (.targetToBase, .rested), (.targetToBase, .answered), (.targetToBase, .answered),
    (.baseToTarget, .answered), (.targetToBase, .published ⟨6, .src, .baseMissing⟩ true),
    (.baseToTarget, .published ⟨3, .src, .targetMissing⟩ true), (.baseToTarget, .answered),
    (.targetToBase, .answered)]

theorem failures_cost_lookups_flaky :
    let s := Settings.whole .src { Tuning.standard with batchSize := 2 }
    (∃ x, start.follow s Course.staleCopy flaky = some x ∧ x.course.outcome s = some (.ok ()) ∧
      (x.course.published ++ [(⟨1, .src, .neq⟩ : Event)]).Perm (s.report Course.staleCopy .baseToTarget ++
        s.report Course.staleCopy .targetToBase) ∧
      counted .validatorReadFailures .baseToTarget x.course.notes = 2 ∧
      counted .validatorReadFailures .targetToBase x.course.notes = 1) ∧
    ∃ d, Course.start.advance s Course.staleCopy (.targetToBase, .failed (.noColumns "dst" "interactives")) =
        some d ∧ d.outcome s = some (.error (.read "dst" (.noColumns "dst" "interactives"))) := by
  intro s
  obtain ⟨-, all, -, permanent⟩ := failures_cost_lookups (s := s) (t := Course.staleCopy) (by decide)
    (by decide) (by decide)
  constructor
  · have reached : (start.follow s Course.staleCopy flaky).map (fun x => ((x.course.outcome s).isSome,
        x.lost s Course.staleCopy, (x.journal .baseToTarget).failures, (x.journal .targetToBase).failures)) =
        some (true, [⟨1, .src, .neq⟩], 2, 1) := by decide
    obtain ⟨x, kept, known⟩ := Option.map_eq_some_iff.1 reached
    simp only [Prod.mk.injEq] at known
    obtain ⟨through, lost, forward, backward⟩ := known
    obtain ⟨ended, done⟩ := (all flaky x (by decide) kept).2.resolve_left (by
      rintro ⟨running, -⟩
      simp [running] at through)
    exact ⟨x, kept, ended, lost ▸ done.published, forward ▸ done.failures _, backward ▸ done.failures _⟩
  · obtain ⟨d, step⟩ := Option.isSome_iff_exists.1 (show (Course.start.advance s Course.staleCopy
      (.targetToBase, .failed (.noColumns "dst" "interactives"))).isSome = true by decide)
    obtain ⟨side, asked, ended, -⟩ := permanent _ _ _ d rfl step
    cases asked
    exact ⟨d, step, ended⟩

end Chronicle
end Cutover.Validation
