import Mathlib.Data.List.Flatten
import Mathlib.Data.List.Induction
import Cutover.Proofs.Validation.Walk

/-! Publication beside the scan. An attempt to publish an event may succeed, fail or take too long, and attempts
may end in any order: none of this has an influence on what a comparison reads, on the events that it attempts to
publish, or on how it ends. What a pass does next depends on how many of its reads have ended, and on those
alone. A store need not answer every read; what matters is that the `n`-th read of a pass ends the same way. -/
namespace Cutover.Validation

namespace Incident

/-- The end of a read that fails if there is a cause. -/
def ofRead : Option StoreError → Incident
  | none => .answered
  | some cause => .failed cause

/-- The same, but that every attempt to publish succeeds. -/
def heard : Incident → Incident
  | .published e _ => .published e true
  | i => i

end Incident

/-- The kind of the event that was emitted, if the note is of one. -/
def Note.drift? : Note → Option Drift
  | .emitted drift => some drift
  | _ => none

namespace Journal

/-- The batches that the other store has answered about. -/
def answered (j : Journal) : List (List Interactive) := (j.lookUps.filter (!·.failed)).map (·.batch)

@[simp] theorem answered_scan (j : Journal) (x : Scan) : (j.scan x).answered = j.answered := rfl

@[simp] theorem answered_lookUp (j : Journal) (batch : List Interactive) (failed : Bool) :
    (j.lookUp ⟨batch, failed⟩).answered = j.answered ++ if failed then [] else [batch] := by
  cases failed <;> simp [answered, lookUp]

theorem answered_sublist (j : Journal) : j.answered.Sublist (j.lookUps.map (·.batch)) :=
  List.filter_sublist.map _

end Journal

namespace Pass

variable {s : Settings} {t : Tables} {p : Pass} {i : Incident} {m : Pass × List Note} {j : Journal}
  {attempted : List Event}

/-- The first question of a dialogue. -/
def question? {α : Type} : Dialogue stores α → Option stores.Ask
  | .ask q _ => some q
  | .done _ => none

/-- The read that the pass waits for, if it waits for one. -/
def asks (s : Settings) (p : Pass) : List stores.Ask :=
  match p.phase with
  | .scanning => (question? (p.scan s)).toList
  | .checking batch => (question? (p.check s batch)).toList
  | _ => []

/-- What the pass has asked when the incident is the end of a read. -/
def inquiry (s : Settings) (p : Pass) : Incident → List stores.Ask
  | .answered | .failed _ => p.asks s
  | _ => []

/-- The attempts that are under way. -/
def outstanding (p : Pass) : List Event :=
  match p.phase with
  | .publishing _ burst => burst.outstanding
  | _ => []

/-- The pass when it has nothing left to publish and no delay to sit out. -/
def bare (p : Pass) : Pass :=
  match p.phase with
  | .publishing size _ => p.moveOn size
  | .backingOff | .resting => { p with phase := .scanning }
  | _ => p

/-- A pass that waits for a read waits for one, and for nothing else. -/
theorem reading {cause : Option StoreError} (step : p.Response s t (.ofRead cause) m) :
    p.bare = p ∧ (p.asks s).length = 1 ∧ p.phase ≠ .finished := by
  have each : (p.phase = .scanning ∨ ∃ batch, p.phase = .checking batch) := by
    cases cause with
    | none =>
      cases step with
      | scanned phase => exact .inl phase
      | checked phase => exact .inr ⟨_, phase⟩
    | some cause =>
      cases step with
      | unscanned phase => exact .inl phase
      | unchecked phase => exact .inr ⟨_, phase⟩
  rcases each with phase | ⟨batch, phase⟩
  · refine ⟨by simp [bare, phase], ?_, by simp [phase]⟩
    cases kind : p.kind <;> cases mode : s.mode <;> simp only [asks, phase, scan, kind, mode] <;> rfl
  · refine ⟨by simp [bare, phase], ?_, by simp [phase]⟩
    cases kind : p.kind <;> simp only [asks, phase, check, kind] <;> rfl

theorem bare_rested (step : p.Response s t .rested m) : m.1.bare = p.bare := by
  cases step with
  | rested phase => rcases phase with phase | phase <;> simp [bare, phase]

/-- However an attempt ends, the pass goes on where it would have gone on anyway. -/
theorem bare_published {e : Event} {succeeded : Bool} (step : p.Response s t (.published e succeeded) m) :
    m.1.bare = p.bare := by
  cases step with
  | @published size burst _ phase =>
    by_cases through : (burst.settle e).finished = true <;> simp [onPublished, phase, through, bare, moveOn]

theorem fst_onPublished (p : Pass) (e : Event) (succeeded : Bool) :
    (p.onPublished e succeeded).1 = (p.onPublished e true).1 := by
  simp only [onPublished]
  split
  · split <;> rfl
  · rfl

/-- Success makes no difference to the pass. -/
theorem advance_heard (s : Settings) (t : Tables) (p : Pass) (i : Incident) :
    (p.advance s t i.heard).map Prod.fst = (p.advance s t i).map Prod.fst := by
  cases i with
  | published e succeeded =>
    cases phase : p.phase with
    | publishing size burst =>
      simp only [Incident.heard, advance, phase]
      split
      · rw [Option.map_some, Option.map_some, fst_onPublished p e succeeded]
      · rfl
    | _ => simp only [Incident.heard, advance, phase]
  | _ => rfl

theorem record_heard (s : Settings) (t : Tables) (p : Pass) (j : Journal) (i : Incident) :
    p.record s t j i.heard = p.record s t j i := by
  cases i <;> rfl

theorem failures_record (step : p.Response s t i m) (j : Journal) :
    (p.record s t j i).failures = j.failures + if i.fails then 1 else 0 := by
  cases step with
  | scanned phase =>
    simp [record, phase, scan_answered, Journal.scan, Journal.failures, Scan.failed, Incident.fails]
  | unscanned phase =>
    simp [record, phase, Journal.scan, Journal.failures, Scan.failed, Incident.fails]
    omega
  | checked phase => simp [record, phase, Journal.lookUp, Journal.failures, Incident.fails]
  | unchecked phase =>
    simp [record, phase, Journal.lookUp, Journal.failures, Incident.fails]
    omega
  | rested | published | calledOff => simp [record, Incident.fails]

/-- Of the batches that were answered about, each finding was attempted or is about to be, and once. -/
theorem balance_advance (step : p.Response s t i m) (onward : i ≠ .calledOff)
    (balance : (attempted ++ p.pending).Perm (j.answered.flatMap (s.findings t p.kind))) :
    (attempted ++ i.attempted ++ m.1.pending).Perm
      ((p.record s t j i).answered.flatMap (s.findings t m.1.kind)) := by
  rw [kind_of_response step]
  cases step with
  | scanned phase | unscanned phase =>
    rw [pending_onScan]
    simpa [record, phase, pending, Incident.attempted] using balance
  | checked phase =>
    rw [pending_onCheck_answered]
    simp only [pending, phase, List.append_nil] at balance
    simpa [record, phase, Incident.attempted] using balance.append_right _
  | unchecked phase =>
    rw [pending_onCheck_error]
    simpa [record, phase, pending, Incident.attempted] using balance
  | rested phase =>
    rcases phase with phase | phase <;> simpa [record, pending, phase, Incident.attempted] using balance
  | published phase member succeeded =>
    have paid := (perm_pending_onPublished phase member succeeded).append_left attempted
    simpa [record, Incident.attempted, List.append_assoc] using paid.symm.trans balance
  | calledOff => exact absurd rfl onward

theorem outstanding_advance (step : p.Response s t i m) (few : p.outstanding.length ≤ width) :
    m.1.outstanding.length ≤ width := by
  cases step with
  | scanned =>
    rw [scan_answered]
    cases ((s.extent t p.kind).drop p.offset).take s.batchSize with
    | nil => by_cases once : s.interval = .zero <;> simp [onScan, once, outstanding]
    | cons => simp [onScan, outstanding]
  | unscanned phase cause => by_cases again : cause.transient = true <;> simp [onScan, again, outstanding]
  | checked phase =>
    obtain ⟨v, answered, -⟩ := check_answered s t p _
    rw [answered, onCheck_ok]
    split
    · simp [outstanding, moveOn]
    · exact Burst.outstanding_fill_le (Nat.zero_le _)
  | unchecked phase cause =>
    by_cases again : cause.transient = true <;> simp [onCheck, again, outstanding, moveOn]
  | rested | calledOff => simp [outstanding]
  | @published size burst e phase member succeeded =>
    simp only [outstanding, phase] at few
    by_cases through : (burst.settle e).finished = true
    · simp [onPublished, phase, through, outstanding, moveOn]
    · simp only [onPublished, phase, through, outstanding]
      refine Burst.outstanding_fill_le (b := ⟨burst.waiting, burst.outstanding.erase e⟩) ?_
      exact (List.length_erase_le).trans few

/-- Each attempt that ends is noted, as an event that was emitted or as a failure. -/
theorem notes_response (step : p.Response s t i m) :
    m.2.filterMap (·.drift?) = i.news.map (·.drift) ∧
      m.2.count .publishFailure + i.news.length = i.attempted.length := by
  cases step with
  | scanned =>
    rw [scan_answered]
    cases ((s.extent t p.kind).drop p.offset).take s.batchSize <;> exact ⟨rfl, rfl⟩
  | unscanned phase cause =>
    by_cases again : cause.transient = true <;> simp [onScan, again, Note.drift?, Incident.news, Incident.attempted]
  | @checked batch phase =>
    obtain ⟨⟨drift, ids⟩, answered, -⟩ := check_answered s t p batch
    rw [answered]
    cases ids <;> exact ⟨rfl, rfl⟩
  | unchecked phase cause =>
    by_cases again : cause.transient = true <;> simp [onCheck, again, Note.drift?, Incident.news, Incident.attempted]
  | rested | calledOff => exact ⟨rfl, rfl⟩
  | @published size burst e phase member succeeded =>
    cases succeeded <;> by_cases through : (burst.settle e).finished = true <;>
      simp [onPublished, phase, through, Note.drift?, Incident.news, Incident.attempted]

end Pass

theorem Drift.name_inj {d e : Drift} : d.name = e.name ↔ d = e := by
  cases d <;> cases e <;> decide

/-- What the counters show of events, by all that was noted. -/
theorem shown_eq (notes : List Note) :
    (∀ d : Drift, (notes.foldl Note.count []).value Counter.validatorEventsEmitted.name [("type", d.name)] =
      (notes.filterMap (·.drift?)).count d) ∧
    (notes.foldl Note.count []).total Counter.validatorEventsEmitted.name =
      (notes.filterMap (·.drift?)).length ∧
    (notes.foldl Note.count []).total Counter.validatorPublishFailures.name = notes.count .publishFailure := by
  induction notes using List.reverseRecOn with
  | nil => exact ⟨fun _ => rfl, rfl, rfl⟩
  | append_singleton earlier n ih =>
    obtain ⟨each, emitted, failures⟩ := ih
    simp only [List.foldl_append, List.foldl_cons, List.foldl_nil, List.filterMap_append, List.count_append,
      List.length_append]
    cases n with
    | emitted drift =>
      refine ⟨fun d => ?_, ?_, ?_⟩
      · rw [Note.count, Metrics.value_add, each]
        simp [Note.drift?, List.count_singleton, Drift.name_inj, @eq_comm _ d]
      · rw [Note.count, Metrics.total_add, emitted]
        rfl
      · rw [Note.count, Metrics.total_add_of_ne (by decide), failures]
        simp
    | publishFailure =>
      refine ⟨fun d => ?_, ?_, ?_⟩
      · rw [Note.count, Metrics.value_add_of_ne (by decide), each]
        simp [Note.drift?]
      · rw [Note.count, Metrics.total_add_of_ne (by decide), emitted]
        rfl
      · rw [Note.count, Metrics.total_add, failures]
        rfl
    | readFailure | batch =>
      refine ⟨fun d => ?_, ?_, ?_⟩
      · rw [Note.count, Metrics.value_add_of_ne (by decide), each]
        simp [Note.drift?]
      · rw [Note.count, Metrics.total_add_of_ne (by decide), emitted]
        rfl
      · rw [Note.count, Metrics.total_add_of_ne (by decide), failures]
        simp

/-- A pass with its journal and what it has asked, when nothing keeps it from its next read. -/
structure Reader where
  pass : Pass
  journal : Journal
  reads : List stores.Ask

/-- What becomes of a pass by its first `n` reads, if `ends` tells how each of them ends. -/
def Reader.after (s : Settings) (t : Tables) (ends : Nat → Option StoreError) (kind : Kind) : Nat → Reader
  | 0 => ⟨.start kind, ⟨[], []⟩, []⟩
  | n + 1 =>
    let x := after s t ends kind n
    let i := Incident.ofRead (ends n)
    ⟨(x.pass.advance s t i).elim x.pass (·.1.bare), x.pass.record s t x.journal i, x.reads ++ x.pass.asks s⟩

/-- A comparison with what each pass has asked of the stores, and the events that it has attempted to publish. -/
structure Publicity where
  chronicle : Chronicle
  reads : Kind → List stores.Ask
  attempted : Kind → List Event

namespace Publicity

/-- What may happen. It is up to the producer which attempt ends next, and how. -/
inductive Move where
  | read (kind : Kind)
  | rest (kind : Kind)
  | publish (kind : Kind) (e : Event) (succeeded : Bool)

def start : Publicity := ⟨.start, fun _ => [], fun _ => []⟩

def pass (x : Publicity) (kind : Kind) : Pass := x.chronicle.course.session.pass kind

/-- What happens to which pass. Each read of a pass ends as it is told. -/
def happening (ends : Kind → Nat → Option StoreError) (x : Publicity) : Move → Course.Move
  | .read kind => (kind, .ofRead (ends kind (x.reads kind).length))
  | .rest kind => (kind, .rested)
  | .publish kind e succeeded => (kind, .published e succeeded)

def advance (s : Settings) (t : Tables) (ends : Kind → Nat → Option StoreError) (x : Publicity) (m : Move) :
    Option Publicity :=
  let (kind, i) := x.happening ends m
  (x.chronicle.advance s t (kind, i)).map fun chronicle => {
    chronicle
    reads := Function.update x.reads kind (x.reads kind ++ (x.pass kind).inquiry s i)
    attempted := Function.update x.attempted kind (x.attempted kind ++ i.attempted) }

def follow (s : Settings) (t : Tables) (ends : Kind → Nat → Option StoreError) :
    Publicity → List Move → Option Publicity
  | x, [] => some x
  | x, m :: rest => (x.advance s t ends m).bind fun x => x.follow s t ends rest

variable {s : Settings} {t : Tables} {ends : Kind → Nat → Option StoreError} {x y : Publicity} {m : Move}
  {schedule : List Move} {kind : Kind} {i : Incident} {q : Pass × List Note}

theorem follows (s : Settings) (t : Tables) (ends : Kind → Nat → Option StoreError) :
    Follows (advance s t ends) (follow s t ends) :=
  ⟨fun _ => rfl, fun _ _ _ => rfl⟩

/-- The comparison when an incident has taken a pass further. -/
def after (s : Settings) (t : Tables) (x : Publicity) (kind : Kind) (i : Incident) (q : Pass × List Note) :
    Publicity where
  chronicle.course.session := x.chronicle.course.session.setPass q.1 kind
  chronicle.course.published := x.chronicle.course.published ++ i.news
  chronicle.course.notes := x.chronicle.course.notes ++ q.2
  chronicle.journal := Function.update x.chronicle.journal kind
    ((x.pass kind).record s t (x.chronicle.journal kind) i)
  reads := Function.update x.reads kind (x.reads kind ++ (x.pass kind).inquiry s i)
  attempted := Function.update x.attempted kind (x.attempted kind ++ i.attempted)

theorem advance_iff (happens : x.happening ends m = (kind, i)) : x.advance s t ends m = some y ↔
    x.chronicle.course.outcome s = none ∧
      ∃ q, (x.pass kind).advance s t i = some q ∧ x.after s t kind i q = y := by
  simp only [advance, happens, Chronicle.advance, Course.advance, Option.map_eq_some_iff]
  cases running : x.chronicle.course.outcome s with
  | some r => simp
  | none => simp [pass, after, Option.map_eq_some_iff]

@[simp] theorem pass_after_self : (x.after s t kind i q).pass kind = q.1 := Session.pass_setPass_self ..

theorem pass_after_of_ne {k : Kind} (other : k ≠ kind) : (x.after s t kind i q).pass k = x.pass k :=
  Session.pass_setPass_of_ne _ _ other

/-- Nothing happens but reads that end as they are told, delays that end, and attempts to publish. -/
theorem happening_cases (ends : Kind → Nat → Option StoreError) (x : Publicity) (m : Move) :
    ∃ kind i, x.happening ends m = (kind, i) ∧
      (i = .ofRead (ends kind (x.reads kind).length) ∨ i = .rested ∨ ∃ e succeeded, i = .published e succeeded) := by
  cases m with
  | read kind => exact ⟨kind, _, rfl, .inl rfl⟩
  | rest kind => exact ⟨kind, _, rfl, .inr (.inl rfl)⟩
  | publish kind e succeeded => exact ⟨kind, _, rfl, .inr (.inr ⟨e, succeeded, rfl⟩)⟩

/-- What a pass has read, and what has become of it, is settled by the number of its reads. -/
structure Settled (s : Settings) (t : Tables) (ends : Nat → Option StoreError) (kind : Kind) (reads : List stores.Ask)
    (j : Journal) (p : Pass) : Prop where
  pass : p.bare = (Reader.after s t ends kind reads.length).pass
  journal : j = (Reader.after s t ends kind reads.length).journal
  asked : reads = (Reader.after s t ends kind reads.length).reads
  /-- It was not through before its last read. -/
  busy : ∀ n < reads.length, (Reader.after s t ends kind n).pass.phase ≠ .finished

theorem Settled.advance {p : Pass} {reads : List stores.Ask} {j : Journal} {told : Nat → Option StoreError}
    (settled : Settled s t told kind reads j p) (step : p.advance s t i = some q)
    (tame : i = .ofRead (told reads.length) ∨ i = .rested ∨ ∃ e succeeded, i = .published e succeeded) :
    Settled s t told kind (reads ++ p.inquiry s i) (p.record s t j i) q.1 := by
  have here := Pass.response_of_advance step
  rcases tame with rfl | rfl | ⟨e, succeeded, rfl⟩
  · obtain ⟨bare, one, unfinished⟩ := Pass.reading here
    have same : (Reader.after s t told kind reads.length).pass = p := settled.pass.symm.trans bare
    have asked : p.inquiry s (.ofRead (told reads.length)) = p.asks s := by
      cases told reads.length <;> rfl
    have further : (reads ++ p.inquiry s (.ofRead (told reads.length))).length = reads.length + 1 := by
      rw [asked, List.length_append, one]
    refine ⟨?_, ?_, ?_, ?_⟩
    · rw [further, Reader.after, same, step]
      rfl
    · rw [further, Reader.after, same, ← settled.journal]
    · rw [further, Reader.after, same, ← settled.asked, asked]
    · rw [further]
      intro n before
      rcases Nat.lt_succ_iff_lt_or_eq.1 before with earlier | rfl
      · exact settled.busy n earlier
      · rwa [same]
  · simp only [Pass.inquiry, List.append_nil]
    exact ⟨(Pass.bare_rested here).trans settled.pass, settled.journal, settled.asked, settled.busy⟩
  · simp only [Pass.inquiry, List.append_nil]
    exact ⟨(Pass.bare_published here).trans settled.pass, settled.journal, settled.asked, settled.busy⟩

/-- Two passes of a kind that are through have made as many reads. -/
theorem Settled.length_eq {told : Nat → Option StoreError} {p o : Pass} {mine yours : List stores.Ask}
    {j l : Journal} (one : Settled s t told kind mine j p) (other : Settled s t told kind yours l o)
    (through : p.phase = .finished) (done : o.phase = .finished) : mine.length = yours.length := by
  have last : (Reader.after s t told kind mine.length).pass.phase = .finished := by
    rw [← one.pass, Pass.bare, through]
    exact through
  have also : (Reader.after s t told kind yours.length).pass.phase = .finished := by
    rw [← other.pass, Pass.bare, done]
    exact done
  rcases Nat.lt_trichotomy mine.length yours.length with less | same | more
  · exact absurd last (other.busy _ less)
  · exact same
  · exact absurd also (one.busy _ more)

theorem Settled.agree {told : Nat → Option StoreError} {p o : Pass} {mine yours : List stores.Ask}
    {j l : Journal} (one : Settled s t told kind mine j p) (other : Settled s t told kind yours l o)
    (through : p.phase = .finished) (done : o.phase = .finished) : mine = yours ∧ j = l := by
  have same := one.length_eq other through done
  constructor
  · rw [one.asked, other.asked, same]
  · rw [one.journal, other.journal, same]

/-- What a pass has done at any instant, whatever the producer does. -/
structure Kept (s : Settings) (t : Tables) (told : Nat → Option StoreError) (kind : Kind) (p : Pass) (j : Journal)
    (reads : List stores.Ask) (attempted : List Event) : Prop where
  same : p.kind = kind
  settled : Settled s t told kind reads j p
  /-- Each finding of a batch that was answered about is attempted once, sooner or later. -/
  balance : (attempted ++ p.pending).Perm (j.answered.flatMap (s.findings t kind))
  narrow : p.outstanding.length ≤ width

theorem Kept.advance {p : Pass} {j : Journal} {reads : List stores.Ask} {attempted : List Event}
    {told : Nat → Option StoreError} (kept : Kept s t told kind p j reads attempted)
    (step : p.advance s t i = some q)
    (tame : i = .ofRead (told reads.length) ∨ i = .rested ∨ ∃ e succeeded, i = .published e succeeded) :
    Kept s t told kind q.1 (p.record s t j i) (reads ++ p.inquiry s i) (attempted ++ i.attempted) := by
  obtain ⟨rfl, settled, balance, narrow⟩ := kept
  have here := Pass.response_of_advance step
  have onward : i ≠ .calledOff := by
    rcases tame with rfl | rfl | ⟨e, succeeded, rfl⟩
    · cases told reads.length <;> nofun
    · nofun
    · nofun
  have same := Pass.kind_of_response here
  exact ⟨same, settled.advance step tame, same ▸ Pass.balance_advance here onward balance,
    Pass.outstanding_advance here narrow⟩

/-- What a comparison has done at any instant. -/
structure Sound (s : Settings) (t : Tables) (ends : Kind → Nat → Option StoreError) (x : Publicity) : Prop where
  passes : ∀ kind,
    Kept s t (ends kind) kind (x.pass kind) (x.chronicle.journal kind) (x.reads kind) (x.attempted kind)
  emitted : x.chronicle.course.notes.filterMap (·.drift?) = x.chronicle.course.published.map (·.drift)
  failures : x.chronicle.course.notes.count .publishFailure + x.chronicle.course.published.length =
    (x.attempted .baseToTarget).length + (x.attempted .targetToBase).length

theorem sound_start (s : Settings) (t : Tables) (ends : Kind → Nat → Option StoreError) :
    start.Sound s t ends where
  passes kind := by cases kind <;> exact ⟨rfl, ⟨rfl, rfl, rfl, nofun⟩, .refl _, Nat.zero_le _⟩
  emitted := rfl
  failures := rfl

theorem Sound.advance (sound : x.Sound s t ends) (step : x.advance s t ends m = some y) : y.Sound s t ends := by
  obtain ⟨kind, i, happens, tame⟩ := happening_cases ends x m
  obtain ⟨-, q, moved, rfl⟩ := (advance_iff happens).1 step
  obtain ⟨emitted, failures⟩ := Pass.notes_response (Pass.response_of_advance moved)
  refine ⟨fun k => ?_, ?_, ?_⟩
  · by_cases same : k = kind
    · subst same
      rw [pass_after_self]
      simpa only [after, Function.update_self] using (sound.passes k).advance moved tame
    · rw [pass_after_of_ne same]
      simpa only [after, Function.update_of_ne same] using sound.passes k
  · simp only [after, List.filterMap_append, List.map_append, sound.emitted, emitted]
  · have before := sound.failures
    cases kind <;>
      simp [after, List.count_append] at before ⊢ <;> omega

theorem Sound.follow (sound : x.Sound s t ends) (run : x.follow s t ends schedule = some y) :
    y.Sound s t ends :=
  (follows s t ends).invariant (fun _ _ _ _ sound step => sound.advance step) sound run

/-- A comparison whose attempts all succeed and that goes through the same otherwise. -/
structure Heard (c d : Chronicle) : Prop where
  session : d.course.session = c.course.session
  journal : d.journal = c.journal

theorem Heard.advance {c d c' : Chronicle} (heard : Heard c d) (step : c.advance s t (kind, i) = some c') :
    ∃ d', d.advance s t (kind, i.heard) = some d' ∧ Heard c' d' := by
  obtain ⟨course, moved, rfl⟩ := Option.map_eq_some_iff.1 step
  simp only [Course.advance] at moved
  split at moved
  · cases moved
  next running =>
    obtain ⟨q, met, rfl⟩ := Option.map_eq_some_iff.1 moved
    obtain ⟨session, journal⟩ := heard
    have echo := Pass.advance_heard s t (d.course.session.pass kind) i
    rw [session, met, Option.map_some, Option.map_eq_some_iff] at echo
    obtain ⟨r, also, same⟩ := echo
    have going : d.course.outcome s = none := by simpa only [Course.outcome, session] using running
    refine ⟨_, by rw [Chronicle.advance, Course.advance, going]; simp only [session, also]; rfl, ?_, ?_⟩
    · simp only [same]
    · simp only [journal, Pass.record_heard]

theorem chronicle_follows (s : Settings) (t : Tables) :
    Follows (Chronicle.advance s t) (Chronicle.follow s t) :=
  ⟨fun _ => rfl, fun _ _ _ => rfl⟩

/-- A comparison that has failed reads, each of which might have succeeded later. -/
structure Bears (s : Settings) (t : Tables) (schedule : List Move) (x : Publicity) (plain : List Course.Move)
    (d : Chronicle) : Prop where
  bearable : Chronicle.Bearable plain
  run : Chronicle.start.follow s t plain = some d
  heard : Heard x.chronicle d
  length : plain.length = schedule.length
  failures : Chronicle.failures plain =
    (x.chronicle.journal .baseToTarget).failures + (x.chronicle.journal .targetToBase).failures

theorem Bears.advance {plain : List Course.Move} {d : Chronicle}
    (mild : ∀ kind n cause, ends kind n = some cause → cause.transient = true)
    (bears : Bears s t schedule x plain d) (step : x.advance s t ends m = some y) :
    ∃ more e, Bears s t (schedule ++ [m]) y more e := by
  obtain ⟨bearable, run, heard, length, failures⟩ := bears
  obtain ⟨kind, i, happens, tame⟩ := happening_cases ends x m
  obtain ⟨going, q, moved, rfl⟩ := (advance_iff happens).1 step
  have moves : x.chronicle.advance s t (kind, i) = some (x.after s t kind i q).chronicle := by
    have known : (x.chronicle.course.session.pass kind).advance s t i = some q := moved
    simp only [Chronicle.advance, Course.advance, going, known]
    rfl
  obtain ⟨e, also, heard⟩ := heard.advance moves
  have fine : i.heard.bearable = true := by
    rcases tame with rfl | rfl | ⟨e, succeeded, rfl⟩
    · cases told : ends kind (x.reads kind).length with
      | none => rfl
      | some cause => exact mild kind _ cause told
    · rfl
    · rfl
  have fails : i.heard.fails = i.fails := by cases i <;> rfl
  refine ⟨plain ++ [(kind, i.heard)], e, ?_, ?_, heard, by simp [length], ?_⟩
  · intro m member
    rcases List.mem_append.1 member with before | last
    · exact bearable m before
    · rw [List.mem_singleton.1 last]
      exact fine
  · rw [(chronicle_follows s t).append, run, Option.bind_some, Chronicle.follow, also]
    rfl
  · have more := Pass.failures_record (Pass.response_of_advance moved) (x.chronicle.journal kind)
    simp only [Chronicle.failures, List.countP_append, List.countP_singleton, fails] at failures ⊢
    cases kind <;> simp [after, more, failures] <;> omega

/-- But for what the producer does, any run is one that nothing happens to but reads that may succeed later. -/
theorem exists_bears (mild : ∀ kind n cause, ends kind n = some cause → cause.transient = true)
    (run : start.follow s t ends schedule = some x) : ∃ plain d, Bears s t schedule x plain d := by
  induction schedule using List.reverseRecOn generalizing x with
  | nil =>
    cases run
    exact ⟨[], .start, nofun, rfl, ⟨rfl, rfl⟩, rfl, rfl⟩
  | append_singleton earlier m ih =>
    rw [(follows s t ends).append] at run
    obtain ⟨y, before, last⟩ := Option.bind_eq_some_iff.1 run
    obtain ⟨z, step, same⟩ := Option.bind_eq_some_iff.1 last
    cases same
    obtain ⟨plain, d, bears⟩ := ih before
    exact bears.advance mild step

/-- The batches of a pass share no record, so no two of their findings are about one. -/
theorem nodup_ids_findings {j : Journal} {ahead : List (List Interactive)}
    (visited : j.lookUps.map (·.batch) ++ ahead = pages s.batchSize (s.extent t kind)) :
    ((j.answered.flatMap (s.findings t kind)).map (·.id)).Nodup := by
  have each (batches : List (List Interactive)) :
      ((batches.flatMap (s.findings t kind)).map (·.id)).Sublist (batches.flatten.map (·.id)) := by
    induction batches with
    | nil => exact List.Sublist.slnil
    | cons batch rest ih =>
      rw [List.flatMap_cons, List.flatten_cons, List.map_append, List.map_append]
      exact (s.ids_findings_sublist t kind batch).append ih
  have among : j.answered.flatten.Sublist (pages s.batchSize (s.extent t kind)).flatten := by
    rw [← visited]
    exact (j.answered_sublist.trans (List.sublist_append_left ..)).flatten
  have distinct : ((s.extent t kind).map (·.id)).Nodup := by
    cases kind with
    | baseToTarget => exact s.nodup_ids_extent_forward t
    | targetToBase => exact (t s.target).nodup_ids
  have all : (pages s.batchSize (s.extent t kind)).flatten.Sublist (s.extent t kind) := by
    by_cases positive : 1 ≤ s.batchSize
    · rw [flatten_pages positive]
    · rw [pages, if_neg fun some => positive some.1]
      exact List.nil_sublist _
  exact distinct.sublist ((each _).trans ((among.trans all).map _))

def outcome (s : Settings) (x : Publicity) : Option (Except Error Unit) := x.chronicle.course.outcome s

theorem finished (through : x.outcome s = some (.ok ())) (kind : Kind) : (x.pass kind).phase = .finished :=
  Course.finished_of_ok through kind

theorem pending_eq_nil (through : x.outcome s = some (.ok ())) (kind : Kind) : (x.pass kind).pending = [] := by
  rw [Pass.pending, finished through kind]

/-- What the counters show. -/
def metrics (x : Publicity) : Metrics := x.chronicle.course.notes.foldl Note.count []

/-- What can be said of a comparison at any instant, whatever the producer does. -/
structure Undisturbed (s : Settings) (t : Tables) (ends : Kind → Nat → Option StoreError) (x : Publicity) :
    Prop where
  narrow : ∀ kind, (x.pass kind).outstanding.length ≤ 16
  /-- What is drifted in a batch is attempted, or about to be, and nothing twice. -/
  complete : ∀ kind, (x.attempted kind ++ (x.pass kind).pending).Perm
    ((x.chronicle.journal kind).answered.flatMap (s.findings t kind))
  once : ∀ kind, ((x.attempted kind ++ (x.pass kind).pending).map (·.id)).Nodup
  counted : x.metrics.total Counter.validatorEventsEmitted.name +
      x.metrics.total Counter.validatorPublishFailures.name =
    (x.attempted .baseToTarget).length + (x.attempted .targetToBase).length
  emitted : ∀ d : Drift, x.metrics.value Counter.validatorEventsEmitted.name [("type", d.name)] =
    x.chronicle.course.published.countP (·.drift = d)
  /-- As long as it goes on it can go on, and any attempt may end next, either way. -/
  onward : x.outcome s = none → (∃ m, (x.advance s t ends m).isSome = true) ∧
    ∀ kind, ∀ e ∈ (x.pass kind).outstanding, ∀ succeeded,
      (x.advance s t ends (.publish kind e succeeded)).isSome = true
  /-- It ends well, with nothing left to publish, unless the settings make no sense. -/
  ended : ∀ r, x.outcome s = some r →
    (r = .ok () ∧ ∀ kind, (x.pass kind).pending = []) ∨ ∃ e, s.flaw = some e ∧ r = .error e

theorem isSome_advance (running : x.outcome s = none) (happens : x.happening ends m = (kind, i))
    (moved : ((x.pass kind).advance s t i).isSome = true) : (x.advance s t ends m).isSome = true := by
  obtain ⟨q, known⟩ := Option.isSome_iff_exists.1 moved
  exact Option.isSome_iff_exists.2 ⟨_, (advance_iff happens).2 ⟨running, q, known, rfl⟩⟩

theorem exists_move (running : x.outcome s = none) (smooth : i.smooth = true)
    (moved : ((x.pass kind).advance s t i).isSome = true) : ∃ m, (x.advance s t ends m).isSome = true := by
  cases i with
  | answered =>
    refine ⟨.read kind, isSome_advance running rfl ?_⟩
    cases ends kind (x.reads kind).length with
    | none => exact moved
    | some cause => cases phase : (x.pass kind).phase <;> simp_all [Incident.ofRead, Pass.advance]
  | rested => exact ⟨.rest kind, isSome_advance running rfl moved⟩
  | published e succeeded => exact ⟨.publish kind e succeeded, isSome_advance running rfl moved⟩
  | failed | calledOff => cases smooth

theorem undisturbed (once : s.interval = .zero)
    (mild : ∀ kind n cause, ends kind n = some cause → cause.transient = true)
    (run : start.follow s t ends schedule = some x) : x.Undisturbed s t ends := by
  have sound := (sound_start s t ends).follow run
  obtain ⟨plain, d, bears⟩ := exists_bears mild run
  have known := ((Chronicle.sound_start s t).follow once bears.bearable bears.run).1
  have session := bears.heard.session
  obtain ⟨each, emitted, failures⟩ := shown_eq x.chronicle.course.notes
  refine ⟨fun kind => (sound.passes kind).narrow, fun kind => (sound.passes kind).balance, fun kind => ?_, ?_,
    fun d => ?_, fun running => ⟨?_, ?_⟩, fun r ended => ?_⟩
  · have visited := (known.recorded kind).visited
    rw [bears.heard.journal, known.kinds] at visited
    exact ((sound.passes kind).balance.map _).nodup_iff.2 (nodup_ids_findings visited)
  · rw [metrics, emitted, failures, sound.emitted, List.length_map, Nat.add_comm]
    exact sound.failures
  · rw [metrics, each, sound.emitted, List.count, List.countP_map]
    exact List.countP_congr fun e _ => by simp
  · have sane : s.flaw = none := x.chronicle.course.flaw_eq_none (by simp [outcome] at running; simp [running])
    have going : d.course.outcome s = none := by rwa [Course.outcome, session]
    rcases Course.settled_of_passes sane fun kind => Pass.exists_smooth_of_resumed (known.passes kind) with
      ⟨-, ⟨kind, i⟩, smooth, enabled⟩ | ⟨ended, -⟩
    · simp only [Course.advance, going, Option.isSome_map, session] at enabled
      exact exists_move running smooth enabled
    · cases going.symm.trans ended
  · intro kind e member succeeded
    refine isSome_advance running rfl ?_
    cases phase : (x.pass kind).phase with
    | publishing size burst =>
      have there : e ∈ burst.outstanding := by simpa [Pass.outstanding, phase] using member
      simp [Pass.advance, phase, there]
    | _ => simp [Pass.outstanding, phase] at member
  · cases flaw : s.flaw with
    | some e =>
      rw [outcome, Course.outcome, flaw, Option.some.injEq] at ended
      exact .inr ⟨e, rfl, ended.symm⟩
    | none =>
      have also : d.course.outcome s = some r := by rwa [Course.outcome, session]
      rcases Course.settled_of_passes flaw fun kind => Pass.exists_smooth_of_resumed (known.passes kind) with
        ⟨going, -⟩ | ⟨fine, -⟩
      · cases going.symm.trans also
      · obtain rfl := Option.some.inj (also.symm.trans fine)
        exact .inl ⟨rfl, pending_eq_nil ended⟩

/-- Settings that make no sense end a comparison before it begins. -/
theorem eq_start_of_flaw {e : Error} (flaw : s.flaw = some e) (run : start.follow s t ends schedule = some x) :
    x = start := by
  cases schedule with
  | nil => exact (Option.some.inj run).symm
  | cons m rest =>
    obtain ⟨y, step, -⟩ := Option.bind_eq_some_iff.1 run
    obtain ⟨kind, i, happens, -⟩ := happening_cases ends start m
    obtain ⟨running, -⟩ := (advance_iff happens).1 step
    rw [Course.outcome, flaw] at running
    cases running

/-- Two comparisons of the same stores have read the same and attempted to publish the same when they end. -/
theorem Sound.agree (one : x.Sound s t ends) (other : y.Sound s t ends)
    (through : x.outcome s = some (.ok ())) (done : y.outcome s = some (.ok ())) (kind : Kind) :
    x.reads kind = y.reads kind ∧ (x.attempted kind).Perm (y.attempted kind) := by
  have first := one.passes kind
  have second := other.passes kind
  obtain ⟨reads, journal⟩ := first.settled.agree second.settled (finished through kind) (finished done kind)
  have mine := first.balance
  have yours := second.balance
  rw [pending_eq_nil through, List.append_nil, journal] at mine
  rw [pending_eq_nil done, List.append_nil] at yours
  exact ⟨reads, mine.trans yours.symm⟩

/-- Whatever becomes of the attempts to publish, and in whatever order they end, a comparison of stores at rest
without a pause comes to an end, reads the same, attempts to publish the same and ends the same; no more than
sixteen attempts of a pass are under way, nothing is attempted twice, and the counters tell how the attempts
have ended. -/
theorem publication_apart (once : s.interval = .zero)
    (mild : ∀ kind n cause, ends kind n = some cause → cause.transient = true) :
    (∃ bound, ∀ schedule x, start.follow s t ends schedule = some x →
      schedule.length ≤ bound +
        2 * ((x.chronicle.journal .baseToTarget).failures + (x.chronicle.journal .targetToBase).failures)) ∧
    (∀ schedule x, start.follow s t ends schedule = some x → x.Undisturbed s t ends) ∧
    ∀ first second x y q r, start.follow s t ends first = some x → start.follow s t ends second = some y →
      x.outcome s = some q → y.outcome s = some r →
        q = r ∧ ∀ kind, x.reads kind = y.reads kind ∧ (x.attempted kind).Perm (y.attempted kind) := by
  refine ⟨⟨Chronicle.start.effort s t, fun schedule x run => ?_⟩,
    fun schedule x run => undisturbed once mild run, fun first second x y q r one other through done => ?_⟩
  · obtain ⟨plain, d, bears⟩ := exists_bears mild run
    have known := ((Chronicle.sound_start s t).follow once bears.bearable bears.run).2
    rw [bears.length, bears.failures] at known
    omega
  · cases flaw : s.flaw with
    | some e =>
      obtain rfl := eq_start_of_flaw flaw one
      obtain rfl := eq_start_of_flaw flaw other
      exact ⟨Option.some.inj (through.symm.trans done), fun kind => ⟨rfl, .refl _⟩⟩
    | none =>
      obtain ⟨rfl, -⟩ := ((undisturbed once mild one).ended q through).resolve_right (by simp [flaw])
      obtain ⟨rfl, -⟩ := ((undisturbed once mild other).ended r done).resolve_right (by simp [flaw])
      exact ⟨rfl, ((sound_start s t ends).follow one).agree ((sound_start s t ends).follow other) through done⟩

/-- The first scan of the base fails. -/
def hitch : Kind → Nat → Option StoreError
  | .baseToTarget, 0 => some (.unavailable "src")
  | _, _ => none

/-- Every attempt succeeds, as soon as it can. -/
def prompt : List Move :=
  [.read .baseToTarget, .rest .baseToTarget, .read .baseToTarget, .read .targetToBase, .read .targetToBase,
    .read .baseToTarget, .read .targetToBase, .publish .baseToTarget ⟨1, .src, .neq⟩ true, .read .targetToBase,
    .read .baseToTarget, .publish .targetToBase ⟨6, .src, .baseMissing⟩ true, .read .baseToTarget,
    .read .targetToBase, .publish .baseToTarget ⟨3, .src, .targetMissing⟩ true, .read .baseToTarget]

/-- Two of three attempts come to nothing, and the pass from the target is through before the other begins. -/
def stalling : List Move :=
  [.read .targetToBase, .read .targetToBase, .read .targetToBase, .read .targetToBase,
    .publish .targetToBase ⟨6, .src, .baseMissing⟩ false, .read .targetToBase, .read .baseToTarget,
    .rest .baseToTarget, .read .baseToTarget, .read .baseToTarget, .publish .baseToTarget ⟨1, .src, .neq⟩ false,
    .read .baseToTarget, .read .baseToTarget, .publish .baseToTarget ⟨3, .src, .targetMissing⟩ true,
    .read .baseToTarget]

theorem publication_apart_stalling :
    let s := Settings.whole .src { Tuning.standard with batchSize := 2 }
    ∃ x y, start.follow s Course.staleCopy hitch prompt = some x ∧
      start.follow s Course.staleCopy hitch stalling = some y ∧ x.outcome s = some (.ok ()) ∧
      x.outcome s = y.outcome s ∧ y.Undisturbed s Course.staleCopy hitch ∧
      x.metrics.total Counter.validatorPublishFailures.name = 0 ∧
      y.metrics.total Counter.validatorPublishFailures.name = 2 ∧
      ∀ kind, x.reads kind = y.reads kind ∧ (x.attempted kind).Perm (y.attempted kind) := by
  intro s
  have mild : ∀ kind n cause, hitch kind n = some cause → cause.transient = true := by
    intro kind n cause told
    cases kind <;> cases n <;> cases told
    rfl
  obtain ⟨-, always, agree⟩ := publication_apart (s := s) (t := Course.staleCopy) (by decide) mild
  have first : (start.follow s Course.staleCopy hitch prompt).map (fun x => ((x.outcome s).isSome,
      x.metrics.total Counter.validatorPublishFailures.name)) = some (true, 0) := by decide
  have second : (start.follow s Course.staleCopy hitch stalling).map (fun x => ((x.outcome s).isSome,
      x.metrics.total Counter.validatorPublishFailures.name)) = some (true, 2) := by decide
  obtain ⟨x, one, through⟩ := Option.map_eq_some_iff.1 first
  obtain ⟨y, other, done⟩ := Option.map_eq_some_iff.1 second
  simp only [Prod.mk.injEq] at through done
  obtain ⟨q, ended⟩ := Option.isSome_iff_exists.1 through.1
  obtain ⟨r, also⟩ := Option.isSome_iff_exists.1 done.1
  obtain ⟨rfl, same⟩ := agree _ _ x y q r one other ended also
  have sane : s.flaw = none := by decide
  obtain ⟨fine, -⟩ := ((always _ x one).ended q ended).resolve_right (by simp [sane])
  exact ⟨x, y, one, other, fine ▸ ended, ended.trans also.symm, always _ y other, through.2, done.2, same⟩

end Publicity
end Cutover.Validation
