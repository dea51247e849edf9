import Cutover.Proofs.Run
import Cutover.Proofs.Validation.Direction
import Cutover.Proofs.Validation.Retry

/-! A comparison of two stores at rest that may be called off at any instant. A pass that is free to stop need
not do so at once, and one that is publishing sees its batch through, so that what a pass has done is always
what it does with its first pages, as many as it has looked up. -/
namespace Cutover.Validation

namespace Journal

/-- The batches that were looked up, in their order. -/
def batches (j : Journal) : List (List Interactive) := j.lookUps.map (·.batch)

@[simp] theorem batches_scan (j : Journal) (x : Scan) : (j.scan x).batches = j.batches := rfl

@[simp] theorem batches_lookUp (j : Journal) (x : LookUp) : (j.lookUp x).batches = j.batches ++ [x.batch] := by
  simp [batches, lookUp]

end Journal

/-- Whether a pass stops because the comparison was called off. -/
def Incident.withdraws : Incident → Bool
  | .calledOff => true
  | _ => false

namespace Pass

variable {s : Settings} {t : Tables} {p : Pass} {i : Incident} {m : Pass × List Note} {j : Journal}
  {attempted : List Event} {off : Bool}

/-- The pass has looked up its first pages and attempted to publish what they are worth, but for what it is
publishing. Only a pass that was called off leaves any out. -/
structure Batchwise (s : Settings) (t : Tables) (off : Bool) (j : Journal) (attempted : List Event)
    (p : Pass) : Prop where
  inTurn : j.batches <+: pages s.batchSize (s.extent t p.kind)
  onward : off = true ∧ p.phase = .finished ∨
    j.batches ++ p.upcoming s t = pages s.batchSize (s.extent t p.kind)
  spent : p.phase = .resting → (s.extent t p.kind).drop p.offset = []
  balance : (attempted ++ p.pending).Perm (j.batches.flatMap (s.findings t p.kind))
  healthy : ∀ e, p.phase ≠ .failed e

theorem batchwise_start (s : Settings) (t : Tables) (off : Bool) (kind : Kind) :
    (start kind).Batchwise s t off ⟨[], []⟩ [] where
  inTurn := List.nil_prefix
  onward := .inr rfl
  spent := by simp [start]
  balance := .refl _
  healthy := by simp [start]

/-- The pages ahead of a pass that goes on are those that it has not looked up. -/
theorem Batchwise.ahead (kept : p.Batchwise s t off j attempted) (busy : p.phase ≠ .finished) :
    j.batches ++ p.upcoming s t = pages s.batchSize (s.extent t p.kind) :=
  kept.onward.resolve_left (busy ·.2)

theorem Batchwise.scanned (positive : 1 ≤ s.batchSize) (kept : p.Batchwise s t off j attempted)
    (phase : p.phase = .scanning) :
    (p.onScan s (.ok (p.page s t))).1.Batchwise s t off (j.scan ⟨p.offset, .ok (p.page s t)⟩) attempted := by
  have ahead := kept.ahead (by simp [phase])
  have balance := kept.balance
  simp only [upcoming, pending, phase] at ahead balance
  cases found : p.page s t with
  | nil =>
    have nothing := drop_eq_nil_of_page positive found
    rw [nothing, pages_nil] at ahead
    refine ⟨kept.inTurn, .inr ?_, fun _ => nothing, ?_, ?_⟩
    · by_cases once : s.interval = .zero <;> simpa [onScan, once, upcoming] using ahead
    · rwa [pending_onScan]
    · by_cases once : s.interval = .zero <;> simp [onScan, once]
  | cons first rest =>
    rw [pages_of_page positive (by simp [found]), found] at ahead
    exact ⟨kept.inTurn, .inr ahead, by simp [onScan], balance, by simp [onScan]⟩

theorem Batchwise.checked {batch : List Interactive} (kept : p.Batchwise s t off j attempted)
    (phase : p.phase = .checking batch) :
    (p.onCheck s batch ((p.check s batch).run Tables.answer t).1).1.Batchwise s t off
      (j.lookUp ⟨batch, false⟩) attempted := by
  have ahead := kept.ahead (by simp [phase])
  have balance := kept.balance
  simp only [upcoming, pending, phase, List.append_nil] at ahead balance
  have kind := kind_onCheck s p batch ((p.check s batch).run Tables.answer t).1
  have pending := pending_onCheck_answered s t p batch
  obtain ⟨v, answered, -⟩ := check_answered s t p batch
  rw [answered] at kind pending ⊢
  have further : (j.lookUp ⟨batch, false⟩).batches ++ (p.onCheck s batch (.ok v)).1.upcoming s t =
      pages s.batchSize (s.extent t p.kind) := by
    rw [← ahead, Journal.batches_lookUp, List.append_assoc, List.singleton_append, onCheck_ok]
    split <;> rfl
  refine ⟨?_, .inr (kind ▸ further), ?_, ?_, ?_⟩
  · exact kind ▸ further ▸ List.prefix_append _ _
  · rw [onCheck_ok]
    split <;> simp [moveOn]
  · rw [pending, kind, Journal.batches_lookUp, List.flatMap_append, List.flatMap_singleton]
    exact balance.append_right _
  · rw [onCheck_ok]
    split <;> simp [moveOn]

theorem Batchwise.published {size : Nat} {burst : Burst} {e : Event} (kept : p.Batchwise s t off j attempted)
    (phase : p.phase = .publishing size burst) (member : e ∈ burst.outstanding) (succeeded : Bool) :
    (p.onPublished e succeeded).1.Batchwise s t off j (attempted ++ [e]) := by
  have ahead := kept.ahead (by simp [phase])
  have kind := kind_onPublished p e succeeded
  have paid := (perm_pending_onPublished phase member succeeded).append_left attempted
  have further : (p.onPublished e succeeded).1.upcoming s t = p.upcoming s t := by
    by_cases through : (burst.settle e).finished = true <;>
      simp [onPublished, phase, through, upcoming, moveOn]
  refine ⟨kind.symm ▸ kept.inTurn, .inr (by rw [kind, further, ahead]), ?_, ?_, ?_⟩
  · by_cases through : (burst.settle e).finished = true <;> simp [onPublished, phase, through, moveOn]
  · rw [kind, List.append_assoc, List.singleton_append]
    exact paid.symm.trans kept.balance
  · by_cases through : (burst.settle e).finished = true <;> simp [onPublished, phase, through, moveOn]

theorem Batchwise.rested (kept : p.Batchwise s t off j attempted)
    (phase : p.phase = .backingOff ∨ p.phase = .resting) :
    Batchwise s t off j attempted { p with phase := .scanning } := by
  have ahead := kept.ahead (by rcases phase with phase | phase <;> simp [phase])
  have balance := kept.balance
  refine ⟨kept.inTurn, .inr ?_, by simp, ?_, by simp⟩
  · rcases phase with phase | phase
    · simpa only [upcoming, phase] using ahead
    · simpa only [upcoming, phase, kept.spent phase, pages_nil] using ahead
  · rcases phase with phase | phase <;> simpa only [pending, phase] using balance

theorem Batchwise.calledOff (kept : p.Batchwise s t true j attempted)
    (free : ∀ size burst, p.phase ≠ .publishing size burst) :
    Batchwise s t true j attempted { p with phase := .finished } := by
  have idle : p.pending = [] := by
    rw [pending]
    split
    next size burst phase => exact absurd phase (free size burst)
    next => rfl
  exact ⟨kept.inTurn, .inl ⟨rfl, rfl⟩, by simp, by simpa [idle, pending] using kept.balance, by simp⟩

theorem Batchwise.advance (positive : 1 ≤ s.batchSize) (kept : p.Batchwise s t off j attempted)
    (fine : i.fails = false) (known : i.withdraws = true → off = true) (step : p.Response s t i m) :
    m.1.Batchwise s t off (p.record s t j i) (attempted ++ i.attempted) := by
  cases step with
  | scanned phase =>
    simp only [record, phase, scan_answered, Incident.attempted, List.append_nil]
    exact kept.scanned positive phase
  | checked phase =>
    simp only [record, phase, Incident.attempted, List.append_nil]
    exact kept.checked phase
  | rested phase => simpa [record, Incident.attempted] using kept.rested phase
  | published phase member succeeded => exact kept.published phase member succeeded
  | calledOff free =>
    cases known rfl
    simpa [record, Incident.attempted] using kept.calledOff free
  | unscanned | unchecked => cases fine

end Pass

/-- A comparison that may be called off, and the events whose publication its passes have attempted. -/
structure Withdrawal where
  chronicle : Chronicle
  calledOff : Bool
  attempted : Kind → List Event

namespace Withdrawal

inductive Move where
  | progress (m : Course.Move)
  | callOff

/-- Whether the move would not be made if the comparison were not called off. -/
def Move.withdraws : Move → Bool
  | .progress m => m.2.withdraws
  | .callOff => true

def start : Withdrawal := ⟨.start, false, fun _ => []⟩

def pass (x : Withdrawal) (kind : Kind) : Pass := x.chronicle.course.session.pass kind

/-- No read fails, and no pass stops early unless the comparison was called off. -/
def advance (s : Settings) (t : Tables) (x : Withdrawal) : Move → Option Withdrawal
  | .progress m =>
    if m.2.fails || m.2.withdraws && !x.calledOff then none
    else (x.chronicle.advance s t m).map fun chronicle => { x with
      chronicle, attempted := Function.update x.attempted m.1 (x.attempted m.1 ++ m.2.attempted) }
  | .callOff => some { x with calledOff := true }

def follow (s : Settings) (t : Tables) : Withdrawal → List Move → Option Withdrawal
  | x, [] => some x
  | x, m :: rest => (x.advance s t m).bind fun x => x.follow s t rest

variable {s : Settings} {t : Tables} {x y z : Withdrawal} {m : Move} {moves : List Move}

theorem follows {s : Settings} {t : Tables} : Follows (advance s t) (follow s t) :=
  ⟨fun _ => rfl, fun _ _ _ => rfl⟩

/-- The comparison when an incident has taken a pass further. -/
def after (s : Settings) (t : Tables) (x : Withdrawal) (m : Course.Move) (q : Pass × List Note) : Withdrawal where
  chronicle.course.session := x.chronicle.course.session.setPass q.1 m.1
  chronicle.course.published := x.chronicle.course.published ++ m.2.news
  chronicle.course.notes := x.chronicle.course.notes ++ q.2
  chronicle.journal := Function.update x.chronicle.journal m.1
    ((x.pass m.1).record s t (x.chronicle.journal m.1) m.2)
  calledOff := x.calledOff
  attempted := Function.update x.attempted m.1 (x.attempted m.1 ++ m.2.attempted)

theorem advance_progress_iff {m : Course.Move} : x.advance s t (.progress m) = some y ↔
    m.2.fails = false ∧ (m.2.withdraws = true → x.calledOff = true) ∧ x.chronicle.course.outcome s = none ∧
      ∃ q, (x.pass m.1).advance s t m.2 = some q ∧ x.after s t m q = y := by
  simp only [advance, Option.ite_none_left_eq_some, Chronicle.advance, Course.advance, Option.map_eq_some_iff,
    Bool.or_eq_true, Bool.and_eq_true, Bool.not_eq_true', not_or, not_and, Bool.not_eq_true, Bool.not_eq_false,
    and_assoc]
  cases running : x.chronicle.course.outcome s with
  | some r => simp
  | none => simp [pass, after, Option.map_eq_some_iff]

@[simp] theorem pass_after_self {m : Course.Move} {q : Pass × List Note} :
    (x.after s t m q).pass m.1 = q.1 := Session.pass_setPass_self ..

theorem pass_after_of_ne {m : Course.Move} {q : Pass × List Note} {kind : Kind} (other : kind ≠ m.1) :
    (x.after s t m q).pass kind = x.pass kind := Session.pass_setPass_of_ne _ _ other

/-- Both passes keep to their batches. A comparison whose settings make no sense does not begin. -/
structure Sound (s : Settings) (t : Tables) (x : Withdrawal) : Prop where
  kinds : ∀ kind, (x.pass kind).kind = kind
  passes : ∀ kind, (x.pass kind).Batchwise s t x.calledOff (x.chronicle.journal kind) (x.attempted kind)
  idle : s.flaw = none ∨ x.chronicle = .start

theorem sound_start (s : Settings) (t : Tables) : start.Sound s t where
  kinds kind := by cases kind <;> rfl
  passes kind := by cases kind <;> exact Pass.batchwise_start s t false _
  idle := .inr rfl

theorem Sound.advance (sound : x.Sound s t) (step : x.advance s t m = some y) : y.Sound s t := by
  cases m with
  | callOff =>
    cases step
    refine ⟨sound.kinds, fun kind => ?_, sound.idle⟩
    obtain ⟨inTurn, onward, spent, balance, healthy⟩ := sound.passes kind
    exact ⟨inTurn, onward.imp_left fun ended => ⟨rfl, ended.2⟩, spent, balance, healthy⟩
  | progress m =>
    obtain ⟨fine, known, running, q, moved, rfl⟩ := advance_progress_iff.1 step
    have here := Pass.response_of_advance moved
    have sane : s.flaw = none := x.chronicle.course.flaw_eq_none (by simp [running])
    have kept := (sound.passes m.1).advance (s.positive_of_flaw sane) fine known here
    refine ⟨fun kind => ?_, fun kind => ?_, .inl sane⟩
    · by_cases same : kind = m.1
      · rw [same, pass_after_self, Pass.kind_of_response here, sound.kinds]
      · rw [pass_after_of_ne same, sound.kinds]
    · by_cases same : kind = m.1
      · rw [same, pass_after_self]
        simpa only [after, Function.update_self] using kept
      · rw [pass_after_of_ne same]
        simpa only [after, Function.update_of_ne same] using sound.passes kind

theorem Sound.follow (sound : x.Sound s t) (run : x.follow s t moves = some y) : y.Sound s t :=
  follows.invariant (fun _ _ _ _ sound step => sound.advance step) sound run

/-- The batches that a pass has looked up, of whose events all, and no others, were attempted. -/
structure CutAt (s : Settings) (t : Tables) (x : Withdrawal) (kind : Kind)
    (batches : List (List Interactive)) : Prop where
  lookedUp : (x.chronicle.journal kind).batches = batches
  attempted : (x.attempted kind).Perm (batches.flatMap (s.findings t kind))

theorem Sound.cutAt {kind : Kind} (sound : x.Sound s t) (idle : (x.pass kind).pending = []) :
    x.CutAt s t kind (x.chronicle.journal kind).batches := by
  have balance := (sound.passes kind).balance
  rw [idle, List.append_nil, sound.kinds] at balance
  exact ⟨rfl, balance⟩

/-- A pass that has come to the end of the data without being called off has looked up all its pages. -/
theorem Sound.batches_eq_pages {kind : Kind} (sound : x.Sound s t) (lasting : x.calledOff = false)
    (through : (x.pass kind).phase = .finished ∨ (x.pass kind).Exhausted s t) :
    (x.chronicle.journal kind).batches = pages s.batchSize (s.extent t kind) := by
  have ahead := (sound.passes kind).onward.resolve_left (by simp [lasting])
  have nothing : (x.pass kind).upcoming s t = [] := by
    rcases through with phase | ⟨phase, answer⟩
    · simp only [Pass.upcoming, phase]
    · rw [Pass.scan_answered, Except.ok.injEq, List.take_eq_nil_iff] at answer
      simp only [Pass.upcoming, phase]
      rcases answer with zero | nothing
      · rw [zero, pages]
        simp
      · rw [nothing, pages_nil]
  rwa [nothing, List.append_nil, sound.kinds] at ahead

/-- A comparison that was called off, and the same one when it is not. The pass that was cut short is
behind, and has done the same. -/
structure Alike (x y : Withdrawal) : Prop where
  passes : ∀ kind, (x.pass kind).phase = .finished ∨ x.pass kind = y.pass kind
  journal : x.chronicle.journal = y.chronicle.journal
  attempted : x.attempted = y.attempted
  lasting : y.calledOff = false

theorem Alike.progress {m : Course.Move} {x' : Withdrawal} (alike : x.Alike y) (sound : y.Sound s t)
    (onward : m.2.withdraws = false) (step : x.advance s t (.progress m) = some x') :
    ∃ y', y.advance s t (.progress m) = some y' ∧ x'.Alike y' := by
  obtain ⟨fine, -, running, q, moved, rfl⟩ := advance_progress_iff.1 step
  obtain ⟨passes, journal, attempted, lasting⟩ := alike
  -- nothing happens to a pass that was cut short, so that the one that moves is the same in both
  have busy : (x.pass m.1).phase ≠ .finished := by
    intro through
    cases happens : m.2 <;> simp [happens, Pass.advance, through] at moved
  have same := (passes m.1).resolve_left busy
  have sane : s.flaw = none := x.chronicle.course.flaw_eq_none (by simp [running])
  have going := Course.outcome_eq_none_of_busy sane (fun kind => (sound.passes kind).healthy)
    (same ▸ busy : (y.pass m.1).phase ≠ .finished)
  refine ⟨y.after s t m q, advance_progress_iff.2 ⟨fine, by simp [onward], going, q, same ▸ moved, rfl⟩, ?_⟩
  refine ⟨fun kind => ?_, ?_, ?_, lasting⟩
  · by_cases here : kind = m.1
    · rw [here, pass_after_self, pass_after_self]
      exact .inr rfl
    · rw [pass_after_of_ne here, pass_after_of_ne here]
      exact passes kind
  · simp only [after, journal, same]
  · simp only [after, attempted]

/-- A pass that stops early does nothing but that. -/
theorem Alike.withdrawn {x' : Withdrawal} (alike : x.Alike y) (early : m.withdraws = true)
    (step : x.advance s t m = some x') : x'.Alike y := by
  obtain ⟨passes, journal, attempted, lasting⟩ := alike
  cases m with
  | callOff =>
    cases step
    exact ⟨passes, journal, attempted, lasting⟩
  | progress m =>
    obtain ⟨kind, i⟩ := m
    obtain ⟨-, -, -, q, moved, rfl⟩ := advance_progress_iff.1 step
    cases i with
    | calledOff =>
      have stopped : q.1.phase = .finished := by
        cases Pass.response_of_advance moved
        rfl
      refine ⟨fun j => ?_, ?_, ?_, lasting⟩
      · by_cases here : j = kind
        · subst here
          exact .inl ((congrArg Pass.phase pass_after_self).trans stopped)
        · rw [pass_after_of_ne here]
          exact passes j
      · simp only [after, Pass.record, Function.update_eq_self, journal]
      · simp only [after, Incident.attempted, List.append_nil, Function.update_eq_self, attempted]
    | _ => cases early

/-- Without the moves that are made because a comparison is called off, it comes to the same. -/
theorem Alike.follow {x' : Withdrawal} (alike : x.Alike y) (sound : y.Sound s t)
    (run : x.follow s t moves = some x') :
    ∃ y', y.follow s t (moves.filter (!·.withdraws)) = some y' ∧ x'.Alike y' := by
  induction moves generalizing x y with
  | nil =>
    cases run
    exact ⟨y, rfl, alike⟩
  | cons m rest ih =>
    obtain ⟨next, step, further⟩ := Option.bind_eq_some_iff.1 run
    by_cases early : m.withdraws = true
    · rw [List.filter_cons_of_neg (by simp [early])]
      exact ih (alike.withdrawn early step) sound further
    · rw [List.filter_cons_of_pos (by simpa using early)]
      cases m with
      | callOff => exact absurd rfl early
      | progress m =>
        obtain ⟨next', step', alike⟩ := alike.progress sound (by simpa [Move.withdraws] using early) step
        obtain ⟨y', run', alike⟩ := ih alike (sound.advance step') further
        exact ⟨y', Option.bind_eq_some_iff.2 ⟨next', step', run'⟩, alike⟩

/-- A comparison that ends does so without an error, unless its settings make no sense. -/
theorem Sound.outcome_eq {r : Except Error Unit} (sound : x.Sound s t)
    (ended : x.chronicle.course.outcome s = some r) :
    r = .ok () ∨ ∃ e, s.flaw = some e ∧ r = .error e := by
  cases flaw : s.flaw with
  | some e =>
    rw [Course.outcome, flaw, Option.some.injEq] at ended
    exact .inr ⟨e, rfl, ended.symm⟩
  | none =>
    have forward := (sound.passes .baseToTarget).healthy
    have backward := (sound.passes .targetToBase).healthy
    simp only [Course.outcome, flaw, Session.outcome] at ended
    simp only [pass, Session.pass] at forward backward
    grind

theorem Sound.pending_eq_nil {r : Except Error Unit} (sound : x.Sound s t)
    (ended : x.chronicle.course.outcome s = some r) (kind : Kind) : (x.pass kind).pending = [] := by
  rcases sound.idle with sane | unmoved
  · have fine := (sound.outcome_eq ended).resolve_right (by simp [sane])
    subst fine
    have through : (x.pass kind).phase = .finished := Course.finished_of_ok ended kind
    simp [Pass.pending, through]
  · rw [pass, unmoved]
    cases kind <;> rfl

/-- However the moves of a comparison and the instant at which it is called off fall, if it ends it succeeds,
but for settings that make no sense. Each pass has then looked up its first `k` pages for some `k`, and what it
has attempted to publish are the findings of these, all of them and no others. Were it not called off it would
do the same by these moves, and have looked up all its pages by the end of the data. -/
theorem cut_between_batches {r : Except Error Unit} (run : start.follow s t moves = some x)
    (ended : x.chronicle.course.outcome s = some r) :
    (r = .ok () ∨ ∃ e, s.flaw = some e ∧ r = .error e) ∧
      (∀ kind, ∃ k, x.CutAt s t kind ((pages s.batchSize (s.extent t kind)).take k)) ∧
      (∃ y, start.follow s t (moves.filter (!·.withdraws)) = some y ∧ y.calledOff = false ∧
        y.attempted = x.attempted ∧ y.chronicle.journal = x.chronicle.journal) ∧
      ∀ others z kind, start.follow s t others = some z → z.calledOff = false →
        (z.pass kind).phase = .finished ∨ (z.pass kind).Exhausted s t →
        z.CutAt s t kind (pages s.batchSize (s.extent t kind)) := by
  have sound := (sound_start s t).follow run
  refine ⟨sound.outcome_eq ended, fun kind => ?_, ?_, fun others z kind run lasting through => ?_⟩
  · have cut := sound.cutAt (sound.pending_eq_nil ended kind)
    have inTurn := (sound.passes kind).inTurn
    rw [sound.kinds, List.prefix_iff_eq_take] at inTurn
    exact ⟨_, inTurn ▸ cut⟩
  · have alike : start.Alike start := ⟨fun _ => .inr rfl, rfl, rfl, rfl⟩
    obtain ⟨y, run, alike⟩ := alike.follow (sound_start s t) run
    exact ⟨y, run, alike.lasting, alike.attempted.symm, alike.journal.symm⟩
  · have sound := (sound_start s t).follow run
    have idle : (z.pass kind).pending = [] := by
      rcases through with phase | ⟨phase, -⟩ <;> simp [Pass.pending, phase]
    exact sound.batches_eq_pages lasting through ▸ sound.cutAt idle

/-- While one event of the first page is being published the comparison is called off, and the other pass stops
before its page is looked up. -/
def interrupted : List Move :=
  [.progress (.baseToTarget, .answered), .progress (.targetToBase, .answered),
    .progress (.baseToTarget, .answered), .callOff, .progress (.targetToBase, .calledOff),
    .progress (.baseToTarget, .published ⟨1, .src, .neq⟩ false), .progress (.baseToTarget, .calledOff)]

theorem cut_between_batches_interrupted :
    let s := Settings.whole .src { Tuning.standard with batchSize := 2 }
    ∃ x, start.follow s Course.staleCopy interrupted = some x ∧
      x.chronicle.course.outcome s = some (.ok ()) ∧
      x.attempted .baseToTarget = [⟨1, .src, .neq⟩] ∧ x.attempted .targetToBase = [] ∧
      ∀ kind, ∃ k, x.CutAt s Course.staleCopy kind ((pages 2 (s.extent Course.staleCopy kind)).take k) := by
  intro s
  have reached : (start.follow s Course.staleCopy interrupted).map (fun x =>
      ((x.chronicle.course.outcome s).isSome, x.attempted .baseToTarget, x.attempted .targetToBase)) =
      some (true, [⟨1, .src, .neq⟩], []) := by decide
  obtain ⟨x, run, known⟩ := Option.map_eq_some_iff.1 reached
  simp only [Prod.mk.injEq] at known
  obtain ⟨through, forward, backward⟩ := known
  obtain ⟨r, ended⟩ := Option.isSome_iff_exists.1 through
  obtain ⟨fine, cut, -, -⟩ := cut_between_batches run ended
  have sane : s.flaw = none := by decide
  exact ⟨x, run, fine.resolve_right (by simp [sane]) ▸ ended, forward, backward, cut⟩

end Withdrawal
end Cutover.Validation
