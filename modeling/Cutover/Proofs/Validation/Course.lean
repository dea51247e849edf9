import Cutover.Proofs.Validation.Extent

/-! A comparison under way. Its passes meet what the stores, the queue and the operator have in store
for them, one incident at a time; a schedule tells which pass is next and what happens to it, so that
a statement about all schedules covers every interleaving. -/
namespace Cutover.Validation

/-- What can happen to a pass. -/
inductive Incident where
  /-- The store that the pass waits for answers. -/
  | answered
  /-- It fails, or does not answer in time. -/
  | failed (cause : StoreError)
  /-- A delay or a pause ends. -/
  | rested
  /-- An attempt to publish an event ends. -/
  | published (e : Event) (succeeded : Bool)
  /-- The pass sees that the comparison was called off. -/
  | calledOff

namespace Incident

/-- The events that reach the queue. -/
def news : Incident → List Event
  | .published e true => [e]
  | _ => []

/-- The events that may have reached it. -/
def attempted : Incident → List Event
  | .published e _ => [e]
  | _ => []

theorem news_subset_attempted (i : Incident) : i.news ⊆ i.attempted := by
  cases i with
  | published e succeeded => cases succeeded <;> simp [news, attempted]
  | _ => simp [news]

/-- Nothing fails and nobody interferes. -/
def smooth : Incident → Bool
  | .answered | .rested | .published _ true => true
  | .failed _ | .published _ false | .calledOff => false

end Incident

namespace Pass

/-- What becomes of a pass, if the incident can happen to it. -/
def advance (s : Settings) (t : Tables) (p : Pass) : Incident → Option (Pass × List Note)
  | .answered =>
    match p.phase with
    | .scanning => some (p.onScan s ((p.scan s).run Tables.answer t).1)
    | .checking batch => some (p.onCheck s batch ((p.check s batch).run Tables.answer t).1)
    | _ => none
  | .failed cause =>
    match p.phase with
    | .scanning => some (p.onScan s (.error cause))
    | .checking batch => some (p.onCheck s batch (.error cause))
    | _ => none
  | .rested =>
    match p.phase with
    | .backingOff | .resting => some (p.onRested, [])
    | _ => none
  | .published e succeeded =>
    match p.phase with
    | .publishing _ burst => if e ∈ burst.outstanding then some (p.onPublished e succeeded) else none
    | _ => none
  | .calledOff =>
    match p.phase with
    | .scanning | .backingOff | .resting | .checking _ => some (p.onCancel, [])
    | _ => none

/-- What a pass makes of an incident, by what it was about. -/
inductive Response (s : Settings) (t : Tables) (p : Pass) : Incident → Pass × List Note → Prop where
  | scanned (phase : p.phase = .scanning) :
    Response s t p .answered (p.onScan s ((p.scan s).run Tables.answer t).1)
  | unscanned (phase : p.phase = .scanning) (cause : StoreError) :
    Response s t p (.failed cause) (p.onScan s (.error cause))
  | checked {batch : List Interactive} (phase : p.phase = .checking batch) :
    Response s t p .answered (p.onCheck s batch ((p.check s batch).run Tables.answer t).1)
  | unchecked {batch : List Interactive} (phase : p.phase = .checking batch) (cause : StoreError) :
    Response s t p (.failed cause) (p.onCheck s batch (.error cause))
  | rested (phase : p.phase = .backingOff ∨ p.phase = .resting) :
    Response s t p .rested ({ p with phase := .scanning }, [])
  | published {size : Nat} {burst : Burst} {e : Event} (phase : p.phase = .publishing size burst)
    (member : e ∈ burst.outstanding) (succeeded : Bool) :
    Response s t p (.published e succeeded) (p.onPublished e succeeded)
  | calledOff (free : ∀ size burst, p.phase ≠ .publishing size burst) :
    Response s t p .calledOff ({ p with phase := .finished }, [])

theorem response_of_advance {s : Settings} {t : Tables} {p : Pass} {i : Incident}
    {q : Pass × List Note} (step : p.advance s t i = some q) : Response s t p i q := by
  cases i with
  | answered =>
    cases phase : p.phase <;> simp only [advance, phase, reduceCtorEq, Option.some.injEq] at step
    · exact step ▸ .scanned phase
    · exact step ▸ .checked phase
  | failed cause =>
    cases phase : p.phase <;> simp only [advance, phase, reduceCtorEq, Option.some.injEq] at step
    · exact step ▸ .unscanned phase cause
    · exact step ▸ .unchecked phase cause
  | rested =>
    cases phase : p.phase <;> simp only [advance, phase, reduceCtorEq, Option.some.injEq] at step
    · rw [← step, onRested, phase]
      exact .rested (.inl phase)
    · rw [← step, onRested, phase]
      exact .rested (.inr phase)
  | published e succeeded =>
    cases phase : p.phase <;> simp only [advance, phase, reduceCtorEq] at step
    obtain ⟨member, step⟩ := Option.ite_none_right_eq_some.1 step
    cases step
    exact .published phase member succeeded
  | calledOff =>
    cases phase : p.phase <;> simp only [advance, phase, reduceCtorEq, Option.some.injEq] at step
    all_goals
      rw [← step, onCancel, phase]
      exact .calledOff (by simp [phase])

end Pass

namespace Session

def pass (c : Session) : Kind → Pass
  | .baseToTarget => c.forward
  | .targetToBase => c.backward

def setPass (c : Session) (p : Pass) : Kind → Session
  | .baseToTarget => { c with forward := p }
  | .targetToBase => { c with backward := p }

theorem pass_setPass_self (c : Session) (p : Pass) (k : Kind) : (c.setPass p k).pass k = p := by
  cases k <;> rfl

theorem pass_setPass_of_ne (c : Session) (p : Pass) {j k : Kind} (other : j ≠ k) :
    (c.setPass p k).pass j = c.pass j := by
  cases j <;> cases k <;> first | rfl | exact absurd rfl other

/-- What holds of both passes goes on to do so if it holds of the one that is new. -/
theorem forall_setPass {c : Session} {p : Pass} (k : Kind) {P : Kind → Pass → Prop}
    (all : ∀ j, P j (c.pass j)) (new : P k p) (j : Kind) : P j ((c.setPass p k).pass j) := by
  by_cases same : j = k
  · subst same
    rwa [pass_setPass_self]
  · rw [pass_setPass_of_ne c p same]
    exact all j

/-- While the comparison goes on, the pass that fails decides how it ends. -/
theorem outcome_setPass_failed {c : Session} {p : Pass} {e : Error} (running : c.outcome = none)
    (failed : p.phase = .failed e) (k : Kind) : (c.setPass p k).outcome = some (.error e) := by
  cases k with
  | baseToTarget => simp [setPass, outcome, failed]
  | targetToBase =>
    cases phase : c.forward.phase with
    | failed => simp [outcome, phase] at running
    | _ => simp [setPass, outcome, failed, phase]

end Session

/-- A comparison with what it has published and what is to be counted. -/
structure Course where
  session : Session
  published : List Event
  notes : List Note

namespace Course

def start : Course := ⟨.start, [], []⟩

/-- How the comparison ended, if it has. Settings that make no sense end it before it begins. -/
def outcome (s : Settings) (c : Course) : Option (Except Error Unit) :=
  match s.flaw with
  | some e => some (.error e)
  | none => c.session.outcome

/-- A comparison that did not fail had settings that make sense. -/
theorem flaw_eq_none {s : Settings} (c : Course) (spared : ∀ e, c.outcome s ≠ some (.error e)) :
    s.flaw = none := by
  cases flawed : s.flaw with
  | none => rfl
  | some e => exact absurd (by simp [outcome, flawed]) (spared e)

/-- A comparison succeeds only once both passes are through. -/
theorem finished_of_ok {s : Settings} {c : Course} (ended : c.outcome s = some (.ok ())) (kind : Kind) :
    (c.session.pass kind).phase = .finished := by
  simp only [outcome, Session.outcome] at ended
  cases kind <;> simp only [Session.pass] <;> grind

/-- An incident of one of the passes. -/
abbrev Move := Kind × Incident

def advance (s : Settings) (t : Tables) (c : Course) (m : Move) : Option Course :=
  match c.outcome s with
  | some _ => none
  | none => ((c.session.pass m.1).advance s t m.2).map fun (p, notes) =>
      ⟨c.session.setPass p m.1, c.published ++ m.2.news, c.notes ++ notes⟩

/-- A step is one of a pass, and leaves the other alone. -/
theorem advance_eq_some {s : Settings} {t : Tables} {c d : Course} {m : Move}
    (step : c.advance s t m = some d) : c.outcome s = none ∧ ∃ q,
      (c.session.pass m.1).Response s t m.2 q ∧
      d = ⟨c.session.setPass q.1 m.1, c.published ++ m.2.news, c.notes ++ q.2⟩ := by
  simp only [advance] at step
  split at step
  · cases step
  next running =>
    obtain ⟨q, moved, rfl⟩ := Option.map_eq_some_iff.1 step
    exact ⟨running, q, Pass.response_of_advance moved, rfl⟩

/-- A comparison goes on as long as one of its passes does and neither has failed. -/
theorem outcome_eq_none_of_busy {s : Settings} {c : Course} (sane : s.flaw = none)
    (healthy : ∀ kind e, (c.session.pass kind).phase ≠ .failed e) {kind : Kind}
    (busy : (c.session.pass kind).phase ≠ .finished) : c.outcome s = none := by
  have forward := healthy .baseToTarget
  have backward := healthy .targetToBase
  simp only [outcome, sane, Session.outcome]
  cases kind <;> simp only [Session.pass] at busy forward backward <;> grind

/-- A comparison of which either pass is through or can go on is through itself or can go on. -/
theorem settled_of_passes {s : Settings} {t : Tables} {c : Course} (sane : s.flaw = none)
    (onward : ∀ kind, (c.session.pass kind).phase = .finished ∨
      ∃ i : Incident, i.smooth = true ∧ ((c.session.pass kind).advance s t i).isSome = true) :
    (c.outcome s = none ∧ ∃ m : Move, m.2.smooth = true ∧ (c.advance s t m).isSome = true) ∨
      (c.outcome s = some (.ok ()) ∧ ∀ kind, (c.session.pass kind).phase = .finished) := by
  have healthy (kind : Kind) (e : Error) : (c.session.pass kind).phase ≠ .failed e := by
    intro failed
    rcases onward kind with through | ⟨i, -, enabled⟩
    · simp [failed] at through
    · cases i <;> simp [Pass.advance, failed] at enabled
  by_cases through : ∀ kind, (c.session.pass kind).phase = .finished
  · have first := through .baseToTarget
    have second := through .targetToBase
    simp only [Session.pass] at first second
    exact .inr ⟨by simp [outcome, sane, Session.outcome, first, second], through⟩
  · obtain ⟨kind, busy⟩ := not_forall.1 through
    obtain ⟨i, smooth, enabled⟩ := (onward kind).resolve_left busy
    have running := outcome_eq_none_of_busy sane healthy busy
    exact .inl ⟨running, (kind, i), smooth, by simpa [advance, running] using enabled⟩

/-- Where a schedule leads while the stores stay as they are, if it can be kept. -/
def follow (s : Settings) (t : Tables) : Course → List Move → Option Course
  | c, [] => some c
  | c, m :: rest => (c.advance s t m).bind fun c => c.follow s t rest

/-- A schedule without a failure or an interference. -/
def Smooth (schedule : List Move) : Prop := ∀ m ∈ schedule, m.2.smooth = true

instance (schedule : List Move) : Decidable (Smooth schedule) :=
  inferInstanceAs (Decidable (∀ m ∈ schedule, m.2.smooth = true))

end Course
end Cutover.Validation
