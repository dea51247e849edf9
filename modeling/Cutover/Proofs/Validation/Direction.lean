import Cutover.Proofs.Validation.Progress

/-! The direction of a comparison. Whatever happens to a comparison, and however the stores change
meanwhile, all that it ever tries to publish is marked with the direction of its settings. -/
namespace Cutover.Validation

namespace Pass

variable {s : Settings} {t : Tables} {p : Pass} {i : Incident}

/-- What the pass is about to publish. -/
def pending (p : Pass) : List Event :=
  match p.phase with
  | .publishing _ burst => burst.all
  | _ => []

/-- All that the pass is about to publish has the direction of the settings. -/
def Aimed (s : Settings) (p : Pass) : Prop := ∀ e ∈ p.pending, e.direction = s.direction

theorem pending_onScan (s : Settings) (p : Pass) (r : Except StoreError (List Interactive)) :
    (p.onScan s r).1.pending = [] := by
  rcases r with cause | _ | ⟨first, rest⟩
  · by_cases again : cause.transient = true <;> simp [onScan, again, pending]
  · by_cases once : s.interval = .zero <;> simp [onScan, once, pending]
  · rfl

theorem pending_onCheck_error (s : Settings) (p : Pass) (batch : List Interactive) (cause : StoreError) :
    (p.onCheck s batch (.error cause)).1.pending = [] := by
  by_cases again : cause.transient = true <;> simp [onCheck, again, pending, moveOn]

/-- What is to be published after a look-up are the findings of the batch. -/
theorem pending_onCheck_answered (s : Settings) (t : Tables) (p : Pass) (batch : List Interactive) :
    (p.onCheck s batch ((p.check s batch).run Tables.answer t).1).1.pending =
      s.findings t p.kind batch := by
  obtain ⟨v, answered, events⟩ := check_answered s t p batch
  rw [answered, onCheck_ok, ← events]
  cases v.events s.direction with
  | nil => rfl
  | cons e rest => simp [pending]

/-- An attempt that has ended is pending no more. -/
theorem perm_pending_onPublished {size : Nat} {burst : Burst} {e : Event}
    (phase : p.phase = .publishing size burst) (member : e ∈ burst.outstanding) (succeeded : Bool) :
    p.pending.Perm (e :: (p.onPublished e succeeded).1.pending) := by
  have settled := Burst.all_settle member
  rw [pending, phase]
  by_cases through : (burst.settle e).finished = true
  · rw [(Burst.finished_iff _).1 through] at settled
    simpa [onPublished, phase, through, pending, moveOn] using settled
  · simpa [onPublished, phase, through, pending] using settled

/-- What is pending, and what is attempted, was pending before or has just been found. -/
theorem pending_advance {m : Pass × List Note} (step : p.Response s t i m) {e : Event}
    (member : e ∈ i.attempted ++ m.1.pending) :
    e ∈ p.pending ∨ ∃ batch, p.phase = .checking batch ∧ e ∈ s.findings t p.kind batch := by
  cases step with
  | scanned | unscanned => simp [Incident.attempted, pending_onScan] at member
  | @checked batch phase =>
    rw [pending_onCheck_answered] at member
    exact .inr ⟨batch, phase, member⟩
  | unchecked => simp [Incident.attempted, pending_onCheck_error] at member
  | published phase there succeeded =>
    exact .inl ((perm_pending_onPublished phase there succeeded).mem_iff.2 member)
  | rested | calledOff => simp [Incident.attempted, pending] at member

theorem Aimed.advance {m : Pass × List Note} (aimed : p.Aimed s) (step : p.Response s t i m) :
    m.1.Aimed s ∧ ∀ e ∈ i.attempted, e.direction = s.direction := by
  have all : ∀ e ∈ i.attempted ++ m.1.pending, e.direction = s.direction := by
    intro e member
    rcases pending_advance step member with before | ⟨batch, -, found⟩
    · exact aimed e before
    · exact Settings.direction_of_mem_findings found
  exact ⟨fun e member => all e (List.mem_append_right _ member),
    fun e member => all e (List.mem_append_left _ member)⟩

end Pass

namespace Course

variable {s : Settings} {t : Tables} {c d : Course} {m : Move}

/-- Both passes are aimed. -/
def Aimed (s : Settings) (c : Course) : Prop := ∀ kind, (c.session.pass kind).Aimed s

theorem aimed_start (s : Settings) : start.Aimed s := by
  intro kind
  cases kind <;> simp [Pass.Aimed, Pass.pending, start, Session.start, Session.pass, Pass.start]

theorem Aimed.advance (aimed : c.Aimed s) (step : c.advance s t m = some d) :
    d.Aimed s ∧ ∀ e ∈ m.2.attempted, e.direction = s.direction := by
  obtain ⟨-, q, here, rfl⟩ := advance_eq_some step
  obtain ⟨later, attempted⟩ := (aimed m.1).advance here
  exact ⟨Session.forall_setPass m.1 (P := fun _ p => p.Aimed s) aimed later, attempted⟩

end Course
end Cutover.Validation
