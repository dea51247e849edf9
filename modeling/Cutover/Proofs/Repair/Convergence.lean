import Cutover.Proofs.Repair.Handling
import Cutover.Proofs.Validation.Agreement

/-! Comparison and repair together. A comparison of everything names every record on which the stores
differ; once each of its events has been handled with success, in whatever order, however often and
with whatever overlap, the target is the base over again. -/
namespace Cutover.Repair

open Validation

/-- An undisturbed comparison, and the repair of all that it has found. -/
structure Reconciliation (s : Settings) (t : Tables) (schedule : List Course.Move) (c : Course)
    (r : Repairer) (turns : List Turn) (b : Bench) : Prop where
  smooth : Course.Smooth schedule
  compared : Course.start.follow s t schedule = some c
  succeeded : c.outcome s = some (.ok ())
  built : ∃ t₀, (Repairer.build.run Tables.answer t₀).1 = .ok r
  /-- Only what was published is handled. -/
  known : ∀ e, .begin e ∈ turns → e ∈ c.published
  repaired : (Bench.mk t []).follow r turns = some b
  handled : ∀ e ∈ c.published, b.Handled e

namespace Reconciliation

variable {direction : Side} {tuning : Tuning} {s : Settings} {t : Tables}
  {schedule : List Course.Move} {c : Course} {r : Repairer} {turns : List Turn} {b : Bench}

theorem published (x : Reconciliation s t schedule c r turns b) (once : s.interval = .zero) :
    1 ≤ s.batchSize ∧ c.published.Perm (s.report t .baseToTarget ++ s.report t .targetToBase) := by
  obtain ⟨sane, told⟩ := Course.published_of_ok once x.smooth x.compared x.succeeded
  exact ⟨s.positive_of_flaw sane, told⟩

/-- The repairs all have the base of the comparison. -/
theorem sound (x : Reconciliation (.whole direction tuning) t schedule c r turns b) :
    b.Sound direction t := by
  obtain ⟨t₀, built⟩ := x.built
  refine (Bench.sound_nil direction t).follow (Repairer.columns_of_build built direction) ?_ x.repaired
  intro e begun
  have told := (x.published rfl).2.mem_iff.1 (x.known e begun)
  rcases List.mem_append.1 told with forward | backward
  · exact Settings.direction_of_mem_report forward
  · exact Settings.direction_of_mem_report backward

/-- Record by record: one that differed was found and repaired, any other was in line all along. -/
theorem in_line (x : Reconciliation (.whole direction tuning) t schedule c r turns b) (id : Int64) :
    (b.tables direction.other).get? id = (t direction).get? id := by
  by_cases agreed : (t direction.other).get? id = (t direction).get? id
  · rw [x.sound.line.keeps agreed, x.sound.line.untouched]
  · obtain ⟨positive, told⟩ := x.published rfl
    have named := Settings.mem_ids_report_of_ne positive rfl agreed
    obtain ⟨e, member, rfl⟩ := List.mem_map.1 ((told.map (·.id)).mem_iff.2 named)
    exact x.sound.handled (x.handled e member)

theorem agree (x : Reconciliation (.whole direction tuning) t schedule c r turns b) (side : Side) :
    b.tables side = t direction := by
  by_cases base : side = direction
  · rw [base, x.sound.line.untouched]
  · have target : side = direction.other := by
      cases side <;> cases direction <;> simp_all [Side.other]
    rw [target]
    exact Table.ext_get? x.in_line

/-- Repairs of a stale copy that overlap, one of them tried three times. -/
def overlapping : List Turn :=
  [.begin ⟨1, .src, .neq⟩, .begin ⟨3, .src, .targetMissing⟩, .answered 0, .begin ⟨1, .src, .neq⟩,
    .answered 1, .failed 0 (.unavailable "dst") true, .begin ⟨6, .src, .baseMissing⟩, .answered 2,
    .answered 3, .begin ⟨1, .src, .neq⟩, .answered 1, .answered 2, .answered 4, .answered 3, .answered 4]

/-- The stale copy can be reconciled. -/
theorem reconciliation_staleCopy :
    ∃ c r b, Reconciliation (.whole .src { Tuning.standard with batchSize := 2 }) Course.staleCopy
      Course.comparison c r overlapping b := by
  let s : Settings := .whole .src { Tuning.standard with batchSize := 2 }
  let r := Repairer.mapped
  let c := (Course.start.follow s Course.staleCopy Course.comparison).get (by decide)
  let b := ((Bench.mk Course.staleCopy []).follow r overlapping).get (by decide)
  have compared : Course.start.follow s Course.staleCopy Course.comparison = some c :=
    (Option.some_get _).symm
  have ended : (c.outcome s).isSome = true := by decide
  have published : c.published =
      [⟨1, .src, .neq⟩, ⟨6, .src, .baseMissing⟩, ⟨3, .src, .targetMissing⟩] := by decide
  have known : ∀ turn ∈ overlapping, ∀ e, turn = .begin e → e ∈ c.published := by
    rw [published]
    simp [overlapping]
  have handled : ∀ e ∈ c.published, b.Handled e := by decide
  have repaired : (Bench.mk Course.staleCopy []).follow r overlapping = some b :=
    (Option.some_get _).symm
  clear_value c b
  have undisturbed : Course.Smooth Course.comparison := by decide
  have sound := (Course.follow_smooth rfl (Course.sound_start s _) undisturbed compared).1
  have built : (Repairer.build.run Tables.answer Course.staleCopy).1 = .ok r := Repairer.run_build _
  refine ⟨c, r, b, undisturbed, compared, ?_, ⟨_, built⟩, ?_, repaired, handled⟩
  · refine ((Course.settled (by decide) sound).resolve_left ?_).1
    rintro ⟨running, -⟩
    simp [running] at ended
  · exact fun e member => known _ member e rfl

/-- Comparison and repair converge: the base is what it was, the target has become its equal, and no
comparison of everything that follows publishes anything, whatever happens to it. -/
theorem converges (x : Reconciliation (.whole direction tuning) t schedule c r turns b) :
    b.tables direction = t direction ∧ b.tables direction.other = b.tables direction ∧
      ∀ direction' tuning' schedule' c',
        Course.start.follow (.whole direction' tuning') b.tables schedule' = some c' →
        c'.published = [] := by
  have base := x.agree direction
  have target := x.agree direction.other
  refine ⟨base, target.trans base.symm, ?_⟩
  intro direction' tuning' schedule' c' kept
  exact Course.published_of_agreement x.agree kept

theorem converges_staleCopy :
    ∃ c r b, Reconciliation (.whole .src { Tuning.standard with batchSize := 2 }) Course.staleCopy
        Course.comparison c r overlapping b ∧
      b.tables .src = Course.staleCopy .src ∧ b.tables .dst = b.tables .src := by
  obtain ⟨c, r, b, x⟩ := reconciliation_staleCopy
  exact ⟨c, r, b, x, x.converges.1, x.converges.2.1⟩

end Reconciliation
end Cutover.Repair
