import Mathlib.Data.List.Perm.Subperm
import Cutover.Proofs.Run
import Cutover.Proofs.Validation.Retry
import Cutover.Proofs.Validation.Survey

/-! One pass of a comparison, while both stores change. Whatever becomes of them, what the scans return is
looked up in the other store batch by batch, and events are published of that alone. What may become of the
store that the pass walks through is a rule, which says more of what is returned. -/
namespace Cutover.Validation

namespace Settings

/-- The findings of a page keep to its records, and to their order. -/
theorem ids_findings_sublist (s : Settings) (t : Tables) (kind : Kind) (page : List Interactive) :
    ((s.findings t kind page).map (·.id)).Sublist (page.map (·.id)) := by
  cases kind with
  | baseToTarget =>
    rw [ids_findings_forward]
    exact List.filter_sublist.map _
  | targetToBase =>
    have lacking : (s.findings t .targetToBase page).map (·.id) =
        (page.filter fun r => (t s.base).get? r.id = none).map (·.id) := by
      rw [findings, List.map_filterMap, ← List.filterMap_eq_map, ← List.filterMap_eq_filter,
        List.filterMap_filterMap]
      apply List.filterMap_congr
      intro r _
      by_cases absent : (t s.base).get? r.id = none <;> simp [Option.guard, absent]
    rw [lacking]
    exact List.filter_sublist.map _

end Settings

namespace Pass

variable {s : Settings} {t u : Tables} {p : Pass} {i : Incident} {m : Pass × List Note}

/-- The keys that the other store has been asked about, where an incident is its answer. -/
def inquired (s : Settings) (p : Pass) : Incident → List Int64
  | .answered =>
    match p.phase with
    | .checking batch => asked (p.consulted s) (p.check s batch)
    | _ => []
  | _ => []
where
  asked {α : Type} (side : Side) : Dialogue stores α → List Int64
    | .ask q _ =>
      match q.2 with
      | .byIds ids | .presentIds ids => if q.1 = side then ids else []
      | _ => []
    | .done _ => []

theorem inquired_checking {batch : List Interactive} (phase : p.phase = .checking batch) :
    p.inquired s .answered = batch.map (·.id) := by
  simp only [inquired, phase]
  cases kind : p.kind <;> simp [check, kind, inquired.asked]

/-- A pass knows no more of the tables than what it walks through. -/
theorem extent_congr (same : u (p.scanned s) = t (p.scanned s)) :
    s.extent u p.kind = s.extent t p.kind := by
  cases kind : p.kind <;> simp only [scanned, kind] at same <;> simp only [Settings.extent, same]

theorem behind_congr (same : u (p.scanned s) = t (p.scanned s)) : p.behind s u = p.behind s t := by
  rw [behind, behind, extent_congr same]

theorem fetched_eq_nil (elsewhere : p.phase ≠ .scanning) (i : Incident) : p.fetched s t i = [] := by
  cases i <;> simp [fetched, elsewhere]

/-- While no read fails, a pass that is not through goes past the very records that it is given. -/
theorem passed_of_response (fine : i.fails = false) (step : p.Response s t i m) :
    m.1.phase = .finished ∨ m.1.passed = p.passed + (p.fetched s t i).length := by
  cases step with
  | scanned phase =>
    rw [fetched_scanning s t phase, scan_answered, ← page]
    cases found : p.page s t with
    | nil => by_cases once : s.interval = .zero <;> simp [onScan, once, passed, phase]
    | cons first rest => exact .inr (by simp [onScan, passed, phase])
  | @checked batch phase =>
    obtain ⟨v, answered, -⟩ := check_answered s t p batch
    rw [fetched_eq_nil (by simp [phase]), answered, onCheck_ok]
    right
    split <;> simp [moveOn, passed, phase]
  | rested phase =>
    rw [fetched_eq_nil (by rcases phase with phase | phase <;> simp [phase])]
    rcases phase with phase | phase <;> exact .inr (by simp [passed, phase])
  | @published size burst e phase _ succeeded =>
    rw [fetched_eq_nil (by simp [phase])]
    right
    by_cases through : (burst.settle e).finished = true <;> simp [onPublished, phase, through, moveOn, passed]
  | calledOff => exact .inl rfl
  | unscanned | unchecked => cases fine

theorem finished_of_response (through : p.phase = .finished) (step : p.Response s t i m) :
    m.1.phase = .finished := by
  cases step with
  | calledOff => rfl
  | rested phase => simp [through] at phase
  | scanned phase | unscanned phase | checked phase | unchecked phase | published phase =>
    cases through.symm.trans phase

theorem scanned_of_response (step : p.Response s t i m) : m.1.scanned s = p.scanned s := by
  rw [scanned, scanned, kind_of_response step]

end Pass

structure Walk where
  tables : Tables
  pass : Pass
  /-- All that scans have returned, one after another. -/
  returned : List Interactive
  /-- The keys that the other store has answered about. -/
  lookedUp : List Int64
  /-- The events whose publication was attempted. -/
  attempted : List Event

namespace Walk

inductive Move where
  | incident (i : Incident)
  /-- The store that the pass walks through changes. -/
  | change (table : Table)
  /-- The other store changes. -/
  | edit (table : Table)

/-- What an incident adds to the record. -/
def after (s : Settings) (x : Walk) (i : Incident) (pass : Pass) : Walk := { x with
  pass
  returned := x.returned ++ x.pass.fetched s x.tables i
  lookedUp := x.lookedUp ++ x.pass.inquired s i
  attempted := x.attempted ++ i.attempted }

section Machine

variable (s : Settings) (rule : Table → Table → Prop) [DecidableRel rule]

/-- No read fails, and the store that the pass walks through changes by the rule. -/
def advance (x : Walk) : Move → Option Walk
  | .incident i =>
    if i.fails then none else (x.pass.advance s x.tables i).map fun (pass, _) => x.after s i pass
  | .change table =>
    if rule (x.tables (x.pass.scanned s)) table then
      some { x with tables := Function.update x.tables (x.pass.scanned s) table }
    else none
  | .edit table => some { x with tables := Function.update x.tables (x.pass.consulted s) table }

def follow : Walk → List Move → Option Walk
  | x, [] => some x
  | x, m :: rest => (x.advance s rule m).bind fun x => x.follow rest

theorem follows : Follows (advance s rule) (follow s rule) := ⟨fun _ => rfl, fun _ _ _ => rfl⟩

end Machine

def start (t : Tables) (kind : Kind) : Walk := ⟨t, .start kind, [], [], []⟩

variable {s : Settings} {rule : Table → Table → Prop} {t : Tables} {x y : Walk} {i : Incident}
  {q : Pass × List Note}

/-- What a move comes to. -/
inductive Turn (s : Settings) (rule : Table → Table → Prop) (x : Walk) : Walk → Prop
  | incident {i : Incident} {q : Pass × List Note} (fine : i.fails = false)
    (step : x.pass.Response s x.tables i q) : Turn s rule x (x.after s i q.1)
  | change {table : Table} (lawful : rule (x.tables (x.pass.scanned s)) table) :
    Turn s rule x { x with tables := Function.update x.tables (x.pass.scanned s) table }
  | edit {tables : Tables} (same : tables (x.pass.scanned s) = x.tables (x.pass.scanned s)) :
    Turn s rule x { x with tables }

theorem turn_of_advance [DecidableRel rule] {m : Move} (step : x.advance s rule m = some y) :
    Turn s rule x y := by
  cases m with
  | incident i =>
    obtain ⟨fine, step⟩ := Option.ite_none_left_eq_some.1 step
    obtain ⟨q, moved, rfl⟩ := Option.map_eq_some_iff.1 step
    exact .incident (by simpa using fine) (Pass.response_of_advance moved)
  | change table =>
    obtain ⟨lawful, step⟩ := Option.ite_none_right_eq_some.1 step
    cases step
    exact .change lawful
  | edit table =>
    cases step
    exact .edit (Function.update_of_ne (Side.other_ne _).symm _ _)

/-- The records of the pass hang together. -/
structure Tidy (x : Walk) : Prop where
  inHand : x.pass.phase = .finished ∨ x.returned.map (·.id) = x.lookedUp ++ x.pass.batch.map (·.id)
  inTurn : x.lookedUp <+: x.returned.map (·.id)
  told : ((x.attempted ++ x.pass.pending).map (·.id)).Subperm x.lookedUp

theorem tidy_start (t : Tables) (kind : Kind) : (start t kind).Tidy where
  inHand := .inr rfl
  inTurn := List.prefix_refl []
  told := List.Subperm.refl []

theorem after_scanned (phase : x.pass.phase = .scanning) (pass : Pass) :
    x.after s .answered pass = { x with pass, returned := x.returned ++ x.pass.page s x.tables } := by
  rw [after, Pass.fetched_scanning s x.tables phase]
  simp [Pass.inquired, phase, Incident.attempted]

theorem after_checked {batch : List Interactive} (phase : x.pass.phase = .checking batch) (pass : Pass) :
    x.after s .answered pass = { x with pass, lookedUp := x.lookedUp ++ batch.map (·.id) } := by
  rw [after, Pass.inquired_checking phase]
  simp [Pass.fetched, phase, Incident.attempted]

theorem Tidy.scanned (tidy : x.Tidy) (phase : x.pass.phase = .scanning) :
    (x.after s .answered (x.pass.onScan s (.ok (x.pass.page s x.tables))).1).Tidy := by
  rw [after_scanned phase]
  have before : x.returned.map (·.id) = x.lookedUp := by simpa [phase, Pass.batch] using tidy.inHand
  have told := tidy.told
  rw [Pass.pending, phase] at told
  refine ⟨.inr ?_, ?_, by rwa [Pass.pending_onScan]⟩
  · rw [List.map_append, before]
    cases x.pass.page s x.tables with
    | nil => by_cases once : s.interval = .zero <;> simp [Pass.onScan, once, Pass.batch]
    | cons first rest => rfl
  · rw [List.map_append, before]
    exact List.prefix_append _ _

theorem Tidy.checked {batch : List Interactive} (tidy : x.Tidy) (phase : x.pass.phase = .checking batch) :
    (x.after s .answered
      (x.pass.onCheck s batch ((x.pass.check s batch).run Tables.answer x.tables).1).1).Tidy := by
  rw [after_checked phase]
  have before : x.returned.map (·.id) = x.lookedUp ++ batch.map (·.id) := by
    simpa [phase, Pass.batch] using tidy.inHand
  have told := tidy.told
  simp only [Pass.pending, phase, List.append_nil] at told
  refine ⟨.inr ?_, before ▸ List.prefix_refl _, ?_⟩
  · obtain ⟨v, answered, -⟩ := Pass.check_answered s x.tables x.pass batch
    rw [answered, Pass.onCheck_ok, before]
    split <;> simp [Pass.batch, Pass.moveOn]
  · rw [Pass.pending_onCheck_answered, List.map_append]
    exact List.Subperm.append told (s.ids_findings_sublist x.tables x.pass.kind batch).subperm

theorem Tidy.published {size : Nat} {burst : Burst} {e : Event} (tidy : x.Tidy)
    (phase : x.pass.phase = .publishing size burst) (member : e ∈ burst.outstanding) (succeeded : Bool) :
    (x.after s (.published e succeeded) (x.pass.onPublished e succeeded).1).Tidy := by
  have before : x.returned.map (·.id) = x.lookedUp := by simpa [phase, Pass.batch] using tidy.inHand
  have unsettled : (x.pass.onPublished e succeeded).1.batch = [] := by
    by_cases through : (burst.settle e).finished = true <;>
      simp [Pass.onPublished, phase, through, Pass.batch, Pass.moveOn]
  have paid := (Pass.perm_pending_onPublished phase member succeeded).append_left x.attempted
  simp only [after, Pass.fetched, Pass.inquired, Incident.attempted, List.append_nil]
  refine ⟨.inr (by rw [unsettled, before, List.map_nil, List.append_nil]), tidy.inTurn, ?_⟩
  rw [List.append_assoc, List.singleton_append]
  exact (paid.map (·.id)).symm.subperm.trans tidy.told

theorem Tidy.incident (tidy : x.Tidy) (fine : i.fails = false) (step : x.pass.Response s x.tables i q) :
    (x.after s i q.1).Tidy := by
  cases step with
  | scanned phase =>
    rw [Pass.scan_answered, ← Pass.page]
    exact tidy.scanned phase
  | checked phase => exact tidy.checked phase
  | published phase member succeeded => exact tidy.published phase member succeeded
  | rested phase =>
    obtain ⟨inHand, inTurn, told⟩ := tidy
    simp only [after, Pass.fetched, Pass.inquired, Incident.attempted, List.append_nil]
    rcases phase with phase | phase <;>
      exact ⟨by simpa [phase, Pass.batch] using inHand, inTurn, by simpa [phase, Pass.pending] using told⟩
  | calledOff =>
    have told := ((List.prefix_append x.attempted x.pass.pending).map (·.id)).sublist.subperm.trans tidy.told
    simp only [after, Pass.fetched, Pass.inquired, Incident.attempted, List.append_nil]
    exact ⟨.inl rfl, tidy.inTurn, by simpa [Pass.pending] using told⟩
  | unscanned | unchecked => cases fine

theorem Tidy.turn (tidy : x.Tidy) (turn : Turn s rule x y) : y.Tidy := by
  cases turn with
  | incident fine step => exact tidy.incident fine step
  | change | edit => exact ⟨tidy.inHand, tidy.inTurn, tidy.told⟩

/-- When a scan returns nothing, all that was returned before has been looked up. -/
theorem Tidy.lookedUp_eq (tidy : x.Tidy) (exhausted : x.pass.Exhausted s x.tables) :
    x.lookedUp = x.returned.map (·.id) := by
  obtain ⟨phase, -⟩ := exhausted
  simpa [phase, Pass.batch, eq_comm] using tidy.inHand

/-- Of what no scan has returned twice no two events tell. -/
theorem Tidy.nodup_told (tidy : x.Tidy) (once : (x.returned.map (·.id)).Nodup) :
    (x.attempted.map (·.id)).Nodup := by
  obtain ⟨looked, told, sublist⟩ := tidy.told
  have distinct := once.sublist (sublist.trans tidy.inTurn.sublist)
  rw [told.nodup_iff, List.map_append] at distinct
  exact distinct.sublist (List.sublist_append_left ..)

end Walk
end Cutover.Validation
