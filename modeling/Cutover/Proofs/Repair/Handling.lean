import Cutover.Proofs.Run
import Cutover.Proofs.Store.View
import Cutover.Repair

/-! Repairs under way side by side. Each handler of an event asks the stores one question after the
other; which handler is answered next, and which request fails, is left open, so that a statement
about all turns covers every interleaving. While nobody else writes, every write brings one record of
the target in line with the base, and no write takes that back. -/
namespace Cutover

namespace Repairer

/-- Repairs of the mapped columns, in both directions. -/
def mapped : Repairer := ⟨fun _ => Interactive.columns⟩

/-- Both stores hold the mapped columns, so these are what repairs write. -/
theorem run_build (t : Tables) : (build.run Tables.answer t).1 = .ok mapped := by
  refine congrArg (Except.ok ∘ Repairer.mk) (funext fun side => ?_)
  cases side <;> rfl

theorem columns_of_build {t : Tables} {r : Repairer}
    (built : (build.run Tables.answer t).1 = .ok r) (side : Side) :
    r.columns side = Interactive.columns := by
  rw [run_build] at built
  cases built
  rfl

end Repairer

namespace Repair

/-- A handler of an event, with what it has still to do. -/
structure Handling where
  event : Event
  rest : Asking Done

/-- Whether the handler has reported success. -/
def Handling.succeeded (h : Handling) : Bool :=
  match h.rest with
  | .done (.ok _) => true
  | _ => false

/-- The stores, and all handlers that were set to work on them. -/
structure Bench where
  tables : Tables
  handlings : List Handling

/-- What happens next. -/
inductive Turn where
  /-- A handler is set to work. -/
  | begin (e : Event)
  /-- The store that a handler waits for answers. -/
  | answered (i : Nat)
  /-- The handler is told of a failure, whether or not the store has done what it was asked for. -/
  | failed (i : Nat) (cause : StoreError) (performed : Bool)

namespace Bench

def advance (r : Repairer) (b : Bench) : Turn → Option Bench
  | .begin e => some { b with handlings := b.handlings ++ [⟨e, r.handle e⟩] }
  | .answered i =>
    match b.handlings[i]? with
    | some ⟨e, .ask q next⟩ =>
      let (reply, tables) := Tables.answer q b.tables
      some ⟨tables, b.handlings.set i ⟨e, next reply⟩⟩
    | _ => none
  | .failed i cause performed =>
    match b.handlings[i]? with
    | some ⟨e, .ask q next⟩ =>
      some ⟨if performed then (Tables.answer q b.tables).2 else b.tables,
        b.handlings.set i ⟨e, next (.error cause)⟩⟩
    | _ => none

/-- What a turn comes to: a handler is new, or one has got a reply to what it asked. -/
inductive Outcome (r : Repairer) (b : Bench) : Turn → Bench → Prop where
  | begun (e : Event) : Outcome r b (.begin e) { b with handlings := b.handlings ++ [⟨e, r.handle e⟩] }
  | answered {i : Nat} {e : Event} {q : stores.Ask} {next : stores.Reply q → Asking Done}
    (found : b.handlings[i]? = some ⟨e, .ask q next⟩) :
    Outcome r b (.answered i) ⟨(Tables.answer q b.tables).2,
      b.handlings.set i ⟨e, next (Tables.answer q b.tables).1⟩⟩
  | failed {i : Nat} {e : Event} {q : stores.Ask} {next : stores.Reply q → Asking Done}
    (found : b.handlings[i]? = some ⟨e, .ask q next⟩) (cause : StoreError) (performed : Bool) :
    Outcome r b (.failed i cause performed)
      ⟨if performed then (Tables.answer q b.tables).2 else b.tables,
        b.handlings.set i ⟨e, next (.error cause)⟩⟩

theorem outcome_of_advance {r : Repairer} {b d : Bench} {turn : Turn}
    (step : b.advance r turn = some d) : Outcome r b turn d := by
  cases turn with
  | begin e =>
    cases step
    exact .begun e
  | answered i =>
    simp only [advance] at step
    split at step
    next found =>
      cases step
      exact .answered found
    next => cases step
  | failed i cause performed =>
    simp only [advance] at step
    split at step
    next found =>
      cases step
      exact .failed found cause performed
    next => cases step

/-- Where turns lead, if they can be taken. -/
def follow (r : Repairer) : Bench → List Turn → Option Bench
  | b, [] => some b
  | b, turn :: rest => (b.advance r turn).bind fun b => b.follow r rest

theorem follows {r : Repairer} : Follows (advance r) (follow r) := ⟨fun _ => rfl, fun _ _ _ => rfl⟩

/-- Some handler of the event has reported success. -/
def Handled (b : Bench) (e : Event) : Prop :=
  ∃ h ∈ b.handlings, h.event = e ∧ h.succeeded = true

instance (b : Bench) (e : Event) : Decidable (b.Handled e) :=
  inferInstanceAs (Decidable (∃ h ∈ b.handlings, h.event = e ∧ h.succeeded = true))

end Bench

section Line

variable {base : Side} {t u v : Tables}

/-- Some records of the target have been brought in line with the base, and nothing else is new. -/
structure InLine (base : Side) (t u : Tables) : Prop where
  untouched : u base = t base
  records : ∀ id, (u base.other).get? id = (t base.other).get? id ∨
    (u base.other).get? id = (t base).get? id

theorem InLine.refl (base : Side) (t : Tables) : InLine base t t := ⟨rfl, fun _ => .inl rfl⟩

theorem InLine.trans (first : InLine base t u) (second : InLine base u v) : InLine base t v := by
  refine ⟨second.untouched.trans first.untouched, fun id => ?_⟩
  rcases second.records id with same | fixed
  · rw [same]
    exact first.records id
  · rw [fixed, first.untouched]
    exact .inr rfl

/-- A record that is in line stays so. -/
theorem InLine.keeps (line : InLine base t u) {id : Int64}
    (same : (t base.other).get? id = (t base).get? id) :
    (u base.other).get? id = (u base).get? id := by
  rw [line.untouched]
  rcases line.records id with kept | fixed
  · rw [kept, same]
  · exact fixed

end Line

/-- What is left to do once the base has been read. -/
def settle (target : Side) (id : Int64) : Option Interactive → Asking Done
  | some record => upsert target Interactive.columns record
  | none => delete target id

section Question

variable {base : Side} {t u : Tables} {id : Int64} {found : Option Interactive} {q : stores.Ask}
  {next : stores.Reply q → Asking Done}

/-- What a write leaves: the base is as it was, and so are all other records of the target. -/
structure Settled (base : Side) (id : Int64) (found : Option Interactive) (t u : Tables) : Prop where
  untouched : u base = t base
  written : ∀ k, (u base.other).get? k = if id = k then found else (t base.other).get? k

theorem Settled.here (settled : Settled base id found t u) : (u base.other).get? id = found :=
  (settled.written id).trans (if_pos rfl)

theorem reads_fix (asks : fix base Interactive.columns id = .ask q next) (t : Tables) :
    q.2.reads = true ∧ (Tables.answer q t).2 = t ∧
      next (Tables.answer q t).1 = settle base.other id ((t base).get? id) := by
  cases asks
  refine ⟨rfl, Tables.answer_reads t rfl, ?_⟩
  simp only [Tables.answer, Table.perform]
  cases (t base).get? id <;> rfl

theorem writes_settle (own : ∀ record ∈ found, record.id = id)
    (asks : settle base.other id found = .ask q next) (t : Tables) :
    q.2.reads = false ∧ Settled base id found t (Tables.answer q t).2 ∧
      ∃ d, next (Tables.answer q t).1 = .done (.ok d) := by
  have apart : base ≠ base.other := (Side.other_ne base).symm
  cases found with
  | none =>
    cases asks
    exact ⟨rfl, ⟨Function.update_of_ne apart .., by simp [Tables.answer, Table.perform]⟩, _, rfl⟩
  | some record =>
    cases asks
    have key : record.id = id := own record rfl
    simp only [Tables.answer, Table.perform, Table.upsert_columns]
    exact ⟨rfl, ⟨Function.update_of_ne apart .., fun k => by simp [key]⟩, _, rfl⟩

/-- A write of what the base has brings the target in line. -/
theorem InLine.of_settled (settled : Settled base id found t u) (here : (t base).get? id = found) :
    InLine base t u := by
  refine ⟨settled.untouched, fun k => ?_⟩
  rw [settled.written]
  split
  next same => exact .inr (same ▸ here.symm)
  next => exact .inl rfl

end Question

/-- How far the repair of one record is: what it has still to do, and what holds by then. -/
inductive Stage (base : Side) (u : Tables) (id : Int64) : Asking Done → Prop where
  | reading : Stage base u id (fix base Interactive.columns id)
  | writing {record : Interactive} (here : (u base).get? id = some record) :
    Stage base u id (upsert base.other Interactive.columns record)
  | deleting (absent : (u base).get? id = none) : Stage base u id (delete base.other id)
  | failed (cause : RepairError) : Stage base u id (.done (.error cause))
  | repaired (d : Done) (same : (u base.other).get? id = (u base).get? id) :
    Stage base u id (.done (.ok d))

namespace Stage

variable {base : Side} {t u : Tables} {id : Int64} {q : stores.Ask}
  {next : stores.Reply q → Asking Done}

/-- Other repairs do not set a repair back. -/
theorem keeps {rest : Asking Done} (stage : Stage base t id rest) (line : InLine base t u) :
    Stage base u id rest := by
  cases stage with
  | reading => exact .reading
  | writing here => exact .writing (by rwa [line.untouched])
  | deleting absent => exact .deleting (by rwa [line.untouched])
  | failed cause => exact .failed cause
  | repaired d same => exact .repaired d (line.keeps same)

theorem settled {found : Option Interactive} (here : (t base).get? id = found)
    (asks : settle base.other id found = .ask q next) :
    InLine base t (Tables.answer q t).2 ∧
      Stage base (Tables.answer q t).2 id (next (Tables.answer q t).1) := by
  have own : ∀ record ∈ found, record.id = id := fun record its => Table.id_of_get? (here.trans its)
  obtain ⟨-, settled, d, done⟩ := writes_settle own asks t
  have line : InLine base t (Tables.answer q t).2 := .of_settled settled here
  rw [done]
  refine ⟨line, .repaired d ?_⟩
  rw [line.untouched, settled.here, here]

/-- An answer takes the repair a stage further, and does at most its own write. -/
theorem answered {rest : Asking Done} (stage : Stage base t id rest) (asks : rest = .ask q next) :
    InLine base t (Tables.answer q t).2 ∧
      Stage base (Tables.answer q t).2 id (next (Tables.answer q t).1) := by
  cases stage with
  | reading =>
    obtain ⟨-, unchanged, left⟩ := reads_fix asks t
    rw [unchanged, left]
    refine ⟨.refl base t, ?_⟩
    cases found : (t base).get? id with
    | some record => exact .writing found
    | none => exact .deleting found
  | writing here => exact settled here asks
  | deleting absent => exact settled absent asks
  | failed | repaired => cases asks

/-- A repair that is told of a failure ends with one. -/
theorem told_failure {rest : Asking Done} (stage : Stage base t id rest) (asks : rest = .ask q next)
    (cause : StoreError) : ∃ e, next (.error cause) = .done (.error e) := by
  cases stage with
  | reading | writing | deleting =>
    cases asks
    exact ⟨_, rfl⟩
  | failed | repaired => cases asks

end Stage

namespace Bench

variable {r : Repairer} {base : Side} {t : Tables} {b d : Bench} {turns : List Turn}

/-- Repairs with one base, while nobody else writes. -/
structure Sound (base : Side) (t : Tables) (b : Bench) : Prop where
  line : InLine base t b.tables
  stages : ∀ h ∈ b.handlings, Stage base b.tables h.event.id h.rest

theorem sound_nil (base : Side) (t : Tables) : Sound base t ⟨t, []⟩ :=
  ⟨.refl base t, by simp⟩

/-- One handler goes on, the others stay where they are. -/
theorem Sound.set {i : Nat} {h : Handling} {u : Tables} (sound : b.Sound base t)
    (line : InLine base b.tables u) (stage : Stage base u h.event.id h.rest) :
    Sound base t ⟨u, b.handlings.set i h⟩ := by
  refine ⟨sound.line.trans line, fun x member => ?_⟩
  rcases List.mem_or_eq_of_mem_set member with other | rfl
  · exact (sound.stages x other).keeps line
  · exact stage

theorem Sound.advance {turn : Turn} (columns : r.columns base = Interactive.columns)
    (sound : b.Sound base t) (known : ∀ e, turn = .begin e → e.direction = base)
    (step : b.advance r turn = some d) : d.Sound base t := by
  cases outcome_of_advance step with
  | begun e =>
    refine ⟨sound.line, fun h member => ?_⟩
    rcases List.mem_append.1 member with old | new
    · exact sound.stages h old
    · rw [List.mem_singleton.1 new, Repairer.handle, known e rfl, columns]
      exact .reading
  | answered found =>
    have stage := sound.stages _ (List.mem_of_getElem? found)
    obtain ⟨line, later⟩ := stage.answered rfl
    exact sound.set line later
  | failed found cause performed =>
    have stage := sound.stages _ (List.mem_of_getElem? found)
    obtain ⟨error, ended⟩ := stage.told_failure rfl cause
    rw [ended]
    refine sound.set ?_ (.failed error)
    cases performed with
    | true => exact (stage.answered rfl).1
    | false => exact .refl base _

theorem Sound.follow (columns : r.columns base = Interactive.columns) (sound : b.Sound base t)
    (known : ∀ e, .begin e ∈ turns → e.direction = base) (kept : b.follow r turns = some d) :
    d.Sound base t := by
  refine follows.invariant (fun turn member _ _ sound step => ?_) sound kept
  exact sound.advance columns (fun e same => known e (same ▸ member)) step

/-- Once a handler has reported success, the record is in line. -/
theorem Sound.handled {e : Event} (sound : b.Sound base t) (handled : b.Handled e) :
    (b.tables base.other).get? e.id = (t base).get? e.id := by
  obtain ⟨h, member, rfl, ended⟩ := handled
  have stage := sound.stages h member
  simp only [Handling.succeeded] at ended
  generalize h.rest = rest at stage ended
  cases stage with
  | repaired d same => rw [same, sound.line.untouched]
  | reading | writing | deleting | failed => cases ended

end Bench
end Repair
end Cutover
