import Cutover.Proofs.Metrics
import Cutover.Proofs.Repair.Handling

/-! One repair from its beginning to its end, over stores that may refuse any request. It asks for a record of the
base and for one write to the target, so that whichever of the two is refused, nothing has been changed by then. -/
namespace Cutover

namespace Tables

/-- Answers a request, unless the store refuses it. -/
def respond (refusal : stores.Ask → Option StoreError) (q : stores.Ask) (t : Tables) : stores.Reply q × Tables :=
  match refusal q with
  | some cause => (.error cause, t)
  | none => answer q t

section Respond

variable {α : Type} {refusal : stores.Ask → Option StoreError} {q : stores.Ask} {d : Dialogue stores α}
  {next : stores.Reply q → Dialogue stores α}

theorem run_refused {cause : StoreError} (refused : refusal q = some cause) (asks : d = .ask q next) (t : Tables) :
    d.run (respond refusal) t = (next (.error cause)).run (respond refusal) t := by
  rw [asks, Dialogue.run_ask, respond, refused]

theorem run_granted (granted : refusal q = none) (asks : d = .ask q next) (t : Tables) :
    d.run (respond refusal) t = (next (answer q t).1).run (respond refusal) (answer q t).2 := by
  rw [asks, Dialogue.run_ask, respond, granted]

end Respond
end Tables

namespace Repair

variable {refusal : stores.Ask → Option StoreError} {base target : Side} {id : Int64} {t : Tables}

/-- The write that brings a record of the target in line with what the base has. -/
def request (id : Int64) : Option Interactive → Store.Request
  | some record => .upsert record Interactive.columns
  | none => .delete id

/-- What the write comes to if the target does as it is asked. -/
def effect (target : Table) (id : Int64) : Option Interactive → Done
  | some _ => .upserted
  | none => .deleted (if (target.get? id).isSome then 1 else 0)

theorem run_settle_refused {found : Option Interactive} {cause : StoreError}
    (own : ∀ record ∈ found, record.id = id) (refused : refusal (target, request id found) = some cause) :
    (settle target id found).run (Tables.respond refusal) t = (.error (.write target.name id cause), t) := by
  cases found with
  | none => exact Tables.run_refused refused rfl t
  | some record =>
    rw [← own record rfl]
    exact Tables.run_refused refused rfl t

theorem run_settle_granted {found : Option Interactive} (granted : refusal (target, request id found) = none) :
    (settle target id found).run (Tables.respond refusal) t =
      (.ok (effect (t target) id found), (Tables.answer (target, request id found) t).2) := by
  cases found with
  | none => exact Tables.run_granted granted rfl t
  | some record =>
    refine (Tables.run_granted granted rfl t).trans ?_
    simp [request, effect, Tables.answer, Table.perform]

theorem run_fix_refused {cause : StoreError} (refused : refusal (base, .byId id) = some cause) :
    (fix base Interactive.columns id).run (Tables.respond refusal) t = (.error (.read base.name id cause), t) :=
  Tables.run_refused refused rfl t

theorem run_fix_granted (granted : refusal (base, .byId id) = none) :
    (fix base Interactive.columns id).run (Tables.respond refusal) t =
      (settle base.other id ((t base).get? id)).run (Tables.respond refusal) t := by
  have asks : fix base Interactive.columns id = .ask (base, .byId id) _ := rfl
  obtain ⟨-, unchanged, next⟩ := reads_fix asks t
  refine (Tables.run_granted granted rfl t).trans ?_
  rw [unchanged, next]

/-- The stores, and what was counted. -/
structure Shop where
  tables : Tables
  metrics : Metrics

namespace Shop

/-- Does a repair of the side opposite to `base`, and counts its outcome. -/
def carryOut (refusal : stores.Ask → Option StoreError) (base : Side) (work : Asking Done) (x : Shop) :
    Outcome × Shop :=
  let (outcome, tables) := work.run (Tables.respond refusal) x.tables
  (outcome, ⟨tables, count base.other outcome x.metrics⟩)

def counted (x : Shop) (c : Counter) : Nat := x.metrics.total c.name

/-- The record is as the base has it, and what was done for that is counted. -/
structure Repaired (base : Side) (id : Int64) (x y : Shop) : Prop where
  record : (y.tables base.other).get? id = (x.tables base).get? id
  others : ∀ k, k ≠ id → (y.tables base.other).get? k = (x.tables base.other).get? k
  untouched : y.tables base = x.tables base
  failures : y.counted .fixerFailures = x.counted .fixerFailures
  written : (((x.tables base).get? id).isSome ∧ y.counted .fixerUpserts = x.counted .fixerUpserts + 1 ∧
      y.counted .fixerDeletes = x.counted .fixerDeletes) ∨
    ((x.tables base).get? id = none ∧ y.counted .fixerUpserts = x.counted .fixerUpserts ∧
      ∃ removed, (x.tables base.other).rows.length = (y.tables base.other).rows.length + removed ∧
        y.counted .fixerDeletes = x.counted .fixerDeletes + removed)

/-- Nothing has happened but that a failure was counted. -/
structure Spared (x y : Shop) : Prop where
  tables : y.tables = x.tables
  failures : y.counted .fixerFailures = x.counted .fixerFailures + 1
  upserts : y.counted .fixerUpserts = x.counted .fixerUpserts
  deletes : y.counted .fixerDeletes = x.counted .fixerDeletes

variable {x : Shop}

theorem repaired_of_granted (base : Side) (id : Int64) (x : Shop) :
    let found := (x.tables base).get? id
    Repaired base id x ⟨(Tables.answer (base.other, request id found) x.tables).2,
      count base.other (.ok (effect (x.tables base.other) id found)) x.metrics⟩ := by
  cases found : (x.tables base).get? id with
  | some record =>
    have own : ∀ r ∈ some record, r.id = id := fun r its => Table.id_of_get? (found.trans its)
    have asks : settle base.other id (some record) = .ask (base.other, request id (some record)) _ := rfl
    obtain ⟨-, settled, -⟩ := writes_settle own asks x.tables
    refine ⟨settled.here.trans found.symm, fun k other => ?_, settled.untouched, ?_, .inl ⟨by simp [found], ?_, ?_⟩⟩
    · exact (settled.written k).trans (if_neg other.symm)
    · exact Metrics.total_add_of_ne (by decide) ..
    · exact Metrics.total_add ..
    · exact Metrics.total_add_of_ne (by decide) ..
  | none =>
    have own : ∀ r ∈ (none : Option Interactive), r.id = id := nofun
    have asks : settle base.other id none = .ask (base.other, request id none) _ := rfl
    obtain ⟨-, settled, -⟩ := writes_settle own asks x.tables
    refine ⟨settled.here.trans found.symm, fun k other => ?_, settled.untouched, ?_,
      .inr ⟨found, ?_, if ((x.tables base.other).get? id).isSome then 1 else 0, ?_, ?_⟩⟩
    · exact (settled.written k).trans (if_neg other.symm)
    · exact Metrics.total_add_of_ne (by decide) ..
    · exact Metrics.total_add_of_ne (by decide) ..
    · simpa [Tables.answer, request, Table.perform] using (x.tables base.other).length_erase id
    · exact Metrics.total_add ..

theorem spared (base : Side) (e : RepairError) (x : Shop) :
    Spared x ⟨x.tables, count base.other (.error e) x.metrics⟩ :=
  ⟨rfl, Metrics.total_add .., Metrics.total_add_of_ne (by decide) .., Metrics.total_add_of_ne (by decide) ..⟩

/-- A repair succeeds unless a store refuses what it is asked for. -/
def Granted (refusal : stores.Ask → Option StoreError) (base : Side) (id : Int64) (t : Tables) : Prop :=
  refusal (base, .byId id) = none ∧ refusal (base.other, request id ((t base).get? id)) = none

theorem carryOut_fix (refusal : stores.Ask → Option StoreError) (base : Side) (id : Int64) (x : Shop) :
    let done := x.carryOut refusal base (fix base Interactive.columns id)
    (Granted refusal base id x.tables ∧ (∃ d, done.1 = .ok d) ∧ Repaired base id x done.2) ∨
      (¬Granted refusal base id x.tables ∧ (∃ e, done.1 = .error e) ∧ Spared x done.2) := by
  have own : ∀ record ∈ (x.tables base).get? id, record.id = id := fun _ its => Table.id_of_get? its
  simp only [carryOut, Granted]
  cases read : refusal (base, .byId id) with
  | some cause =>
    rw [run_fix_refused read]
    exact .inr ⟨by simp, ⟨_, rfl⟩, spared base _ x⟩
  | none =>
    rw [run_fix_granted read]
    cases write : refusal (base.other, request id ((x.tables base).get? id)) with
    | some cause =>
      rw [run_settle_refused own write]
      exact .inr ⟨by simp, ⟨_, rfl⟩, spared base _ x⟩
    | none =>
      rw [run_settle_granted write]
      exact .inl ⟨⟨rfl, rfl⟩, ⟨_, rfl⟩, repaired_of_granted base id x⟩

end Shop
end Repair

theorem Repairer.columns_of_build_respond {early : stores.Ask → Option StoreError} {t : Tables} {r : Repairer}
    (built : (build.run (Tables.respond early) t).1 = .ok r) (side : Side) :
    r.columns side = Interactive.columns := by
  have introspected (base : Side) (t : Tables) :
      ((Repair.introspect base).run (Tables.respond early) t).1 = .ok Interactive.columns ∨
        ∃ e, ((Repair.introspect base).run (Tables.respond early) t).1 = .error e := by
    cases refused : early (base, .columns) with
    | some cause => exact .inr ⟨_, congrArg Prod.fst (Tables.run_refused refused rfl t)⟩
    | none => exact .inl (congrArg Prod.fst (Tables.run_granted refused rfl t))
  rw [build, Dialogue.run_bind] at built
  rcases introspected .src t with src | ⟨e, src⟩
  · rw [src, Dialogue.run_bind] at built
    rcases introspected .dst ((Repair.introspect .src).run (Tables.respond early) t).2 with dst | ⟨e, dst⟩
    · rw [dst] at built
      cases built
      cases side <;> rfl
    · rw [dst] at built
      cases built
  · rw [src] at built
    cases built

namespace Repair.Shop

variable {early refusal : stores.Ask → Option StoreError} {t : Tables} {r : Repairer}

/-- Whatever the stores hold and refuse, what is done about an event either brings its record of the target in
line and changes no other, or it fails and changes nothing; the counters tell which, and it fails only if a
request was refused. What the event says was wrong makes no difference. A repair that trusts the event when
that says the base lacks the record comes to the same if it is true. -/
theorem all_or_nothing (built : (Repairer.build.run (Tables.respond early) t).1 = .ok r)
    (refusal : stores.Ask → Option StoreError) (e : Event) (x : Shop) :
    let done := x.carryOut refusal e.direction (r.handle e)
    (∀ d, done.1 = .ok d → Repaired e.direction e.id x done.2) ∧
      (∀ cause, done.1 = .error cause → Spared x done.2) ∧
      ((∃ d, done.1 = .ok d) ↔ Granted refusal e.direction e.id x.tables) ∧
      x.carryOut refusal e.direction (fix e.direction (r.columns e.direction) e.id) = done ∧
      (∀ drift, x.carryOut refusal e.direction (r.handle { e with drift }) = done) ∧
      (refusal (e.direction, .byId e.id) = none → (x.tables e.direction).get? e.id = none →
        x.carryOut refusal e.direction
          (fixAs e.direction (r.columns e.direction) { e with drift := .baseMissing }) = done) := by
  have columns := Repairer.columns_of_build_respond built e.direction
  have whole : r.handle e = fix e.direction Interactive.columns e.id := by rw [Repairer.handle, columns]
  intro done
  have outcome := carryOut_fix refusal e.direction e.id x
  rw [← whole] at outcome
  refine ⟨fun d ok => ?_, fun cause failed => ?_, ?_, rfl, fun drift => rfl, fun readable absent => ?_⟩
  · rcases outcome with ⟨-, -, repaired⟩ | ⟨-, ⟨cause, failed⟩, -⟩
    · exact repaired
    · cases ok.symm.trans failed
  · rcases outcome with ⟨-, ⟨d, ok⟩, -⟩ | ⟨-, -, spared⟩
    · cases ok.symm.trans failed
    · exact spared
  · rcases outcome with ⟨granted, ok, -⟩ | ⟨refused, ⟨cause, failed⟩, -⟩
    · exact iff_of_true ok granted
    · refine iff_of_false ?_ refused
      rintro ⟨d, ok⟩
      cases ok.symm.trans failed
  · have same : (fix e.direction Interactive.columns e.id).run (Tables.respond refusal) x.tables = _ :=
      run_fix_granted readable
    rw [absent] at same
    simp only [done, carryOut, whole, same]
    rfl

/-- One record has changed in the source, and one is gone from it. -/
def outdated : Shop where
  tables
    | .src => ⟨[⟨1, 10, "article", 5, 1, 0, 90, 20⟩], by decide⟩
    | .dst => ⟨[⟨1, 10, "article", 4, 1, 0, 80, 20⟩, ⟨6, 15, "article", 0, 0, 0, 10, 10⟩], by decide⟩
  metrics := []

/-- The destination lets nothing be deleted. -/
def keepsAll : stores.Ask → Option StoreError
  | (.dst, .delete _) => some (.unavailable "dst")
  | _ => none

theorem all_or_nothing_keepsAll :
    (Repairer.build.run (Tables.respond keepsAll) outdated.tables).1 = .ok Repairer.mapped ∧
      Repaired .src 1 outdated (outdated.carryOut keepsAll .src (Repairer.mapped.handle ⟨1, .src, .neq⟩)).2 ∧
      Spared outdated (outdated.carryOut keepsAll .src (Repairer.mapped.handle ⟨6, .src, .baseMissing⟩)).2 := by
  have built : (Repairer.build.run (Tables.respond keepsAll) outdated.tables).1 = .ok Repairer.mapped := by
    refine congrArg (Except.ok ∘ Repairer.mk) (funext fun side => ?_)
    cases side <;> rfl
  refine ⟨built, ?_, ?_⟩
  · obtain ⟨repaired, -, granted, -⟩ := all_or_nothing built keepsAll ⟨1, .src, .neq⟩ outdated
    obtain ⟨d, ok⟩ := granted.2 ⟨rfl, rfl⟩
    exact repaired d ok
  · obtain ⟨-, spared, -⟩ := all_or_nothing built keepsAll ⟨6, .src, .baseMissing⟩ outdated
    exact spared (.write "dst" 6 (.unavailable "dst")) rfl

end Repair.Shop
end Cutover
