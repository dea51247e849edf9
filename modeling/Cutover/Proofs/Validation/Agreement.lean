import Cutover.Proofs.Validation.Detection

/-! A comparison of two stores that agree. Whatever happens to it, failures and interference
included, it never comes to the point of publishing. -/
namespace Cutover.Validation

namespace Settings

variable {s : Settings} {t : Tables}

theorem extent_subset (s : Settings) (t : Tables) (kind : Kind) {r : Interactive}
    (member : r ∈ s.extent t kind) : ∃ side, r ∈ (t side).rows := by
  cases kind with
  | baseToTarget => exact ⟨s.base, ((s.mem_extent_forward t r).1 member).1⟩
  | targetToBase => exact ⟨s.target, member⟩

/-- Records that both stores have give nothing away. -/
theorem findings_of_agreement {table : Table} (agree : ∀ side, t side = table) {kind : Kind}
    {page : List Interactive} (known : ∀ r ∈ page, r ∈ table.rows) : s.findings t kind page = [] := by
  cases kind with
  | baseToTarget =>
    have none : (s.findings t .baseToTarget page).map (·.id) = [] := by
      rw [ids_findings_forward, agree, List.map_eq_nil_iff, List.filter_eq_nil_iff]
      intro r member
      simp [table.get?_of_mem (known r member)]
    exact List.map_eq_nil_iff.1 none
  | targetToBase =>
    simp only [findings, agree]
    rw [List.filterMap_eq_nil_iff]
    intro r member
    simp [table.get?_of_mem (known r member)]

end Settings

namespace Pass

variable {s : Settings} {t : Tables} {table : Table} {p : Pass} {i : Incident}

/-- Nothing is to be published, and what is looked up is there. -/
def Quiet (table : Table) (p : Pass) : Prop :=
  match p.phase with
  | .checking batch => ∀ r ∈ batch, r ∈ table.rows
  | .publishing .. => False
  | _ => True

theorem quiet_moveOn (table : Table) (p : Pass) (size : Nat) : (p.moveOn size).Quiet table := trivial

theorem quiet_onScan (table : Table) (s : Settings) (p : Pass) {r : Except StoreError (List Interactive)}
    (known : ∀ batch, r = .ok batch → ∀ x ∈ batch, x ∈ table.rows) : (p.onScan s r).1.Quiet table := by
  cases r with
  | error cause =>
    simp only [onScan]
    split <;> trivial
  | ok batch =>
    cases batch with
    | nil => by_cases once : s.interval = .zero <;> simp [onScan, Quiet, once]
    | cons first rest => exact known _ rfl

/-- Whatever happens to a pass over stores that agree, it stays quiet. -/
theorem Quiet.advance {m : Pass × List Note} (agree : ∀ side, t side = table) (quiet : p.Quiet table)
    (step : p.Response s t i m) : m.1.Quiet table ∧ i.news = [] := by
  cases step with
  | scanned phase =>
    refine ⟨quiet_onScan table s p fun batch told x member => ?_, rfl⟩
    rw [scan_answered, Except.ok.injEq] at told
    subst told
    obtain ⟨side, there⟩ :=
      s.extent_subset t p.kind (List.mem_of_mem_drop (List.mem_of_mem_take member))
    rwa [agree] at there
  | unscanned phase cause => exact ⟨quiet_onScan table s p (by simp), rfl⟩
  | @checked batch phase =>
    obtain ⟨v, answered, events⟩ := check_answered s t p batch
    simp only [Quiet, phase] at quiet
    rw [answered, onCheck_ok, events, Settings.findings_of_agreement agree quiet]
    exact ⟨quiet_moveOn .., rfl⟩
  | unchecked phase cause =>
    refine ⟨?_, rfl⟩
    simp only [onCheck]
    split
    · exact quiet_moveOn ..
    · trivial
  | published phase => simp [Quiet, phase] at quiet
  | rested | calledOff => exact ⟨trivial, rfl⟩

end Pass

namespace Course

variable {s : Settings} {t : Tables} {table : Table} {c d : Course} {schedule : List Move}

theorem quiet_follow (agree : ∀ side, t side = table) (quiet : ∀ kind, (c.session.pass kind).Quiet table)
    (kept : c.follow s t schedule = some d) : d.published = c.published := by
  induction schedule generalizing c with
  | nil =>
    cases kept
    rfl
  | cons m rest ih =>
    obtain ⟨next, step, kept⟩ := Option.bind_eq_some_iff.1 kept
    obtain ⟨-, q, here, rfl⟩ := advance_eq_some step
    obtain ⟨later, silent⟩ := (quiet m.1).advance agree here
    have all := Session.forall_setPass m.1 (P := fun _ p => p.Quiet table) quiet later
    simpa [silent] using ih all kept

/-- Stores that agree give rise to no event. -/
theorem published_of_agreement (agree : ∀ side, t side = table)
    (kept : start.follow s t schedule = some c) : c.published = [] :=
  quiet_follow agree (fun kind => by cases kind <;> trivial) kept

end Course
end Cutover.Validation
