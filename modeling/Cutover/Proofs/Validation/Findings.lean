import Cutover.Proofs.Validation.Course

/-! What the pages of a comparison give away. The findings of a page are stated by the two tables
alone; looking the page up in the other store and judging the answer comes to the same. -/
namespace Cutover.Validation

namespace Settings

/-- The events that one page is worth. Of a page of which the target has nothing all records are
missing; of any other those that the target lacks or holds differently are different. -/
def findings (s : Settings) (t : Tables) : Kind → List Interactive → List Event
  | .baseToTarget, page =>
    if ∀ r ∈ page, (t s.target).get? r.id = none then page.map fun r => ⟨r.id, s.direction, .targetMissing⟩
    else page.filterMap fun r =>
      if (t s.target).get? r.id = some r then none else some ⟨r.id, s.direction, .neq⟩
  | .targetToBase, page => page.filterMap fun r =>
      if (t s.base).get? r.id = none then some ⟨r.id, s.direction, .baseMissing⟩ else none

/-- The events of all pages of a pass. -/
def report (s : Settings) (t : Tables) (kind : Kind) : List Event :=
  (pages s.batchSize (s.extent t kind)).flatMap (s.findings t kind)

theorem findings_length_le (s : Settings) (t : Tables) (kind : Kind) (page : List Interactive) :
    (s.findings t kind page).length ≤ page.length := by
  cases kind with
  | baseToTarget =>
    simp only [findings]
    split
    · simp
    · exact List.length_filterMap_le _ _
  | targetToBase => exact List.length_filterMap_le _ _

theorem direction_of_mem_findings {s : Settings} {t : Tables} {kind : Kind} {page : List Interactive}
    {e : Event} (member : e ∈ s.findings t kind page) : e.direction = s.direction := by
  cases kind with
  | baseToTarget =>
    simp only [findings] at member
    split at member
    · obtain ⟨r, -, rfl⟩ := List.mem_map.1 member
      rfl
    · obtain ⟨r, -, made⟩ := List.mem_filterMap.1 member
      grind
  | targetToBase =>
    obtain ⟨r, -, made⟩ := List.mem_filterMap.1 member
    grind

/-- From the target the size of the pages makes no difference. -/
theorem report_backward (s : Settings) (t : Tables) (positive : 1 ≤ s.batchSize) :
    s.report t .targetToBase = (t s.target).rows.filterMap fun r =>
      if (t s.base).get? r.id = none then some ⟨r.id, s.direction, .baseMissing⟩ else none :=
  flatMap_filterMap_pages positive _ _

end Settings

namespace Verdict

/-- The events of a verdict. -/
def events (v : Verdict) (direction : Side) : List Event := v.ids.map fun id => ⟨id, direction, v.drift⟩

/-- Among the records that a table has of some keys the last with a key is the one of the table. -/
theorem lastWith_found (t : Table) {ids : List Int64} {id : Int64} (asked : id ∈ ids) :
    lastWith id (ids.filterMap t.get?) = t.get? id := by
  cases found : t.get? id with
  | none =>
    simp only [lastWith, List.find?_eq_none, List.mem_reverse, List.mem_filterMap]
    rintro r ⟨k, -, there⟩ same
    have key : r.id = k := Table.id_of_get? there
    have : k = id := by simpa [key] using same
    simp [← this, there] at found
  | some r =>
    have member : r ∈ (ids.filterMap t.get?).reverse := by
      simpa using ⟨id, asked, found⟩
    obtain ⟨x, hx⟩ := Option.isSome_iff_exists.1 (List.find?_isSome
      (p := fun y : Interactive => y.id == id).2 ⟨r, member, by simp [Table.id_of_get? found]⟩)
    have key : x.id = id := by simpa using List.find?_some hx
    have there : x ∈ ids.filterMap t.get? := List.mem_reverse.1 (List.mem_of_find?_eq_some hx)
    obtain ⟨k, -, hk⟩ := List.mem_filterMap.1 there
    have : k = id := (Table.id_of_get? hk).symm.trans key
    rw [lastWith, hx, ← hk, this, found]

theorem events_ofTargets (s : Settings) (t : Tables) (page : List Interactive) :
    (ofTargets page ((page.map (·.id)).filterMap (t s.target).get?)).events s.direction =
      s.findings t .baseToTarget page := by
  have none_there : ((page.map (·.id)).filterMap (t s.target).get?).isEmpty = true ↔
      ∀ r ∈ page, (t s.target).get? r.id = none := by simp
  simp only [ofTargets, Settings.findings, none_there]
  split
  · simp [events]
  · have same : page.filter (fun r => lastWith r.id ((page.map (·.id)).filterMap (t s.target).get?)
          != some r) = page.filter fun r => (t s.target).get? r.id != some r := by
      apply List.filter_congr
      intro r member
      rw [lastWith_found _ (List.mem_map_of_mem member)]
    rw [same, events, List.map_map, ← List.filterMap_eq_map, ← List.filterMap_eq_filter,
      List.filterMap_filterMap]
    apply List.filterMap_congr
    intro r _
    by_cases h : (t s.target).get? r.id = some r <;> simp [Option.guard, h]

theorem events_ofPresent (s : Settings) (t : Tables) (page : List Interactive) :
    (ofPresent page ((page.map (·.id)).filter fun id => ((t s.base).get? id).isSome)).events
      s.direction = s.findings t .targetToBase page := by
  have same : (page.map (·.id)).filter (fun id =>
        !((page.map (·.id)).filter fun id => ((t s.base).get? id).isSome).contains id) =
      (page.map (·.id)).filter fun id => ((t s.base).get? id).isNone := by
    apply List.filter_congr
    intro id member
    cases h : (t s.base).get? id <;> simp_all
  simp only [ofPresent, Settings.findings, events, same]
  rw [List.filter_map, List.map_map, ← List.filterMap_eq_map, ← List.filterMap_eq_filter,
    List.filterMap_filterMap]
  apply List.filterMap_congr
  intro r _
  cases h : (t s.base).get? r.id <;> simp [Option.guard, h]

end Verdict

namespace Pass

variable {s : Settings} {t : Tables} {p : Pass}

/-- A scan yields the part of the extent from the offset on, as far as a page goes. -/
theorem scan_answered (s : Settings) (t : Tables) (p : Pass) :
    ((p.scan s).run Tables.answer t).1 = .ok (((s.extent t p.kind).drop p.offset).take s.batchSize) := by
  obtain ⟨kind, offset, failures, phase⟩ := p
  cases kind with
  | targetToBase => rfl
  | baseToTarget =>
    cases mode : s.mode <;>
      simp only [scan, Settings.extent, mode] <;> rfl

/-- Looking a page up yields a verdict with the findings of the page. -/
theorem check_answered (s : Settings) (t : Tables) (p : Pass) (page : List Interactive) :
    ∃ v : Verdict, ((p.check s page).run Tables.answer t).1 = .ok v ∧
      v.events s.direction = s.findings t p.kind page := by
  obtain ⟨kind, offset, failures, phase⟩ := p
  cases kind with
  | baseToTarget => exact ⟨_, rfl, Verdict.events_ofTargets s t page⟩
  | targetToBase =>
    have back : s.target.other = s.base := by simp [Settings.target]
    refine ⟨.ofPresent page ((page.map (·.id)).filter fun id =>
      ((t s.target.other).get? id).isSome), rfl, ?_⟩
    rw [back]
    exact Verdict.events_ofPresent s t page

/-- After a look-up the pass publishes the events of the verdict, or goes on when there are none. -/
theorem onCheck_ok (s : Settings) (p : Pass) (page : List Interactive) (v : Verdict) :
    (p.onCheck s page (.ok v)).1 =
      match v.events s.direction with
      | [] => p.moveOn page.length
      | e :: rest => { p with phase := .publishing page.length (.start (e :: rest)) } := by
  obtain ⟨drift, ids⟩ := v
  cases ids <;> rfl

end Pass
end Cutover.Validation
