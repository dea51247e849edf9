import Cutover.Proofs.Validation.Progress

/-! A walk by offset through records that change under it. A pass knows how many records it has gone
past, not which: where a record leaves its place behind the pass, another from further on slips into
the part that is never read again. -/
namespace Cutover.Validation

section Slipping

variable {α : Type}

/-- What slips in front of a position is no more than what was taken away there, whatever is added at
the end. -/
theorem countP_take_filter_append_le (unseen keep : α → Bool) (l more : List α) {k : Nat}
    (bound : k ≤ l.length) :
    ((l.filter keep ++ more).take k).countP unseen ≤
      (l.take k).countP unseen + (l.take k).countP (!keep ·) := by
  -- the new part is what was kept of the old, and as many from further on as were taken away
  have parts : l.filter keep ++ more =
      (l.take k).filter keep ++ ((l.drop k).filter keep ++ more) := by
    rw [← List.append_assoc, ← List.filter_append, List.take_append_drop]
  have room : k = ((l.take k).filter keep).length + (l.take k).countP (!keep ·) := by
    have halves := List.length_eq_countP_add_countP keep (l := l.take k)
    rw [List.length_take_of_le bound] at halves
    simpa [List.countP_eq_length_filter] using halves
  have kept : ((l.take k).filter keep).countP unseen ≤ (l.take k).countP unseen :=
    List.filter_sublist.countP_le
  have slipped := List.countP_le_length (p := unseen)
    (l := ((l.drop k).filter keep ++ more).take (k - ((l.take k).filter keep).length))
  rw [parts, List.take_append, List.take_of_length_le (by omega), List.countP_append]
  simp only [List.length_take] at slipped
  omega

theorem countP_take_filter_le (unseen keep : α → Bool) (l : List α) (k : Nat) :
    ((l.filter keep).take k).countP unseen ≤
      (l.take k).countP unseen + (l.take k).countP (!keep ·) := by
  by_cases bound : k ≤ l.length
  · simpa using countP_take_filter_append_le unseen keep l [] bound
  · rw [List.take_of_length_le (l := l) (by omega)]
    have fewer : ((l.filter keep).take k).countP unseen ≤ l.countP unseen :=
      ((List.take_sublist ..).trans List.filter_sublist).countP_le
    omega

end Slipping

namespace Pass

variable {s : Settings} {t : Tables} {p : Pass} {i : Incident} {m : Pass × List Note}

/-- How many records the pass has gone past, those in hand included. -/
def passed (p : Pass) : Nat :=
  match p.phase with
  | .scanning | .backingOff | .resting => p.offset
  | .checking batch => p.offset + batch.length
  | .publishing size _ => p.offset + size
  | .finished | .failed _ => 0

/-- The records in that part of the store now. -/
def behind (s : Settings) (t : Tables) (p : Pass) : List Interactive :=
  (s.extent t p.kind).take p.passed

def fetched (s : Settings) (t : Tables) (p : Pass) (i : Incident) : List Interactive :=
  match i, p.phase with
  | .answered, .scanning =>
    match ((p.scan s).run Tables.answer t).1 with
    | .ok batch => batch
    | .error _ => []
  | _, _ => []

theorem fetched_scanning (s : Settings) (t : Tables) (phase : p.phase = .scanning) :
    p.fetched s t .answered = p.page s t := by
  simp only [fetched, phase, scan_answered, page]

theorem kind_onScan (s : Settings) (p : Pass) (r : Except StoreError (List Interactive)) :
    (p.onScan s r).1.kind = p.kind := by
  rcases r with cause | _ | ⟨first, rest⟩
  · by_cases again : cause.transient = true <;> simp [onScan, again]
  · rfl
  · rfl

theorem kind_onCheck (s : Settings) (p : Pass) (batch : List Interactive)
    (r : Except StoreError Verdict) : (p.onCheck s batch r).1.kind = p.kind := by
  rcases r with cause | ⟨drift, _ | ⟨id, ids⟩⟩
  · by_cases again : cause.transient = true <;> simp [onCheck, again, moveOn]
  · rfl
  · rfl

theorem kind_onPublished (p : Pass) (e : Event) (succeeded : Bool) :
    (p.onPublished e succeeded).1.kind = p.kind := by
  cases phase : p.phase with
  | publishing size burst =>
    by_cases through : (burst.settle e).finished = true <;> simp [onPublished, phase, through, moveOn]
  | _ => simp [onPublished, phase]

theorem kind_of_response (step : p.Response s t i m) : m.1.kind = p.kind := by
  cases step with
  | scanned | unscanned => exact kind_onScan ..
  | checked | unchecked => exact kind_onCheck ..
  | published => exact kind_onPublished ..
  | rested | calledOff => rfl

theorem passed_onCheck_le {batch : List Interactive} (phase : p.phase = .checking batch)
    (r : Except StoreError Verdict) : (p.onCheck s batch r).1.passed ≤ p.passed := by
  rcases r with cause | ⟨drift, _ | ⟨id, ids⟩⟩
  · by_cases again : cause.transient = true <;> simp [onCheck, again, moveOn, passed, phase]
  · simp [onCheck, moveOn, passed, phase]
  · simp [onCheck, passed, phase]

theorem passed_onPublished_le (p : Pass) (e : Event) (succeeded : Bool) :
    (p.onPublished e succeeded).1.passed ≤ p.passed := by
  cases phase : p.phase with
  | publishing size burst =>
    by_cases through : (burst.settle e).finished = true <;>
      simp [onPublished, phase, through, moveOn, passed]
  | _ => simp [onPublished, phase]

/-- A scan takes the pass past the records that it returns. -/
theorem passed_onScan_page (phase : p.phase = .scanning) :
    (p.onScan s (.ok (p.page s t))).1.passed ≤ p.passed + (p.page s t).length := by
  cases found : p.page s t with
  | nil =>
    by_cases once : s.interval = .zero <;> simp [onScan, once, passed, phase]
  | cons first rest => simp [onScan, passed, phase]

theorem passed_onScan_error_le (phase : p.phase = .scanning) (cause : StoreError) :
    (p.onScan s (.error cause)).1.passed ≤ p.passed := by
  by_cases again : cause.transient = true <;> simp [onScan, again, passed, phase]

/-- Only the answer to a scan takes a pass past a record. -/
theorem passed_advance (step : p.Response s t i m) :
    m.1.passed ≤ p.passed + (p.fetched s t i).length := by
  cases step with
  | scanned phase =>
    rw [fetched_scanning s t phase, scan_answered, ← page]
    exact passed_onScan_page phase
  | unscanned phase cause => exact (passed_onScan_error_le phase cause).trans (Nat.le_add_right _ _)
  | checked phase | unchecked phase => exact (passed_onCheck_le phase _).trans (Nat.le_add_right _ _)
  | rested phase => rcases phase with phase | phase <;> simp [passed, phase]
  | published => exact (passed_onPublished_le ..).trans (Nat.le_add_right _ _)
  | calledOff => exact Nat.zero_le _

/-- What is fetched lies just in front of the pass. -/
theorem fetched_eq (s : Settings) (t : Tables) (p : Pass) (i : Incident) :
    p.fetched s t i = ((s.extent t p.kind).drop p.passed).take (p.fetched s t i).length := by
  cases i with
  | answered =>
    cases phase : p.phase with
    | scanning =>
      rw [fetched_scanning s t phase, page, passed, phase, List.length_take, ← List.take_eq_take_min]
    | _ => simp [fetched, phase]
  | _ => simp [fetched]

/-- The records behind a pass were behind it before, or have just been fetched. -/
theorem behind_advance (step : p.Response s t i m) :
    (m.1.behind s t).Sublist (p.behind s t ++ p.fetched s t i) := by
  rw [fetched_eq, behind, behind, kind_of_response step, ← List.take_add]
  exact (List.take_prefix_take_left (passed_advance step)).sublist

/-- The pass scans, and the answer is that there is nothing more. -/
def Exhausted (s : Settings) (t : Tables) (p : Pass) : Prop :=
  p.phase = .scanning ∧ ((p.scan s).run Tables.answer t).1 = .ok []

theorem exhausted_of_length_le (phase : p.phase = .scanning)
    (few : (s.extent t p.kind).length ≤ p.offset) : p.Exhausted s t := by
  refine ⟨phase, ?_⟩
  rw [scan_answered, List.drop_eq_nil_of_le few, List.take_nil]

/-- When there is nothing more to scan, all that the pass walks through is behind it. -/
theorem Exhausted.behind_eq (positive : 1 ≤ s.batchSize) (exhausted : p.Exhausted s t) :
    p.behind s t = s.extent t p.kind := by
  obtain ⟨phase, answer⟩ := exhausted
  rw [scan_answered, Except.ok.injEq, List.take_eq_nil_iff, List.drop_eq_nil_iff] at answer
  rw [behind, passed, phase]
  exact List.take_of_length_le (answer.resolve_left (by omega))

end Pass
end Cutover.Validation
