import Cutover.Proofs.Validation.Findings

/-! How a pass that nothing disturbs gets on. At each point it owes the events of the page in hand and
of the pages ahead; every step pays what it publishes off that debt and comes closer to the end, and
as long as the end is not reached there is a step to take. -/
namespace Cutover.Validation

namespace Burst

/-- The attempts that have not ended, under way or not. -/
def all (b : Burst) : List Event := b.outstanding ++ b.waiting

@[simp] theorem all_fill (b : Burst) : b.fill.all = b.all := by
  simp [all, fill, List.append_assoc]

@[simp] theorem all_start (events : List Event) : (start events).all = events := by
  rw [start, all_fill, all, List.nil_append]

theorem all_settle {b : Burst} {e : Event} (member : e ∈ b.outstanding) :
    b.all.Perm (e :: (b.settle e).all) := by
  rw [settle, all_fill]
  exact (List.perm_cons_erase member).append_right b.waiting

theorem finished_iff (b : Burst) : b.finished = true ↔ b.all = [] := by
  simp [finished, all, and_comm]

/-- Once filled up, a burst that is not through has an attempt under way. -/
theorem outstanding_fill_ne_nil {b : Burst} (left : b.all ≠ []) : b.fill.outstanding ≠ [] := by
  intro none
  simp only [fill, List.append_eq_nil_iff] at none
  obtain ⟨idle, room⟩ := none
  have waiting : b.waiting = [] := by
    rw [idle] at room
    simpa [width] using room
  exact left (by simp [all, idle, waiting])

end Burst

namespace Pass

variable {s : Settings} {t : Tables} {p : Pass} {i : Incident}

/-- The page at an offset. -/
def page (s : Settings) (t : Tables) (p : Pass) : List Interactive :=
  ((s.extent t p.kind).drop p.offset).take s.batchSize

/-- What the pages from an offset on are worth. -/
def ahead (s : Settings) (t : Tables) (kind : Kind) (offset : Nat) : List Event :=
  (pages s.batchSize ((s.extent t kind).drop offset)).flatMap (s.findings t kind)

/-- A pass that nothing has disturbed works at the page of its offset. -/
def Sound (s : Settings) (t : Tables) (p : Pass) : Prop :=
  match p.phase with
  | .scanning | .finished => True
  | .checking batch => batch = p.page s t ∧ batch ≠ []
  | .publishing size burst => size = (p.page s t).length ∧ size ≠ 0 ∧ burst.outstanding ≠ []
  | .backingOff | .resting | .failed _ => False

/-- The events that the pass still has to publish. -/
def due (s : Settings) (t : Tables) (p : Pass) : List Event :=
  match p.phase with
  | .scanning => ahead s t p.kind p.offset
  | .checking batch => s.findings t p.kind batch ++ ahead s t p.kind (p.offset + batch.length)
  | .publishing size burst => burst.all ++ ahead s t p.kind (p.offset + size)
  | .backingOff | .resting | .finished | .failed _ => []

/-- A bound on the steps that are left: three for a record ahead, one of them for its event. -/
def load (s : Settings) (t : Tables) (p : Pass) : Nat :=
  let left := fun offset => (s.extent t p.kind).length - offset
  match p.phase with
  | .scanning => 3 * left p.offset + 1
  | .checking batch => 3 * left (p.offset + batch.length) + batch.length + 2
  | .publishing size burst => 3 * left (p.offset + size) + burst.all.length + 1
  | .backingOff | .resting | .finished | .failed _ => 0

/-- Where the page is empty the data are at an end. -/
theorem drop_eq_nil_of_page (positive : 1 ≤ s.batchSize) (nothing : p.page s t = []) :
    (s.extent t p.kind).drop p.offset = [] := by
  rw [page, List.take_eq_nil_iff] at nothing
  exact nothing.resolve_left (by omega)

/-- The pages from an offset on are the one there and those behind it. -/
theorem pages_of_page (positive : 1 ≤ s.batchSize) (some : p.page s t ≠ []) :
    pages s.batchSize ((s.extent t p.kind).drop p.offset) = p.page s t ::
      pages s.batchSize ((s.extent t p.kind).drop (p.offset + (p.page s t).length)) := by
  have rest : (s.extent t p.kind).drop p.offset ≠ [] := by
    intro none
    exact some (by simp [page, none])
  have behind : (s.extent t p.kind).drop (p.offset + (p.page s t).length) =
      ((s.extent t p.kind).drop p.offset).drop s.batchSize := by
    simp only [page, List.length_take, List.length_drop, List.drop_drop]
    by_cases short : s.batchSize ≤ (s.extent t p.kind).length - p.offset
    · rw [Nat.min_eq_left short]
    · rw [List.drop_eq_nil_of_le (by omega), List.drop_eq_nil_of_le (by omega)]
  rw [pages_of_ne_nil positive rest, behind, page]

/-- The debt at an offset is that of its page and that of the pages behind it. -/
theorem ahead_of_page (positive : 1 ≤ s.batchSize) (some : p.page s t ≠ []) :
    ahead s t p.kind p.offset =
      s.findings t p.kind (p.page s t) ++ ahead s t p.kind (p.offset + (p.page s t).length) := by
  rw [ahead, pages_of_page positive some, List.flatMap_cons, ahead]

theorem length_page_le (s : Settings) (t : Tables) (p : Pass) :
    p.offset + (p.page s t).length ≤ (s.extent t p.kind).length ∨ p.page s t = [] := by
  by_cases inside : p.offset ≤ (s.extent t p.kind).length
  · left
    simp only [page, List.length_take, List.length_drop]
    omega
  · right
    simp only [page]
    rw [List.drop_eq_nil_of_le (by omega), List.take_nil]

/-- What an undisturbed step does: it keeps the pass sound and of its kind, pays what it publishes
off the debt, and takes some of the load away. -/
structure Advanced (s : Settings) (t : Tables) (p : Pass) (news : List Event) (q : Pass) : Prop where
  sound : q.Sound s t
  kind : q.kind = p.kind
  due : (p.due s t).Perm (news ++ q.due s t)
  load : q.load s t < p.load s t

/-- Scanning: the next page, or the end. -/
theorem advanced_scanning (positive : 1 ≤ s.batchSize) (once : s.interval = .zero)
    (phase : p.phase = .scanning) :
    Advanced s t p [] (p.onScan s ((p.scan s).run Tables.answer t).1).1 := by
  rw [scan_answered, ← page]
  cases found : p.page s t with
  | nil =>
    have none := drop_eq_nil_of_page positive found
    constructor <;> simp [onScan, once, Sound, due, load, phase, ahead, none]
  | cons first rest =>
    have bound := (length_page_le s t p).resolve_right (by simp [found])
    have some : p.page s t ≠ [] := by simp [found]
    constructor
    · simp [onScan, Sound, page] at found ⊢
      exact found.symm
    · rfl
    · simp only [due, phase, onScan, ahead_of_page positive some, found]
      exact .refl _
    · simp only [load, phase, onScan]
      simp only [found, List.length_cons] at bound ⊢
      omega

/-- Checking: the events of the page are to be published, or there are none. -/
theorem advanced_checking {batch : List Interactive} (sound : p.Sound s t)
    (phase : p.phase = .checking batch) :
    Advanced s t p [] (p.onCheck s batch ((p.check s batch).run Tables.answer t).1).1 := by
  obtain ⟨v, answered, events⟩ := check_answered s t p batch
  simp only [Sound, phase] at sound
  obtain ⟨here, some⟩ := sound
  have few := s.findings_length_le t p.kind batch
  rw [answered, onCheck_ok, events]
  cases found : s.findings t p.kind batch with
  | nil =>
    constructor
    · simp [moveOn, Sound]
    · rfl
    · simp [due, phase, moveOn, found]
    · simp only [load, phase, moveOn]
      omega
  | cons e rest =>
    simp only [found, List.length_cons] at few
    constructor
    · refine ⟨by simp [here, page], by simpa using some, ?_⟩
      exact Burst.outstanding_fill_ne_nil (by simp [Burst.all])
    · rfl
    · simp [due, phase, found]
    · simp only [load, phase, Burst.all_start, List.length_cons]
      omega

/-- Publishing: one event less, and on to the next page after the last. -/
theorem advanced_publishing {size : Nat} {burst : Burst} {e : Event} (sound : p.Sound s t)
    (phase : p.phase = .publishing size burst) (member : e ∈ burst.outstanding) :
    Advanced s t p [e] (p.onPublished e true).1 := by
  have paid := Burst.all_settle member
  simp only [Sound, phase] at sound
  obtain ⟨here, some, -⟩ := sound
  have fewer : burst.all.length = (burst.settle e).all.length + 1 := by
    rw [paid.length_eq, List.length_cons]
  simp only [onPublished, phase]
  by_cases through : (burst.settle e).finished = true
  · have none := (Burst.finished_iff _).1 through
    rw [if_pos through]
    rw [none] at paid
    constructor
    · simp [moveOn, Sound]
    · rfl
    · simp only [due, phase, moveOn]
      exact paid.append_right _
    · simp only [load, phase, moveOn]
      omega
  · rw [if_neg through]
    have left : (burst.settle e).all ≠ [] := fun none => through ((Burst.finished_iff _).2 none)
    constructor
    · refine ⟨by simpa [page] using here, some, ?_⟩
      apply Burst.outstanding_fill_ne_nil
      simpa [Burst.settle] using left
    · rfl
    · simp only [due, phase]
      exact paid.append_right _
    · simp only [load, phase]
      omega

/-- An undisturbed step, whichever it is. -/
theorem advanced_of_smooth {m : Pass × List Note} (positive : 1 ≤ s.batchSize)
    (once : s.interval = .zero) (sound : p.Sound s t) (smooth : i.smooth = true)
    (step : p.Response s t i m) : Advanced s t p i.news m.1 := by
  cases step with
  | scanned phase => exact advanced_scanning positive once phase
  | checked phase => exact advanced_checking sound phase
  | rested phase => rcases phase with phase | phase <;> simp [Sound, phase] at sound
  | published phase member succeeded =>
    cases succeeded with
    | true => exact advanced_publishing sound phase member
    | false => cases smooth
  | unscanned | unchecked | calledOff => cases smooth

/-- Short of the end there is a step to take, and nothing but the end brings it to a halt. -/
theorem exists_smooth (sound : p.Sound s t) :
    p.phase = .finished ∨ ∃ i, i.smooth = true ∧ (p.advance s t i).isSome = true := by
  cases phase : p.phase with
  | finished => exact .inl rfl
  | scanning => exact .inr ⟨.answered, rfl, by simp [advance, phase]⟩
  | checking => exact .inr ⟨.answered, rfl, by simp [advance, phase]⟩
  | publishing size burst =>
    simp only [Sound, phase] at sound
    obtain ⟨e, member⟩ := List.exists_mem_of_ne_nil _ sound.2.2
    exact .inr ⟨.published e true, rfl, by simp [advance, phase, member]⟩
  | backingOff | resting | failed => simp [Sound, phase] at sound

end Pass
end Cutover.Validation
