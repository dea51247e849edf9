import Cutover.Proofs.Validation.Detection
import Cutover.Proofs.Validation.Direction
import Cutover.Proofs.Validation.Paging

/-! What a pass has told of the records that it has gone past, while the target changes under it. Of a
record behind the pass there is an event, published or in hand, unless there was nothing to tell of it
when it was looked up. -/
namespace Cutover.Validation.Pass

variable {s : Settings} {t u : Tables} {p : Pass} {i : Incident} {m : Pass × List Note}

def batch (p : Pass) : List Interactive :=
  match p.phase with
  | .checking batch => batch
  | _ => []

/-- The keys of the records that the pass has in hand, or has still to publish events of. -/
def held (p : Pass) : List Int64 := p.batch.map (·.id) ++ p.pending.map (·.id)

/-- The records that the pass takes itself to have seen: all of them once it is through. -/
def surveyed (s : Settings) (t : Tables) (p : Pass) : List Interactive :=
  match p.phase with
  | .finished => s.extent t p.kind
  | _ => p.behind s t

theorem batch_subset_fetched (step : p.Response s t i m) : m.1.batch ⊆ p.fetched s t i := by
  cases step with
  | scanned phase =>
    rw [fetched_scanning s t phase, scan_answered, ← page]
    cases found : p.page s t with
    | nil => by_cases once : s.interval = .zero <;> simp [onScan, once, batch]
    | cons first rest => exact List.Subset.refl _
  | unscanned phase cause => by_cases again : cause.transient = true <;> simp [onScan, again, batch]
  | checked phase =>
    obtain ⟨v, answered, -⟩ := check_answered s t p _
    rw [answered, onCheck_ok]
    split <;> simp [batch, moveOn]
  | unchecked phase cause => by_cases again : cause.transient = true <;> simp [onCheck, again, batch, moveOn]
  | @published _ burst e phase _ succeeded =>
    by_cases through : (burst.settle e).finished = true <;>
      simp [onPublished, phase, through, batch, moveOn]
  | rested | calledOff => simp [batch]

theorem surveyed_eq_behind (running : p.phase ≠ .finished) : p.surveyed s t = p.behind s t := by
  simp only [surveyed]

theorem surveyed_of_finished (through : p.phase = .finished) : p.surveyed s t = s.extent t p.kind := by
  simp only [surveyed, through]

theorem held_of_finished (through : p.phase = .finished) : p.held = [] := by
  simp [held, batch, pending, through]

/-- The end of the data is reached when nothing is left in front of the pass, so it adds nothing to
what it has seen. -/
theorem surveyed_onScan_nil (positive : 1 ≤ s.batchSize) (phase : p.phase = .scanning)
    (nothing : p.page s t = []) : (p.onScan s (.ok [])).1.surveyed s t = p.surveyed s t := by
  rw [page, List.take_eq_nil_iff, List.drop_eq_nil_iff] at nothing
  have all := List.take_of_length_le (nothing.resolve_left (by omega))
  by_cases once : s.interval = .zero
  · simp [onScan, once, surveyed, phase, behind, passed, all]
  · simp [onScan, once, surveyed, phase, behind, passed]

theorem surveyed_advance (positive : 1 ≤ s.batchSize) (smooth : i.smooth = true)
    (step : p.Response s t i m) :
    (m.1.surveyed s t).Sublist (p.surveyed s t ++ p.fetched s t i) := by
  have onward (before : p.phase ≠ .finished) (after : m.1.phase ≠ .finished) :
      (m.1.surveyed s t).Sublist (p.surveyed s t ++ p.fetched s t i) := by
    rw [surveyed_eq_behind before, surveyed_eq_behind after]
    exact behind_advance step
  cases step with
  | scanned phase =>
    rw [scan_answered, ← page] at onward ⊢
    cases found : p.page s t with
    | nil =>
      rw [surveyed_onScan_nil positive phase found]
      exact List.sublist_append_left _ _
    | cons first rest =>
      rw [found] at onward
      exact onward (by simp [phase]) (by simp [onScan])
  | checked phase =>
    obtain ⟨v, answered, -⟩ := check_answered s t p _
    rw [answered, onCheck_ok] at onward ⊢
    apply onward (by simp [phase])
    split <;> simp [moveOn]
  | rested phase => exact onward (by rcases phase with phase | phase <;> simp [phase]) (by simp)
  | @published _ burst e phase _ succeeded =>
    apply onward (by simp [phase])
    by_cases through : (burst.settle e).finished = true <;> simp [onPublished, phase, through, moveOn]
  | unscanned | unchecked | calledOff => cases smooth

/-- A key that was in hand is so still, unless its event was published or the look-up has found
nothing wrong. -/
theorem held_advance (smooth : i.smooth = true) (step : p.Response s t i m) {id : Int64}
    (member : id ∈ p.held ++ (p.fetched s t i).map (·.id)) :
    id ∈ i.news.map (·.id) ++ m.1.held ∨
      (∃ r ∈ p.batch, r.id = id) ∧ id ∉ (s.findings t p.kind p.batch).map (·.id) := by
  cases step with
  | scanned phase =>
    rw [fetched_scanning s t phase] at member
    rw [scan_answered, ← page]
    cases found : p.page s t with
    | nil => simp [held, batch, pending, phase, found] at member
    | cons first rest =>
      left
      simpa [held, batch, pending, phase, found, onScan, Incident.news] using member
  | checked phase =>
    have there : ∃ r ∈ p.batch, r.id = id := by
      simpa [held, batch, pending, phase, fetched] using member
    by_cases worth : id ∈ (s.findings t p.kind p.batch).map (·.id)
    · left
      apply List.mem_append_right
      rw [held, pending_onCheck_answered]
      exact List.mem_append_right _ (by simpa [batch, phase] using worth)
    · exact .inr ⟨there, worth⟩
  | rested phase => rcases phase with phase | phase <;> simp [held, batch, pending, fetched, phase] at member
  | published phase there succeeded =>
    cases succeeded with
    | true =>
      left
      have paid := (perm_pending_onPublished phase there true).map (·.id)
      have owed : id ∈ p.pending.map (·.id) := by simpa [held, batch, phase, fetched] using member
      rw [paid.mem_iff, List.map_cons, List.mem_cons] at owed
      rcases owed with rfl | later
      · simp [Incident.news]
      · exact List.mem_append_right _ (List.mem_append_right _ later)
    | false => cases smooth
  | unscanned | unchecked | calledOff => cases smooth

theorem surveyed_subset_extent (s : Settings) (t : Tables) (p : Pass) :
    p.surveyed s t ⊆ s.extent t p.kind := by
  simp only [surveyed]
  split
  · exact List.Subset.refl _
  · exact List.take_subset ..

/-- Each key that the pass has seen is told of, in hand or excused. -/
def Told (s : Settings) (t : Tables) (told : List Int64) (excused : Int64 → Prop) (p : Pass) : Prop :=
  ∀ id ∈ (p.surveyed s t).map (·.id), id ∈ told ++ p.held ∨ excused id

theorem told_start (s : Settings) (t : Tables) (kind : Kind) (told : List Int64) (excused : Int64 → Prop) :
    (start kind).Told s t told excused := by
  simp [Told, start, surveyed, behind, passed]

theorem Told.mono {told more : List Int64} {excused waived : Int64 → Prop} (known : p.Told s t told excused)
    (subset : told ⊆ more) (weaker : ∀ id, excused id → waived id) : p.Told s t more waived := by
  intro id member
  refine (known id member).imp (fun inHand => ?_) (weaker id)
  exact List.append_subset.2 ⟨fun _ old => List.mem_append_left _ (subset old),
    List.subset_append_right ..⟩ inHand

/-- It is enough that a key which is looked up to no avail is excused. -/
theorem Told.advance {told : List Int64} {excused : Int64 → Prop} (positive : 1 ≤ s.batchSize)
    (known : p.Told s t told excused)
    (fine : ∀ r ∈ p.batch, r.id ∉ (s.findings t p.kind p.batch).map (·.id) → excused r.id)
    (smooth : i.smooth = true) (step : p.Response s t i m) :
    m.1.Told s t (told ++ i.news.map (·.id)) excused := by
  intro id member
  have settled (inHand : id ∈ p.held ++ (p.fetched s t i).map (·.id)) :
      id ∈ told ++ i.news.map (·.id) ++ m.1.held ∨ excused id := by
    rcases held_advance smooth step inHand with still | ⟨⟨r, looked, rfl⟩, silent⟩
    · left
      rw [List.append_assoc]
      exact List.mem_append_right _ still
    · exact .inr (fine r looked silent)
  have before := ((surveyed_advance positive smooth step).map (·.id)).subset member
  rw [List.map_append, List.mem_append] at before
  rcases before with old | new
  · rcases known id old with known | excused
    · rcases List.mem_append.1 known with told | inHand
      · exact .inl (List.mem_append_left _ (List.mem_append_left _ told))
      · exact settled (List.mem_append_left _ inHand)
    · exact .inr excused
  · exact settled (List.mem_append_right _ new)

section Forward

/-- Each record of the base that the pass has seen is told of, in hand, or the same in the target. -/
def Accounted (s : Settings) (t : Tables) (told : List Int64) (p : Pass) : Prop :=
  ∀ r ∈ p.surveyed s t, r.id ∈ told ++ p.held ∨ (t s.target).get? r.id = some r

theorem get?_of_mem_surveyed {r : Interactive} (kind : p.kind = .baseToTarget)
    (member : r ∈ p.surveyed s t) : (t s.base).get? r.id = some r := by
  have there := surveyed_subset_extent s t p member
  rw [kind, s.mem_extent_forward] at there
  exact Table.get?_of_mem _ there.1

/-- What is in hand after a step has just been read from the base. -/
theorem get?_of_mem_batch {r : Interactive} (kind : p.kind = .baseToTarget) (step : p.Response s t i m)
    (member : r ∈ m.1.batch) : (t s.base).get? r.id = some r := by
  have fetched := batch_subset_fetched step member
  rw [fetched_eq] at fetched
  have there := List.mem_of_mem_drop (List.mem_of_mem_take fetched)
  rw [kind, s.mem_extent_forward] at there
  exact Table.get?_of_mem _ there.1

theorem Accounted.advance {told : List Int64} (positive : 1 ≤ s.batchSize) (kind : p.kind = .baseToTarget)
    (known : ∀ r ∈ p.batch, (t s.base).get? r.id = some r) (accounted : p.Accounted s t told)
    (smooth : i.smooth = true) (step : p.Response s t i m) :
    m.1.Accounted s t (told ++ i.news.map (·.id)) := by
  have before : p.Told s t told fun id => (t s.target).get? id = (t s.base).get? id := by
    intro id member
    obtain ⟨r, seen, rfl⟩ := List.mem_map.1 member
    exact (accounted r seen).imp_right (·.trans (get?_of_mem_surveyed kind seen).symm)
  have fine : ∀ r ∈ p.batch, r.id ∉ (s.findings t p.kind p.batch).map (·.id) →
      (t s.target).get? r.id = (t s.base).get? r.id := by
    intro r looked silent
    rw [kind] at silent
    rw [Settings.get?_target_of_silent looked silent, known r looked]
  intro r member
  have here := get?_of_mem_surveyed ((kind_of_response step).trans kind) member
  exact (before.advance positive fine smooth step r.id (List.mem_map_of_mem member)).imp_right
    (·.trans here)

theorem Accounted.mono {told more : List Int64} (accounted : p.Accounted s t told)
    (subset : told ⊆ more) : p.Accounted s t more := by
  intro r member
  refine (accounted r member).imp_left fun known => ?_
  exact List.append_subset.2 ⟨fun _ old => List.mem_append_left _ (subset old),
    List.subset_append_right ..⟩ known

end Forward

section Backward

/-- How many of the records that the pass has seen are lacking in the base without being told of. -/
def untold (s : Settings) (t : Tables) (told : List Int64) (p : Pass) : Nat :=
  (p.surveyed s t).countP fun r => (t s.base).get? r.id = none ∧ r.id ∉ told ++ p.held

theorem untold_advance {told : List Int64} (positive : 1 ≤ s.batchSize) (kind : p.kind = .targetToBase)
    (smooth : i.smooth = true) (step : p.Response s t i m) :
    m.1.untold s t (told ++ i.news.map (·.id)) ≤ p.untold s t told := by
  -- a record in hand that the base lacks is in hand still, or told of
  have settled {r : Interactive} (inHand : r.id ∈ p.held ++ (p.fetched s t i).map (·.id))
      (absent : (t s.base).get? r.id = none) : r.id ∈ told ++ i.news.map (·.id) ++ m.1.held := by
    rcases held_advance smooth step inHand with still | ⟨⟨x, looked, same⟩, silent⟩
    · rw [List.append_assoc]
      exact List.mem_append_right _ still
    · rw [kind, ← same] at silent
      rw [← same] at absent
      exact absurd absent (Settings.get?_base_of_silent looked silent)
  have few := (surveyed_advance positive smooth step).countP_le
    (p := fun r => (t s.base).get? r.id = none ∧ r.id ∉ told ++ i.news.map (·.id) ++ m.1.held)
  rw [List.countP_append] at few
  have fetched : (p.fetched s t i).countP (fun r =>
      (t s.base).get? r.id = none ∧ r.id ∉ told ++ i.news.map (·.id) ++ m.1.held) = 0 := by
    rw [List.countP_eq_zero]
    intro r member
    simp only [decide_eq_true_eq, not_and, not_not]
    exact settled (List.mem_append_right _ (List.mem_map_of_mem member))
  have before : (p.surveyed s t).countP (fun r =>
      (t s.base).get? r.id = none ∧ r.id ∉ told ++ i.news.map (·.id) ++ m.1.held) ≤ p.untold s t told := by
    apply List.countP_mono_left
    intro r _
    simp only [decide_eq_true_eq]
    rintro ⟨absent, silent⟩
    refine ⟨absent, fun known => silent ?_⟩
    rcases List.mem_append.1 known with told | inHand
    · exact List.mem_append_left _ (List.mem_append_left _ told)
    · exact settled (List.mem_append_left _ inHand) absent
  rw [untold]
  omega

theorem untold_le_of_subset {told more : List Int64} (subset : told ⊆ more) :
    p.untold s t more ≤ p.untold s t told := by
  apply List.countP_mono_left
  intro r _
  simp only [decide_eq_true_eq]
  rintro ⟨absent, silent⟩
  exact ⟨absent, fun known => silent (List.append_subset.2
    ⟨fun _ => (List.mem_append_left _ <| subset ·), List.subset_append_right ..⟩ known)⟩

end Backward

end Cutover.Validation.Pass
