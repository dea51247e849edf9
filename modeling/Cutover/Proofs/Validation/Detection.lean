import Cutover.Proofs.Validation.Progress

/-! What a comparison of two stores at rest finds. However its two passes take turns it comes to its
end, and by then it has published what the tables call for: each page of the base is judged by itself,
no key is reported twice, and only keys on which the stores differ are reported. -/
namespace Cutover.Validation

namespace Settings

variable {s : Settings} {t : Tables}

theorem positive_of_flaw (sane : s.flaw = none) : 1 ≤ s.batchSize := by
  by_contra small
  have : s.batchSize = 0 := by omega
  simp [flaw, this] at sane

/-- Whatever a page comes to, its events name the records that the target lacks or holds differently. -/
theorem ids_findings_forward (s : Settings) (t : Tables) (page : List Interactive) :
    (s.findings t .baseToTarget page).map (·.id) =
      (page.filter fun r => (t s.target).get? r.id ≠ some r).map (·.id) := by
  simp only [findings]
  split
  next missing =>
    have all : page.filter (fun r => decide ((t s.target).get? r.id ≠ some r)) = page := by
      apply List.filter_eq_self.2
      intro r member
      simp [missing r member]
    rw [all, List.map_map]
    rfl
  next =>
    rw [List.map_filterMap, ← List.filterMap_eq_map, ← List.filterMap_eq_filter,
      List.filterMap_filterMap]
    apply List.filterMap_congr
    intro r _
    by_cases h : (t s.target).get? r.id = some r <;> simp [Option.guard, h]

/-- A record that was looked up without an event is in the other store: as it is in the target, -/
theorem get?_target_of_silent {page : List Interactive} {r : Interactive} (looked : r ∈ page)
    (silent : r.id ∉ (s.findings t .baseToTarget page).map (·.id)) : (t s.target).get? r.id = some r := by
  rw [ids_findings_forward] at silent
  by_contra differs
  exact silent (List.mem_map_of_mem (List.mem_filter.2 ⟨looked, by simpa using differs⟩))

/-- whatever it is in the base. -/
theorem get?_base_of_silent {page : List Interactive} {r : Interactive} (looked : r ∈ page)
    (silent : r.id ∉ (s.findings t .targetToBase page).map (·.id)) : (t s.base).get? r.id ≠ none := by
  intro absent
  refine silent (List.mem_map.2 ⟨⟨r.id, s.direction, .baseMissing⟩, ?_, rfl⟩)
  exact List.mem_filterMap.2 ⟨r, looked, if_pos absent⟩

theorem ids_report_forward (s : Settings) (t : Tables) (positive : 1 ≤ s.batchSize) :
    (s.report t .baseToTarget).map (·.id) =
      ((s.extent t .baseToTarget).filter fun r => (t s.target).get? r.id ≠ some r).map (·.id) := by
  rw [report, List.map_flatMap]
  simp only [ids_findings_forward]
  rw [← List.map_flatMap, List.flatMap_def, ← List.filter_flatten, flatten_pages positive]

theorem report_backward_eq (s : Settings) (t : Tables) (positive : 1 ≤ s.batchSize) :
    s.report t .targetToBase = ((t s.target).rows.filter fun r => (t s.base).get? r.id = none).map
      fun r => ⟨r.id, s.direction, .baseMissing⟩ := by
  rw [report_backward s t positive, ← List.filterMap_eq_map, ← List.filterMap_eq_filter,
    List.filterMap_filterMap]
  apply List.filterMap_congr
  intro r _
  by_cases h : (t s.base).get? r.id = none <;> simp [Option.guard, h]

theorem ids_report_backward (s : Settings) (t : Tables) (positive : 1 ≤ s.batchSize) :
    (s.report t .targetToBase).map (·.id) =
      ((t s.target).rows.filter fun r => (t s.base).get? r.id = none).map (·.id) := by
  rw [report_backward_eq s t positive, List.map_map]
  rfl

theorem mem_ids_report_forward (positive : 1 ≤ s.batchSize) (id : Int64) :
    id ∈ (s.report t .baseToTarget).map (·.id) ↔
      ∃ r ∈ s.extent t .baseToTarget, r.id = id ∧ (t s.target).get? id ≠ some r := by
  rw [ids_report_forward s t positive]
  simp only [List.mem_map, List.mem_filter, decide_eq_true_eq]
  constructor
  · rintro ⟨r, ⟨member, differs⟩, rfl⟩
    exact ⟨r, member, rfl, differs⟩
  · rintro ⟨r, member, rfl, differs⟩
    exact ⟨r, ⟨member, differs⟩, rfl⟩

theorem mem_ids_report_backward (positive : 1 ≤ s.batchSize) (id : Int64) :
    id ∈ (s.report t .targetToBase).map (·.id) ↔
      (t s.base).get? id = none ∧ (t s.target).get? id ≠ none := by
  rw [ids_report_backward s t positive]
  simp only [List.mem_map, List.mem_filter, decide_eq_true_eq]
  constructor
  · rintro ⟨r, ⟨member, absent⟩, rfl⟩
    exact ⟨absent, by simp [Table.get?_of_mem _ member]⟩
  · rintro ⟨absent, there⟩
    obtain ⟨r, found⟩ := Option.ne_none_iff_exists'.1 there
    obtain ⟨member, rfl⟩ := (Table.get?_eq_some_iff _ _ _).1 found
    exact ⟨r, ⟨member, absent⟩, rfl⟩

/-- A comparison of everything reports each key on which the stores differ. -/
theorem mem_ids_report_of_ne (positive : 1 ≤ s.batchSize) (full : s.mode = .full) {id : Int64}
    (differ : (t s.target).get? id ≠ (t s.base).get? id) :
    id ∈ (s.report t .baseToTarget ++ s.report t .targetToBase).map (·.id) := by
  rw [List.map_append, List.mem_append, mem_ids_report_forward positive,
    mem_ids_report_backward positive]
  cases found : (t s.base).get? id with
  | none => exact .inr ⟨rfl, by rwa [found] at differ⟩
  | some r =>
    have there := ((t s.base).get?_eq_some_iff _ _).1 found
    have covered : r ∈ s.extent t .baseToTarget :=
      (s.mem_extent_forward t r).2 ⟨there.1, by simp [covers, full]⟩
    exact .inl ⟨r, covered, there.2, by rwa [found] at differ⟩

theorem direction_of_mem_report {e : Event} {kind : Kind} (member : e ∈ s.report t kind) :
    e.direction = s.direction := by
  obtain ⟨page, -, found⟩ := List.mem_flatMap.1 member
  exact direction_of_mem_findings found

/-- Both passes together report no key twice: the one names keys of the base, the other keys that the
base lacks. -/
theorem nodup_ids_report (s : Settings) (t : Tables) (positive : 1 ≤ s.batchSize) :
    ((s.report t .baseToTarget ++ s.report t .targetToBase).map (·.id)).Nodup := by
  rw [List.map_append, List.nodup_append]
  refine ⟨?_, ?_, ?_⟩
  · rw [ids_report_forward s t positive]
    exact (s.nodup_ids_extent_forward t).sublist (List.filter_sublist.map _)
  · rw [ids_report_backward s t positive]
    exact (t s.target).nodup_ids.sublist (List.filter_sublist.map _)
  · rintro a forward b backward rfl
    obtain ⟨r, member, rfl, -⟩ := (mem_ids_report_forward positive a).1 forward
    have there := (t s.base).get?_of_mem ((s.mem_extent_forward t r).1 member).1
    have absent := ((mem_ids_report_backward positive r.id).1 backward).1
    simp [there] at absent

end Settings

namespace Course

variable {s : Settings} {t : Tables} {c d : Course} {schedule : List Move}

/-- A comparison that nothing has disturbed. -/
structure Sound (s : Settings) (t : Tables) (c : Course) : Prop where
  passes : ∀ kind, (c.session.pass kind).Sound s t
  kinds : ∀ kind, (c.session.pass kind).kind = kind

/-- What both passes still have to publish. -/
def due (s : Settings) (t : Tables) (c : Course) : List Event :=
  c.session.forward.due s t ++ c.session.backward.due s t

def load (s : Settings) (t : Tables) (c : Course) : Nat :=
  c.session.forward.load s t + c.session.backward.load s t

theorem sound_start (s : Settings) (t : Tables) : start.Sound s t := by
  constructor <;> intro kind <;> cases kind <;>
    simp [start, Session.start, Session.pass, Pass.start, Pass.Sound]

theorem due_start (s : Settings) (t : Tables) :
    start.due s t = s.report t .baseToTarget ++ s.report t .targetToBase := rfl

/-- One undisturbed step of the whole comparison. -/
theorem advance_smooth {m : Move} (once : s.interval = .zero) (sound : c.Sound s t)
    (smooth : m.2.smooth = true) (step : c.advance s t m = some d) :
    d.Sound s t ∧ (c.published ++ c.due s t).Perm (d.published ++ d.due s t) ∧
      d.load s t < c.load s t := by
  obtain ⟨kind, i⟩ := m
  obtain ⟨running, q, here, rfl⟩ := advance_eq_some step
  have sane : s.flaw = none := c.flaw_eq_none (by simp [running])
  have reached := Pass.advanced_of_smooth (s.positive_of_flaw sane) once (sound.passes kind) smooth here
  refine ⟨⟨?_, ?_⟩, ?_, ?_⟩
  · exact Session.forall_setPass kind sound.passes reached.sound
  · exact Session.forall_setPass kind (P := fun j p => p.kind = j) sound.kinds
      (reached.kind.trans (sound.kinds kind))
  · have paid := reached.due
    cases kind with
    | baseToTarget =>
      simp only [due, Session.setPass, Session.pass] at paid ⊢
      have := (paid.append_right (c.session.backward.due s t)).append_left c.published
      simpa only [List.append_assoc] using this
    | targetToBase =>
      simp only [due, Session.setPass, Session.pass] at paid ⊢
      have := (paid.append_left (c.session.forward.due s t)).trans
        (List.perm_append_comm_assoc _ _ _)
      simpa only [List.append_assoc] using this.append_left c.published
  · have less := reached.load
    cases kind <;> simp only [load, Session.setPass, Session.pass] at less ⊢ <;> omega

/-- Undisturbed steps in any order. -/
theorem follow_smooth (once : s.interval = .zero) (sound : c.Sound s t) (smooth : Smooth schedule)
    (kept : c.follow s t schedule = some d) :
    d.Sound s t ∧ (c.published ++ c.due s t).Perm (d.published ++ d.due s t) ∧
      d.load s t + schedule.length ≤ c.load s t := by
  induction schedule generalizing c with
  | nil =>
    cases kept
    exact ⟨sound, .refl _, by simp⟩
  | cons m rest ih =>
    obtain ⟨next, step, kept⟩ := Option.bind_eq_some_iff.1 kept
    have first := advance_smooth once sound (smooth m List.mem_cons_self) step
    have later := ih first.1 (fun m member => smooth m (List.mem_cons_of_mem _ member)) kept
    refine ⟨later.1, first.2.1.trans later.2.1, ?_⟩
    have := first.2.2
    have := later.2.2
    simp only [List.length_cons]
    omega

/-- A comparison that nothing has disturbed can go on undisturbed, or is through and owes nothing. -/
theorem settled (sane : s.flaw = none) (sound : c.Sound s t) :
    (c.outcome s = none ∧ ∃ m : Move, m.2.smooth = true ∧ (c.advance s t m).isSome = true) ∨
      (c.outcome s = some (.ok ()) ∧ c.due s t = []) := by
  refine (settled_of_passes sane fun kind => Pass.exists_smooth (sound.passes kind)).imp_right ?_
  rintro ⟨ended, through⟩
  have forward := through .baseToTarget
  have backward := through .targetToBase
  simp only [Session.pass] at forward backward
  exact ⟨ended, by simp [due, Pass.due, forward, backward]⟩

/-- A comparison that ran undisturbed to its end has published what the tables call for. -/
theorem published_of_ok (once : s.interval = .zero) (smooth : Smooth schedule)
    (kept : start.follow s t schedule = some c) (ended : c.outcome s = some (.ok ())) :
    s.flaw = none ∧
      c.published.Perm (s.report t .baseToTarget ++ s.report t .targetToBase) := by
  have sane : s.flaw = none := c.flaw_eq_none (by simp [ended])
  obtain ⟨sound, paid, -⟩ := follow_smooth once (sound_start s t) smooth kept
  have nothing := ((settled sane sound).resolve_left (by simp [ended])).2
  rw [nothing, due_start] at paid
  exact ⟨sane, by simpa [start] using paid.symm⟩

/-- Exact detection. A comparison with sensible settings that runs once, undisturbed, over stores at
rest cannot go on for ever, and stops only when it has succeeded; by then it has published the
findings of the pages of the records to be compared, and an event for each record of the target that
the base lacks. -/
theorem exact_detection {l : List Interactive} (positive : 1 ≤ s.batchSize)
    (sane : s.backoff.flaw = none) (once : s.interval = .zero) (order : s.InOrder (t s.base) l) :
    (∃ bound, ∀ schedule c, Smooth schedule → start.follow s t schedule = some c →
      schedule.length ≤ bound) ∧
    ∀ schedule c, Smooth schedule → start.follow s t schedule = some c →
      (c.outcome s = none ∧ ∃ m : Move, m.2.smooth = true ∧ (c.advance s t m).isSome = true) ∨
      (c.outcome s = some (.ok ()) ∧
        c.published.Perm ((pages s.batchSize l).flatMap (s.findings t .baseToTarget) ++
          ((t s.target).rows.filter fun r => (t s.base).get? r.id = none).map fun r =>
            ⟨r.id, s.direction, .baseMissing⟩) ∧
        (c.published.map (·.id)).Nodup ∧
        ∀ id, id ∈ c.published.map (·.id) ↔
          (∃ r ∈ l, r.id = id ∧ (t s.target).get? id ≠ some r) ∨
          ((t s.base).get? id = none ∧ (t s.target).get? id ≠ none)) := by
  have flawless : s.flaw = none := by
    have : s.batchSize ≠ 0 := by omega
    simp [Settings.flaw, this, sane]
  have extent : s.extent t .baseToTarget = l := (s.inOrder_extent t).unique order
  constructor
  · refine ⟨start.load s t, fun schedule c smooth kept => ?_⟩
    have := (follow_smooth once (sound_start s t) smooth kept).2.2
    omega
  · intro schedule c smooth kept
    refine (settled flawless (follow_smooth once (sound_start s t) smooth kept).1).imp_right ?_
    rintro ⟨ended, -⟩
    have told := (published_of_ok once smooth kept ended).2
    have ids := told.map (·.id)
    refine ⟨ended, ?_, ?_, ?_⟩
    · rwa [s.report_backward_eq t positive, Settings.report, extent] at told
    · exact ids.nodup_iff.2 (s.nodup_ids_report t positive)
    · intro id
      rw [ids.mem_iff, List.map_append, List.mem_append, Settings.mem_ids_report_forward positive,
        Settings.mem_ids_report_backward positive, extent]

/-- A copy with an old version of one record, without another, and with one that is gone. -/
def staleCopy : Tables
  | .src => ⟨[⟨1, 10, "article", 5, 1, 0, 90, 20⟩, ⟨2, 11, "video", 0, 0, 0, 30, 30⟩,
      ⟨3, 12, "video", 7, 0, 2, 60, 40⟩], by decide⟩
  | .dst => ⟨[⟨1, 10, "article", 4, 1, 0, 80, 20⟩, ⟨2, 11, "video", 0, 0, 0, 30, 30⟩,
      ⟨6, 15, "article", 0, 0, 0, 10, 10⟩], by decide⟩

/-- One way to compare them in pages of two. -/
def comparison : List Move :=
  [(.baseToTarget, .answered), (.targetToBase, .answered), (.targetToBase, .answered),
    (.baseToTarget, .answered), (.targetToBase, .answered),
    (.baseToTarget, .published ⟨1, .src, .neq⟩ true), (.targetToBase, .answered),
    (.baseToTarget, .answered), (.targetToBase, .published ⟨6, .src, .baseMissing⟩ true),
    (.baseToTarget, .answered), (.targetToBase, .answered),
    (.baseToTarget, .published ⟨3, .src, .targetMissing⟩ true), (.baseToTarget, .answered)]

theorem exact_detection_staleCopy :
    let s := Settings.whole .src { Tuning.standard with batchSize := 2 }
    ∃ c, start.follow s staleCopy comparison = some c ∧ c.outcome s = some (.ok ()) ∧
      c.published.Perm [⟨1, .src, .neq⟩, ⟨3, .src, .targetMissing⟩, ⟨6, .src, .baseMissing⟩] := by
  intro s
  obtain ⟨c, kept⟩ := Option.isSome_iff_exists.1
    (show (start.follow s staleCopy comparison).isSome = true by decide)
  have through : ((start.follow s staleCopy comparison).bind (·.outcome s)).isSome = true := by decide
  have told := (exact_detection (by decide) (by decide) (by decide) (s.inOrder_extent staleCopy)).2
    comparison c (by decide) kept
  obtain ⟨ended, published, -⟩ := told.resolve_left (by
    rintro ⟨running, -⟩
    simp [kept, running] at through)
  refine ⟨c, kept, ended, published.trans ?_⟩
  have cut : pages s.batchSize (s.extent staleCopy .baseToTarget) =
      [(staleCopy .src).rows.take 2, (staleCopy .src).rows.drop 2] := by
    rw [pages_of_ne_nil (by decide) (by decide), pages_of_ne_nil (by decide) (by decide)]
    exact congrArg (_ :: _ :: ·) (pages_nil 2)
  rw [cut]
  decide

end Course
end Cutover.Validation
