import Cutover.Proofs.Repair.Target
import Cutover.Proofs.Run
import Cutover.Proofs.Validation.Survey

/-! A comparison of everything, and the repair of what it finds while it is still under way. Repairs
change the target under the pass that walks through it by offset: a record that is deleted behind the
pass lets another slip past it. All else is found, and once it is repaired the target lacks nothing and
holds no more than what slipped past. -/
namespace Cutover

namespace Table

/-- Replacing or inserting a record that does not count brings none of the others further to the front. -/
theorem countP_take_put_le {counts : Interactive → Bool} {e : Interactive} (not : counts e = false)
    (t : Table) (k : Nat) : (((t.put e).rows).take k).countP counts ≤ (t.rows.take k).countP counts := by
  have placed : ∀ (rows : List Interactive) (k : Nat),
      ((place e rows).take k).countP counts ≤ (rows.take k).countP counts := by
    intro rows
    induction rows with
    | nil => intro k; cases k <;> simp [place, not]
    | cons r rest ih =>
      intro k
      cases k with
      | zero => simp
      | succ k =>
        simp only [place]
        split
        · have fewer := List.take_prefix_take_left (l := r :: rest) (Nat.le_succ k)
          simpa [not] using fewer.sublist.countP_le (p := counts)
        · split
          · simp [not, List.countP_cons]
          · have later := ih k
            simp only [List.take_succ_cons, List.countP_cons]
            omega
  exact placed t.rows k

theorem countP_put_le {counts : Interactive → Bool} {e : Interactive} (not : counts e = false)
    (t : Table) : (t.put e).rows.countP counts ≤ t.rows.countP counts := by
  have cut := countP_take_put_le not t ((t.put e).rows.length + t.rows.length)
  rwa [List.take_of_length_le (Nat.le_add_right ..), List.take_of_length_le (Nat.le_add_left ..)] at cut

end Table

namespace Repair

open Validation

inductive Change (base : Side) (u : Tables) (id : Int64) : Tables → Prop where
  | none : Change base u id u
  | put {record : Interactive} (here : (u base).get? id = some record) :
    Change base u id (Function.update u base.other ((u base.other).put record))
  | erase (absent : (u base).get? id = .none) :
    Change base u id (Function.update u base.other ((u base.other).erase id))

theorem Stage.change {base : Side} {u : Tables} {id : Int64} {rest : Asking Done} {q : stores.Ask}
    {next : stores.Reply q → Asking Done} (stage : Stage base u id rest) (asks : rest = .ask q next) :
    Change base u id (Tables.answer q u).2 := by
  cases stage with
  | reading =>
    cases asks
    have unchanged : (Tables.answer (base, .byId id) u).2 = u := Tables.answer_reads u rfl
    rw [unchanged]
    exact .none
  | writing here =>
    cases asks
    simp only [Tables.answer, Table.perform, Table.upsert_columns]
    exact .put here
  | deleting absent =>
    cases asks
    exact .erase absent
  | failed | repaired => cases asks

namespace Change

variable {base : Side} {u v : Tables} {id : Int64}

theorem base_eq (change : Change base u id v) : v base = u base := by
  cases change with
  | none => rfl
  | put | erase => exact Function.update_of_ne (Side.other_ne base).symm _ _

theorem records (change : Change base u id v) (k : Int64) :
    (v base.other).get? k = (u base.other).get? k ∨
      k = id ∧ (v base.other).get? k = (u base).get? k := by
  cases change with
  | none => exact .inl rfl
  | @put record here =>
    have key : record.id = id := Table.id_of_get? here
    rw [Function.update_self, Table.get?_put, key]
    split
    next same => exact .inr ⟨same.symm, same ▸ here.symm⟩
    next => exact .inl rfl
  | erase absent =>
    rw [Function.update_self, Table.get?_erase]
    split
    next same => exact .inr ⟨same.symm, same ▸ absent.symm⟩
    next => exact .inl rfl

end Change

/-- What a turn does to the tables is the repair of one record of an event that was begun. -/
theorem Bench.Sound.change {r : Repairer} {base : Side} {t : Tables} {b d : Bench} {turn : Turn}
    (sound : b.Sound base t) (step : b.advance r turn = some d) :
    d.tables = b.tables ∨ ∃ h ∈ b.handlings, Change base b.tables h.event.id d.tables := by
  cases outcome_of_advance step with
  | begun e => exact .inl rfl
  | answered found =>
    have member := List.mem_of_getElem? found
    exact .inr ⟨_, member, (sound.stages _ member).change rfl⟩
  | failed found cause performed =>
    have member := List.mem_of_getElem? found
    cases performed with
    | true => exact .inr ⟨_, member, (sound.stages _ member).change rfl⟩
    | false => exact .inl rfl

/-- A comparison and its repairs under way at once. -/
structure Tandem where
  course : Course
  bench : Bench
  /-- How many records were deleted behind the pass that walks through the target. -/
  undercut : Nat

namespace Tandem

inductive Move where
  | compare (m : Course.Move)
  | repair (turn : Turn)

def started : Turn → List Event
  | .begin e => [e]
  | _ => []

/-- Nothing fails in the comparison, and only what it has published is handled. -/
def advance (s : Settings) (r : Repairer) (x : Tandem) : Move → Option Tandem
  | .compare m =>
    if m.2.smooth then (x.course.advance s x.bench.tables m).map fun course => { x with course } else none
  | .repair turn =>
    if ∀ e ∈ started turn, e ∈ x.course.published then (x.bench.advance r turn).map fun bench => { x with
      bench
      undercut := x.undercut + (x.course.session.backward.behind s x.bench.tables).countP fun row =>
        (bench.tables s.target).get? row.id = none }
    else none

def follow (s : Settings) (r : Repairer) : Tandem → List Move → Option Tandem
  | x, [] => some x
  | x, m :: rest => (x.advance s r m).bind fun x => x.follow s r rest

theorem follows {s : Settings} {r : Repairer} : Follows (advance s r) (follow s r) :=
  ⟨fun _ => rfl, fun _ _ _ => rfl⟩

def start (t : Tables) : Tandem := ⟨.start, ⟨t, []⟩, 0⟩

/-- The records of the target that the base lacks and that were not reported. -/
def unreported (s : Settings) (t : Tables) (published : List Event) : List Interactive :=
  (t s.target).rows.filter fun r =>
    (t s.base).get? r.id = none ∧ ⟨r.id, s.direction, .baseMissing⟩ ∉ published

section Repairing

variable {s : Settings} {u v : Tables} {id : Int64} {told : List Int64} {p : Pass}

/-- A record of the base that is accounted for stays so: no repair takes it out of line. -/
theorem accounted_change (kind : p.kind = .baseToTarget) (accounted : p.Accounted s u told)
    (change : Change s.base u id v) : p.Accounted s v told := by
  have seen : p.surveyed s v = p.surveyed s u := by
    simp only [Pass.surveyed, Pass.behind, kind, Settings.extent, change.base_eq]
  intro r member
  rw [seen] at member
  refine (accounted r member).imp_right fun same => ?_
  rcases change.records r.id with kept | ⟨-, fixed⟩
  · exact kept.trans same
  · exact fixed.trans (Pass.get?_of_mem_surveyed kind member)

/-- What a repair lets slip past the pass from the target it deletes behind the pass. -/
theorem untold_change (kind : p.kind = .targetToBase) (change : Change s.base u id v) :
    p.untold s v told ≤ p.untold s u told +
      (p.behind s u).countP fun row => (v s.target).get? row.id = none := by
  simp only [Pass.untold, change.base_eq]
  generalize counted : (fun r : Interactive =>
    decide ((u s.base).get? r.id = none ∧ r.id ∉ told ++ p.held)) = counts
  cases change with
  | none => exact Nat.le_add_right _ _
  | @put record here =>
    -- what a repair writes is a record that the base has, which does not count
    have present : counts record = false := by
      simp [← counted, Table.id_of_get? here, here]
    refine Nat.le_trans ?_ (Nat.le_add_right _ _)
    by_cases through : p.phase = .finished
    · simp only [Pass.surveyed, through, Settings.extent, kind, Settings.target, Function.update_self]
      exact Table.countP_put_le present _
    · simp only [Pass.surveyed_eq_behind through, Pass.behind, Settings.extent, kind, Settings.target,
        Function.update_self]
      exact Table.countP_take_put_le present _ _
  | erase absent =>
    by_cases through : p.phase = .finished
    · simp only [Pass.surveyed, through, Settings.extent, kind, Settings.target, Function.update_self]
      exact List.filter_sublist.countP_le.trans (Nat.le_add_right _ _)
    · simp only [Pass.surveyed_eq_behind through, Pass.behind, Settings.extent, kind, Settings.target,
        Function.update_self]
      refine (countP_take_filter_le counts (·.id != id) _ _).trans (Nat.add_le_add_left ?_ _)
      apply List.countP_mono_left
      intro row _
      simp only [bne, Bool.not_not, beq_iff_eq, decide_eq_true_eq, Table.get?_erase]
      exact fun same => if_pos same.symm

end Repairing

section Run

variable {direction : Side} {tuning : Tuning} {t : Tables} {r : Repairer} {x y : Tandem} {m : Move}
  {moves : List Move}

/-- An event is what the tables at the start make of its record. -/
def Truthful (direction : Side) (t : Tables) (e : Event) : Prop :=
  e.direction = direction ∧ ((t direction).get? e.id = none → e.drift = .baseMissing)

theorem truthful_findings {s : Settings} {u : Tables} {kind : Kind} {page : List Interactive} {e : Event}
    (known : kind = .baseToTarget → ∀ row ∈ page, (u s.base).get? row.id = some row)
    (found : e ∈ s.findings u kind page) :
    e.direction = s.direction ∧ ((u s.base).get? e.id = none → e.drift = .baseMissing) := by
  refine ⟨Settings.direction_of_mem_findings found, fun absent => ?_⟩
  cases kind with
  | baseToTarget =>
    have named := List.mem_map_of_mem (f := (·.id)) found
    rw [Settings.ids_findings_forward] at named
    obtain ⟨row, member, same⟩ := List.mem_map.1 named
    have here := known rfl row (List.mem_of_mem_filter member)
    rw [same, absent] at here
    cases here
  | targetToBase =>
    obtain ⟨row, -, made⟩ := List.mem_filterMap.1 found
    grind

/-- The comparison and the repairs have kept to the tables at the start: what was published is true of
them, only what was published is changed, and what the passes have seen is told of, in line or undercut. -/
structure Sound (direction : Side) (tuning : Tuning) (t : Tables) (x : Tandem) : Prop where
  bench : x.bench.Sound direction t
  kinds : ∀ kind, (x.course.session.pass kind).kind = kind
  known : ∀ row ∈ x.course.session.forward.batch, (t direction).get? row.id = some row
  published : ∀ e ∈ x.course.published, Truthful direction t e
  pending : ∀ kind, ∀ e ∈ (x.course.session.pass kind).pending, Truthful direction t e
  begun : ∀ h ∈ x.bench.handlings, h.event ∈ x.course.published
  touched : ∀ id, (x.bench.tables direction.other).get? id ≠ (t direction.other).get? id →
    id ∈ x.course.published.map (·.id)
  accounted : x.course.session.forward.Accounted (.whole direction tuning) x.bench.tables
    (x.course.published.map (·.id))
  untold : x.course.session.backward.untold (.whole direction tuning) x.bench.tables
    (x.course.published.map (·.id)) ≤ x.undercut

theorem sound_start (direction : Side) (tuning : Tuning) (t : Tables) :
    (start t).Sound direction tuning t where
  bench := Bench.sound_nil direction t
  kinds kind := by cases kind <;> rfl
  known := by simp [start, Course.start, Session.start, Pass.start, Pass.batch]
  published := by simp [start, Course.start]
  pending kind := by
    cases kind <;> simp [start, Course.start, Session.start, Session.pass, Pass.start, Pass.pending]
  begun := by simp [start]
  touched := by simp [start]
  accounted := by
    simp [Pass.Accounted, start, Course.start, Session.start, Pass.start, Pass.surveyed, Pass.behind,
      Pass.passed]
  untold := by
    simp [Pass.untold, start, Course.start, Session.start, Pass.start, Pass.surveyed, Pass.behind,
      Pass.passed]

theorem Sound.compare {c : Course} {kind : Kind} {i : Incident} (sound : x.Sound direction tuning t)
    (smooth : i.smooth = true)
    (step : x.course.advance (.whole direction tuning) x.bench.tables (kind, i) = some c) :
    Sound direction tuning t { x with course := c } := by
  obtain ⟨running, q, here, rfl⟩ := Course.advance_eq_some step
  have positive : 1 ≤ (Settings.whole direction tuning).batchSize :=
    Settings.positive_of_flaw (x.course.flaw_eq_none (by simp [running]))
  have base : x.bench.tables direction = t direction := sound.bench.line.untouched
  have known : ∀ row ∈ x.course.session.forward.batch,
      (x.bench.tables direction).get? row.id = some row := by rw [base]; exact sound.known
  -- repairs leave the base alone, so a finding is true of the tables at the start
  have truthful : ∀ e ∈ i.attempted ++ q.1.pending, Truthful direction t e := by
    intro e member
    rcases Pass.pending_advance here member with before | ⟨batch, phase, found⟩
    · exact sound.pending kind e before
    · have told := truthful_findings (fun forward row there => ?_) found
      · rwa [show (Settings.whole direction tuning).base = direction from rfl, base] at told
      · obtain rfl : kind = .baseToTarget := (sound.kinds kind).symm.trans forward
        have looking : x.course.session.forward.phase = .checking batch := phase
        exact known row (by simpa [Pass.batch, looking] using there)
  have more := List.map_subset (·.id) (List.subset_append_left x.course.published i.news)
  refine ⟨sound.bench, ?_, ?_, ?_, ?_, ?_, ?_, ?_, ?_⟩
  · exact Session.forall_setPass kind (P := fun kind p => p.kind = kind) sound.kinds
      ((Pass.kind_of_response here).trans (sound.kinds kind))
  · cases kind with
    | baseToTarget =>
      intro row member
      rw [← base]
      exact Pass.get?_of_mem_batch (sound.kinds .baseToTarget) here member
    | targetToBase => exact sound.known
  · intro e member
    rcases List.mem_append.1 member with old | new
    · exact sound.published e old
    · exact truthful e (List.mem_append_left _ (i.news_subset_attempted new))
  · exact Session.forall_setPass kind (P := fun _ p => ∀ e ∈ p.pending, Truthful direction t e)
      sound.pending fun e member => truthful e (List.mem_append_right _ member)
  · exact fun h member => List.mem_append_left _ (sound.begun h member)
  · exact fun id changed => more (sound.touched id changed)
  · cases kind with
    | baseToTarget =>
      rw [List.map_append]
      exact sound.accounted.advance positive (sound.kinds .baseToTarget) known smooth here
    | targetToBase => exact sound.accounted.mono more
  · cases kind with
    | baseToTarget => exact (Pass.untold_le_of_subset more).trans sound.untold
    | targetToBase =>
      rw [List.map_append]
      exact (Pass.untold_advance positive (sound.kinds .targetToBase) smooth here).trans sound.untold

theorem Sound.repair {turn : Turn} {b : Bench} (columns : r.columns direction = Interactive.columns)
    (sound : x.Sound direction tuning t) (told : ∀ e ∈ started turn, e ∈ x.course.published)
    (step : x.bench.advance r turn = some b) : Sound direction tuning t { x with
      bench := b
      undercut := x.undercut +
        (x.course.session.backward.behind (.whole direction tuning) x.bench.tables).countP fun row =>
          (b.tables (Settings.whole direction tuning).target).get? row.id = none } := by
  have known : ∀ e, turn = .begin e → e ∈ x.course.published := by
    rintro e rfl
    exact told e (List.mem_singleton_self e)
  have bench := sound.bench.advance columns (fun e same => (sound.published e (known e same)).1) step
  have handlings := Bench.forall_handlings (P := fun e _ => e ∈ x.course.published)
    (fun _ _ _ _ here => here) known sound.begun step
  rcases sound.bench.change step with same | ⟨h, member, change⟩
  · refine ⟨bench, sound.kinds, sound.known, sound.published, sound.pending, handlings, ?_, ?_, ?_⟩
    · rw [same]; exact sound.touched
    · rw [same]; exact sound.accounted
    · rw [same]; exact sound.untold.trans (Nat.le_add_right _ _)
  · refine ⟨bench, sound.kinds, sound.known, sound.published, sound.pending, handlings, ?_, ?_, ?_⟩
    · intro id changed
      rcases change.records id with kept | ⟨rfl, -⟩
      · exact sound.touched id (by rwa [← kept])
      · exact List.mem_map_of_mem (sound.begun h member)
    · exact accounted_change (sound.kinds .baseToTarget) sound.accounted change
    · exact (untold_change (sound.kinds .targetToBase) change).trans (Nat.add_le_add_right sound.untold _)

theorem Sound.advance (columns : r.columns direction = Interactive.columns)
    (sound : x.Sound direction tuning t) (step : x.advance (.whole direction tuning) r m = some y) :
    y.Sound direction tuning t := by
  cases m with
  | compare move =>
    obtain ⟨smooth, step⟩ := Option.ite_none_right_eq_some.1 step
    obtain ⟨c, moved, rfl⟩ := Option.map_eq_some_iff.1 step
    exact sound.compare smooth moved
  | repair turn =>
    obtain ⟨told, step⟩ := Option.ite_none_right_eq_some.1 step
    obtain ⟨b, moved, rfl⟩ := Option.map_eq_some_iff.1 step
    exact sound.repair columns told moved

theorem Sound.follow (columns : r.columns direction = Interactive.columns)
    (sound : x.Sound direction tuning t) (run : x.follow (.whole direction tuning) r moves = some y) :
    y.Sound direction tuning t := by
  exact follows.invariant (fun _ _ _ _ sound step => sound.advance columns step) sound run

theorem Sound.unreported {row : Interactive} (sound : x.Sound direction tuning t)
    (silent : row ∈ unreported (.whole direction tuning) t x.course.published) :
    (t direction).get? row.id = none ∧ row.id ∉ x.course.published.map (·.id) ∧
      (x.bench.tables direction.other).get? row.id = some row := by
  obtain ⟨member, absent, silent⟩ : row ∈ (t direction.other).rows ∧ (t direction).get? row.id = none ∧
      ⟨row.id, direction, .baseMissing⟩ ∉ x.course.published := by
    obtain ⟨member, missed⟩ := List.mem_filter.1 silent
    exact ⟨member, of_decide_eq_true missed⟩
  have unnamed : row.id ∉ x.course.published.map (·.id) := by
    intro named
    obtain ⟨⟨id, side, drift⟩, there, rfl⟩ := List.mem_map.1 named
    obtain ⟨rfl, missing⟩ := sound.published _ there
    cases missing absent
    exact silent there
  have kept := not_not.1 fun changed => unnamed (sound.touched row.id changed)
  exact ⟨absent, unnamed, kept.trans (Table.get?_of_mem _ member)⟩

/-- Those that were not reported have slipped past the pass through the target. -/
theorem Sound.length_unreported_le (sound : x.Sound direction tuning t)
    (through : ∀ kind, (x.course.session.pass kind).phase = .finished) :
    (Tandem.unreported (.whole direction tuning) t x.course.published).length ≤ x.undercut := by
  have ended : x.course.session.backward.phase = .finished := through .targetToBase
  have kind : x.course.session.backward.kind = .targetToBase := sound.kinds .targetToBase
  have few := sound.untold
  rw [Pass.untold, Pass.surveyed_of_finished ended, kind, Pass.held_of_finished ended, List.append_nil,
    List.countP_eq_length_filter] at few
  have distinct : (Tandem.unreported (.whole direction tuning) t x.course.published).Nodup :=
    (t direction.other).nodup_rows.filter _
  refine (List.subperm_of_subset distinct fun row silent => ?_).length_le.trans few
  obtain ⟨absent, unnamed, here⟩ := sound.unreported silent
  have base : x.bench.tables direction = t direction := sound.bench.line.untouched
  refine List.mem_filter.2 ⟨((Table.get?_eq_some_iff ..).1 here).1, ?_⟩
  simp only [Settings.whole, base, absent, unnamed, not_false_eq_true, and_self, decide_true]

/-- Of a record that no event names, the target has what the base has, unless it slipped past. -/
theorem Sound.in_line_of_unnamed {id : Int64} (sound : x.Sound direction tuning t)
    (through : ∀ kind, (x.course.session.pass kind).phase = .finished)
    (unnamed : id ∉ x.course.published.map (·.id))
    (loud : id ∉ (Tandem.unreported (.whole direction tuning) t x.course.published).map (·.id)) :
    (x.bench.tables direction.other).get? id = (t direction).get? id := by
  have ended : x.course.session.forward.phase = .finished := through .baseToTarget
  have kind : x.course.session.forward.kind = .baseToTarget := sound.kinds .baseToTarget
  have base : x.bench.tables direction = t direction := sound.bench.line.untouched
  cases here : (t direction).get? id with
  | some row =>
    obtain ⟨member, rfl⟩ := (Table.get?_eq_some_iff ..).1 here
    have seen : row ∈ x.course.session.forward.surveyed (.whole direction tuning) x.bench.tables := by
      rw [Pass.surveyed_of_finished ended, kind]
      simpa only [Settings.extent, Settings.whole, base] using member
    have known := sound.accounted row seen
    rw [Pass.held_of_finished ended, List.append_nil] at known
    exact known.resolve_left unnamed
  | none =>
    have kept := not_not.1 fun changed => unnamed (sound.touched id changed)
    rw [kept]
    cases there : (t direction.other).get? id with
    | none => rfl
    | some row =>
      obtain ⟨member, rfl⟩ := (Table.get?_eq_some_iff ..).1 there
      refine absurd (List.mem_map_of_mem (List.mem_filter.2 ⟨member, decide_eq_true ⟨here, ?_⟩⟩)) loud
      exact fun told => unnamed (List.mem_map_of_mem told)

/-- By the time a comparison of everything has succeeded, no more of the records that the base lacks
are unreported than were deleted behind the pass that looks for them. Once what was published is
repaired, these are the only difference that is left. -/
theorem unreported_le_undercut {t₀ : Tables} (built : (Repairer.build.run Tables.answer t₀).1 = .ok r)
    (run : (start t).follow (.whole direction tuning) r moves = some x)
    (ended : x.course.outcome (.whole direction tuning) = some (.ok ())) :
    (unreported (.whole direction tuning) t x.course.published).length ≤ x.undercut ∧
    ((∀ e ∈ x.course.published, x.bench.Handled e) → x.bench.tables direction = t direction ∧
      ∀ id, (x.bench.tables direction.other).get? id =
        if id ∈ (unreported (.whole direction tuning) t x.course.published).map (·.id) then
          (t direction.other).get? id
        else (t direction).get? id) := by
  have sound := (sound_start direction tuning t).follow (Repairer.columns_of_build built direction) run
  have through := Course.finished_of_ok ended
  refine ⟨sound.length_unreported_le through, fun handled => ⟨sound.bench.line.untouched, fun id => ?_⟩⟩
  split
  next silent =>
    obtain ⟨row, member, rfl⟩ := List.mem_map.1 silent
    obtain ⟨-, unnamed, -⟩ := sound.unreported member
    exact not_not.1 fun changed => unnamed (sound.touched row.id changed)
  next loud =>
    by_cases named : id ∈ x.course.published.map (·.id)
    · obtain ⟨e, member, rfl⟩ := List.mem_map.1 named
      exact sound.bench.handled (handled e member)
    · exact sound.in_line_of_unnamed through named loud

end Run

def surplus : Tables
  | .src => .empty
  | .dst => ⟨[⟨1, 10, "article", 5, 1, 0, 90, 20⟩, ⟨2, 11, "video", 0, 0, 0, 30, 30⟩], by decide⟩

def single : Settings := .whole .src { Tuning.standard with batchSize := 1 }

/-- The pass through the target comes to a record that the base lacks. -/
def reporting (id : Int64) : List Move :=
  [.compare (.targetToBase, .answered), .compare (.targetToBase, .answered),
    .compare (.targetToBase, .published ⟨id, .src, .baseMissing⟩ true)]

def exhausting : List Move := [.compare (.targetToBase, .answered), .compare (.baseToTarget, .answered)]

/-- The first event is taken up at once, but its record is deleted when both were reported. -/
def unhurried : List Move :=
  reporting 1 ++ [.repair (.begin ⟨1, .src, .baseMissing⟩), .repair (.answered 0)] ++ reporting 2 ++
    exhausting ++ [.repair (.answered 0), .repair (.begin ⟨2, .src, .baseMissing⟩), .repair (.answered 1),
      .repair (.answered 1)]

theorem unreported_le_undercut_unhurried :
    ∃ x, (start surplus).follow single .mapped unhurried = some x ∧
      x.course.outcome single = some (.ok ()) ∧
      unreported single surplus x.course.published = [] ∧ ∀ id, (x.bench.tables .dst).get? id = none := by
  have reached : ((start surplus).follow single .mapped unhurried).map
      (fun x => (x.course.outcome single, decide (∀ e ∈ x.course.published, x.bench.Handled e),
        x.undercut)) = some (some (.ok ()), true, 0) := rfl
  obtain ⟨x, run, known⟩ := Option.map_eq_some_iff.1 reached
  simp only [Prod.mk.injEq, decide_eq_true_eq] at known
  obtain ⟨ended, handled, undercut⟩ := known
  obtain ⟨few, repaired⟩ := unreported_le_undercut (Repairer.run_build surplus) run ended
  have none : unreported single surplus x.course.published = [] :=
    List.length_eq_zero_iff.1 (Nat.le_zero.1 (undercut ▸ few))
  refine ⟨x, run, ended, none, fun id => ?_⟩
  have line := (repaired handled).2 id
  rwa [show Settings.whole .src _ = single from rfl, none] at line

/-- The record of the first event is deleted as soon as it is reported; the other takes its place. -/
def hasty : List Move :=
  reporting 1 ++ [.repair (.begin ⟨1, .src, .baseMissing⟩), .repair (.answered 0), .repair (.answered 0)] ++
    exhausting

/-- A comparison that succeeds may leave a record unreported, which is there still when all is repaired. -/
theorem surplus_unreported :
    ∃ x, (start surplus).follow single .mapped hasty = some x ∧ x.course.outcome single = some (.ok ()) ∧
      (∀ e ∈ x.course.published, x.bench.Handled e) ∧
      unreported single surplus x.course.published ≠ [] ∧ x.bench.tables .dst ≠ x.bench.tables .src := by
  have reached : ((start surplus).follow single .mapped hasty).map
      (fun x => (x.course.outcome single, decide (∀ e ∈ x.course.published, x.bench.Handled e),
        unreported single surplus x.course.published, (x.bench.tables .src).rows,
        (x.bench.tables .dst).rows)) =
      some (some (.ok ()), true, [⟨2, 11, "video", 0, 0, 0, 30, 30⟩], [],
        [⟨2, 11, "video", 0, 0, 0, 30, 30⟩]) := rfl
  obtain ⟨x, run, known⟩ := Option.map_eq_some_iff.1 reached
  simp only [Prod.mk.injEq, decide_eq_true_eq] at known
  obtain ⟨ended, handled, missed, base, target⟩ := known
  refine ⟨x, run, ended, handled, by simp [missed], fun same => ?_⟩
  rw [same, base] at target
  cases target

end Tandem
end Repair
end Cutover
