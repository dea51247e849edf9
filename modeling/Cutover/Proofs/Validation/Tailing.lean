import Mathlib.Data.List.Permutation
import Cutover.Proofs.Run
import Cutover.Proofs.Validation.Paging

/-! A comparison that follows updates, while the base goes on being written to. Every write carries a
time later than any in the base, so that it puts its record at the end of what is walked through; if
the pass had gone past that record, the ones from further on move up by a place, and one of them is
missed. -/
namespace Cutover.Validation

namespace Settings

variable {s : Settings} {t : Tables} {r : Interactive}

/-- A write moves the record to the end, or puts it there. -/
theorem extent_write (incremental : s.mode = .incremental)
    (latest : ∀ old ∈ (t s.base).rows, old.utime < r.utime) :
    s.extent (Function.update t s.base ((t s.base).put r)) .baseToTarget =
      (s.extent t .baseToTarget).filter (·.id != r.id) ++ if s.utime < r.utime then [r] else [] := by
  have covers : ∀ x, s.covers x = true ↔ s.utime < x.utime := by simp [Settings.covers, incremental]
  refine (s.inOrder_extent _).unique ⟨?_, ?_⟩
  · rw [Function.update_self]
    apply (List.perm_ext_iff_of_nodup ?_ (((t s.base).put r).nodup_rows.filter _)).2
    · intro x
      simp only [List.mem_append, List.mem_filter, s.mem_extent_forward, Table.mem_put, covers]
      grind
    · refine List.nodup_append.2 ⟨(s.nodup_ids_extent_forward t).of_map.filter _, by split <;> simp, ?_⟩
      simp only [List.mem_filter]
      grind
  · have before : ∀ x ∈ s.extent t .baseToTarget, s.Precedes x r := by
      intro x member
      simp only [Precedes, incremental]
      exact .inl (latest x ((s.mem_extent_forward t x).1 member).1)
    refine List.pairwise_append.2 ⟨(s.inOrder_extent t).sorted.filter _, by split <;> simp, ?_⟩
    simp only [List.mem_filter]
    grind

theorem length_extent_le_write (incremental : s.mode = .incremental)
    (latest : ∀ old ∈ (t s.base).rows, old.utime < r.utime) :
    (s.extent t .baseToTarget).length ≤
      (s.extent (Function.update t s.base ((t s.base).put r)) .baseToTarget).length := by
  rw [extent_write incremental latest, List.length_append]
  by_cases covered : s.utime < r.utime
  · have once : (s.extent t .baseToTarget).countP (·.id = r.id) ≤ 1 := by
      have count := List.nodup_iff_count_le_one.1 (s.nodup_ids_extent_forward t) r.id
      simpa [List.count, List.countP_map, Function.comp_def, beq_eq_decide] using count
    have halves := List.length_eq_countP_add_countP (·.id != r.id) (l := s.extent t .baseToTarget)
    simp [covered, ← List.countP_eq_length_filter] at halves ⊢
    omega
  · have none : s.extent t .baseToTarget = [] := by
      rw [List.eq_nil_iff_forall_not_mem]
      intro x member
      obtain ⟨there, newer⟩ := (s.mem_extent_forward t x).1 member
      simp only [Settings.covers, incremental, decide_eq_true_eq] at newer
      exact covered (Int64.lt_trans newer (latest x there))
    simp [none]

end Settings

/-- A pass from the base, while the base is written to. -/
structure Tail where
  tables : Tables
  pass : Pass
  /-- All that scans have returned to it. -/
  returned : List Interactive
  /-- How many writes were to records that it had gone past. -/
  overtaken : Nat

namespace Tail

inductive Move where
  | incident (i : Incident)
  /-- A record of the base is inserted or updated. -/
  | write (r : Interactive)
  | edit (table : Table)

def advance (s : Settings) (x : Tail) : Move → Option Tail
  | .incident i => (x.pass.advance s x.tables i).map fun (pass, _) =>
      { x with pass, returned := x.returned ++ x.pass.fetched s x.tables i }
  | .write r =>
    if ∀ old ∈ (x.tables s.base).rows, old.utime < r.utime then some { x with
      tables := Function.update x.tables s.base ((x.tables s.base).put r)
      overtaken := x.overtaken + (x.pass.behind s x.tables).countP (·.id == r.id) }
    else none
  | .edit table => some { x with tables := Function.update x.tables s.target table }

def follow (s : Settings) : Tail → List Move → Option Tail
  | x, [] => some x
  | x, m :: rest => (x.advance s m).bind fun x => x.follow s rest

theorem follows {s : Settings} : Follows (advance s) (follow s) := ⟨fun _ => rfl, fun _ _ _ => rfl⟩

def start (t : Tables) : Tail := ⟨t, .start .baseToTarget, [], 0⟩

/-- The pass scans, and the answer is that there is nothing more. -/
def Exhausted (s : Settings) (x : Tail) : Prop := x.pass.Exhausted s x.tables

/-- The records of the base that are to be compared and that no scan has returned as they are now. -/
def missed (s : Settings) (x : Tail) : List Interactive :=
  (x.tables s.base).rows.filter fun r => s.utime < r.utime ∧ r ∉ x.returned

variable {s : Settings} {t : Tables} {x y : Tail} {m : Move} {moves : List Move}

/-- The pass is inside of what it walks through, and of what is behind it no more was missed than was
overtaken. -/
structure Sound (s : Settings) (x : Tail) : Prop where
  kind : x.pass.kind = .baseToTarget
  inside : x.pass.passed ≤ (s.extent x.tables .baseToTarget).length
  missed : (x.pass.behind s x.tables).countP (· ∉ x.returned) ≤ x.overtaken

theorem sound_start (s : Settings) (t : Tables) : (start t).Sound s where
  kind := rfl
  inside := Nat.zero_le _
  missed := by simp [start, Pass.behind, Pass.passed, Pass.start]

theorem Sound.incident {i : Incident} {q : Pass × List Note} (sound : x.Sound s)
    (step : x.pass.Response s x.tables i q) :
    Sound s { x with pass := q.1, returned := x.returned ++ x.pass.fetched s x.tables i } := by
  refine ⟨(Pass.kind_of_response step).trans sound.kind, ?_, ?_⟩
  · have further := Pass.passed_advance step
    have fetched := congrArg List.length (x.pass.fetched_eq s x.tables i)
    have inside := sound.inside
    simp only [sound.kind, List.length_take, List.length_drop] at fetched
    show q.1.passed ≤ (s.extent x.tables .baseToTarget).length
    omega
  · have few := (Pass.behind_advance step).countP_le (p := (· ∉ x.returned ++ x.pass.fetched s x.tables i))
    have old : (x.pass.behind s x.tables).countP (· ∉ x.returned ++ x.pass.fetched s x.tables i) ≤
        (x.pass.behind s x.tables).countP (· ∉ x.returned) := by
      apply List.countP_mono_left
      simp +contextual
    have new : (x.pass.fetched s x.tables i).countP (· ∉ x.returned ++ x.pass.fetched s x.tables i) = 0 := by
      simp +contextual [List.countP_eq_zero]
    rw [List.countP_append, new] at few
    exact (few.trans old).trans sound.missed

theorem Sound.write {r : Interactive} (incremental : s.mode = .incremental) (sound : x.Sound s)
    (latest : ∀ old ∈ (x.tables s.base).rows, old.utime < r.utime) : Sound s { x with
      tables := Function.update x.tables s.base ((x.tables s.base).put r)
      overtaken := x.overtaken + (x.pass.behind s x.tables).countP (·.id == r.id) } := by
  have slipped := countP_take_filter_append_le (· ∉ x.returned) (·.id != r.id) _
    (if s.utime < r.utime then [r] else []) sound.inside
  rw [← Settings.extent_write incremental latest] at slipped
  refine ⟨sound.kind, sound.inside.trans (Settings.length_extent_le_write incremental latest), ?_⟩
  have missed := sound.missed
  simp only [Pass.behind, sound.kind, bne, Bool.not_not] at missed slipped ⊢
  omega

theorem Sound.edit {table : Table} (sound : x.Sound s) :
    Sound s { x with tables := Function.update x.tables s.target table } := by
  have base : Function.update x.tables s.target table s.base = x.tables s.base :=
    Function.update_of_ne (Side.other_ne s.base).symm _ _
  have extent : s.extent (Function.update x.tables s.target table) .baseToTarget =
      s.extent x.tables .baseToTarget := by simp only [Settings.extent, base]
  refine ⟨sound.kind, by rw [extent]; exact sound.inside, ?_⟩
  have missed := sound.missed
  simp only [Pass.behind, sound.kind, extent] at missed ⊢
  exact missed

theorem Sound.advance (incremental : s.mode = .incremental) (sound : x.Sound s)
    (step : x.advance s m = some y) : y.Sound s := by
  cases m with
  | incident i =>
    obtain ⟨q, moved, rfl⟩ := Option.map_eq_some_iff.1 step
    exact sound.incident (Pass.response_of_advance moved)
  | write r =>
    obtain ⟨latest, step⟩ := Option.ite_none_right_eq_some.1 step
    cases step
    exact sound.write incremental latest
  | edit table =>
    cases step
    exact sound.edit

theorem Sound.follow (incremental : s.mode = .incremental) (sound : x.Sound s)
    (run : x.follow s moves = some y) : y.Sound s := by
  exact follows.invariant (fun _ _ _ _ sound step => sound.advance incremental step) sound run

theorem exhausted_of_rows_le (phase : x.pass.phase = .scanning) (kind : x.pass.kind = .baseToTarget)
    (few : (x.tables s.base).rows.length ≤ x.pass.offset) : x.Exhausted s := by
  refine Pass.exhausted_of_length_le phase ?_
  rw [kind, (s.inOrder_extent x.tables).members.length_eq]
  exact (List.length_filter_le _ _).trans few

/-- When there is nothing more to scan, all that is to be compared is behind the pass. -/
theorem Exhausted.behind (positive : 1 ≤ s.batchSize) (kind : x.pass.kind = .baseToTarget)
    (exhausted : x.Exhausted s) : x.pass.behind s x.tables = s.extent x.tables .baseToTarget := by
  rw [Pass.Exhausted.behind_eq positive exhausted, kind]

/-- By the time a scan returns nothing, a pass that follows updates has missed no more records than
were written to behind it. -/
theorem missed_le_overtaken (incremental : s.mode = .incremental) (positive : 1 ≤ s.batchSize)
    (run : (start t).follow s moves = some x) (exhausted : x.Exhausted s) :
    (x.missed s).length ≤ x.overtaken := by
  have sound := (sound_start s t).follow incremental run
  have all := exhausted.behind positive sound.kind
  have missed := sound.missed
  rw [all, (s.inOrder_extent x.tables).members.countP_eq, List.countP_filter] at missed
  have same (r : Interactive) : (decide (r ∉ x.returned) && s.covers r) =
      decide (s.utime < r.utime ∧ r ∉ x.returned) := by
    simp [Settings.covers, incremental, Bool.and_comm]
  simpa only [Tail.missed, ← List.countP_eq_length_filter, ← same] using missed

/-- A comparison of what was updated after 5, which looks for more every 20 milliseconds. -/
def patient : Settings :=
  { Settings.whole .src Tuning.standard with mode := .incremental, utime := 5, interval := .ofMillis 20 }

def lone : Tables := fun _ => ⟨[⟨1, 10, "article", 5, 1, 0, 10, 5⟩], by simp⟩

/-- The pass comes to the end of the data and sleeps. -/
def toTheEnd : List Move :=
  [.incident .answered, .incident .answered, .incident .answered, .incident .rested]

theorem missed_le_overtaken_insert :
    ∃ x, (start lone).follow patient (toTheEnd ++ [.write ⟨2, 11, "video", 0, 0, 0, 30, 30⟩,
        .incident .answered, .incident .answered,
        .incident (.published ⟨2, .src, .targetMissing⟩ true)]) = some x ∧
      x.Exhausted patient ∧ x.missed patient = [] := by
  have reached : ((start lone).follow patient (toTheEnd ++ [.write ⟨2, 11, "video", 0, 0, 0, 30, 30⟩,
      .incident .answered, .incident .answered,
      .incident (.published ⟨2, .src, .targetMissing⟩ true)])).map
      (fun x => (x.pass, (x.tables .src).rows.length, x.overtaken)) =
      some (⟨.baseToTarget, 2, 0, .scanning⟩, 2, 0) := by cbv
  obtain ⟨x, run, known⟩ := Option.map_eq_some_iff.1 reached
  simp only [Prod.mk.injEq] at known
  obtain ⟨pass, rows, overtaken⟩ := known
  have exhausted : x.Exhausted patient :=
    exhausted_of_rows_le (by rw [pass]) (by rw [pass]) (by rw [pass]; exact rows.le)
  have bound := missed_le_overtaken rfl (by decide) run exhausted
  rw [overtaken] at bound
  exact ⟨x, run, exhausted, List.length_eq_zero_iff.1 (by omega)⟩

/-- An update of the record that the pass has gone past is found by no scan. -/
theorem update_unseen :
    ¬∀ (s : Settings) (t : Tables) (moves : List Move) (x : Tail), s.mode = .incremental →
      1 ≤ s.batchSize → s.interval ≠ .zero → (start t).follow s moves = some x → x.Exhausted s →
      ∀ r ∈ (x.tables s.base).rows, s.utime < r.utime → r ∈ x.returned := by
  intro complete
  have reached : ((start lone).follow patient
      (toTheEnd ++ [.write ⟨1, 10, "article", 6, 1, 0, 30, 5⟩])).map
      (fun x => (x.pass, (x.tables .src).rows, x.returned)) =
      some (⟨.baseToTarget, 1, 0, .scanning⟩, [⟨1, 10, "article", 6, 1, 0, 30, 5⟩],
        [⟨1, 10, "article", 5, 1, 0, 10, 5⟩]) := by cbv
  obtain ⟨x, run, known⟩ := Option.map_eq_some_iff.1 reached
  simp only [Prod.mk.injEq] at known
  obtain ⟨pass, rows, returned⟩ := known
  have exhausted : x.Exhausted patient :=
    exhausted_of_rows_le (by rw [pass]) (by rw [pass]) (by rw [pass]; exact (congrArg List.length rows).le)
  have seen := complete patient lone _ x rfl (by decide) (by decide) run exhausted
    ⟨1, 10, "article", 6, 1, 0, 30, 5⟩
    (by rw [show x.tables patient.base = x.tables .src from rfl, rows]; simp) (by decide)
  rw [returned] at seen
  simp at seen

end Tail
end Cutover.Validation
