import Mathlib.Data.List.Permutation
import Cutover.Proofs.Validation.Walk

/-! A walk from the base, while records come at its end alone. What the scans have returned is always the
first part of what there is to compare, so that no record is returned twice, none is left out by the time a
scan returns nothing, and of each there is one event at most, for as long as the walk may go on. -/
namespace Cutover.Validation

namespace Settings

variable {s : Settings} {t : Tables}

instance (s : Settings) : DecidableRel s.Precedes := fun a b =>
  decidable_of_iff (if s.mode = .full then a.id < b.id else a.utime < b.utime ∨ a.utime = b.utime ∧ a.id < b.id)
    (by cases mode : s.mode <;> simp [Precedes, mode])

/-- Records that are compared stay as they are, and others come after all of these. Whatever is not compared
may change in any way. -/
def Appends (s : Settings) (old new : Table) : Prop :=
  (∀ r ∈ old.rows, s.covers r = true → r ∈ new.rows) ∧
    ∀ r ∈ new.rows, s.covers r = true →
      r ∈ old.rows ∨ ∀ q ∈ old.rows, s.covers q = true → s.Precedes q r

instance (s : Settings) : DecidableRel s.Appends := fun _ _ => inferInstanceAs (Decidable (_ ∧ _))

theorem appends_put {table : Table} {record : Interactive} (fresh : table.get? record.id = none)
    (last : ∀ r ∈ table.rows, s.covers r = true → s.Precedes r record) :
    s.Appends table (table.put record) := by
  refine ⟨fun r member _ => (table.mem_put record r).2 (.inr ⟨member, fun same => ?_⟩), fun r member _ => ?_⟩
  · simp [← same, table.get?_of_mem member] at fresh
  · rcases (table.mem_put record r).1 member with rfl | ⟨old, -⟩
    · exact .inr last
    · exact .inl old

/-- What is walked through grows at its end. -/
theorem extent_append {table : Table} (appends : s.Appends (t s.base) table) :
    s.extent t .baseToTarget <+: s.extent (Function.update t s.base table) .baseToTarget := by
  obtain ⟨kept, added⟩ := appends
  have before (r : Interactive) := s.mem_extent_forward t r
  have now (r : Interactive) : r ∈ s.extent (Function.update t s.base table) .baseToTarget ↔
      r ∈ table.rows ∧ s.covers r = true := by rw [mem_extent_forward, Function.update_self]
  have distinct (u : Tables) : (s.extent u .baseToTarget).Nodup := (s.nodup_ids_extent_forward u).of_map
  -- what is new, in its order, comes after all that was there
  refine ⟨(s.extent (Function.update t s.base table) .baseToTarget).filter (· ∉ s.extent t .baseToTarget),
    InOrder.unique ⟨?_, ?_⟩ (s.inOrder_extent _)⟩
  · rw [Function.update_self]
    apply (List.perm_ext_iff_of_nodup ?_ (table.nodup_rows.filter _)).2
    · intro r
      simp only [List.mem_append, List.mem_filter, decide_eq_true_eq, before, now]
      grind
    · refine List.nodup_append.2 ⟨distinct t, (distinct _).filter _, ?_⟩
      simp only [List.mem_filter, decide_eq_true_eq]
      grind
  · refine List.pairwise_append.2 ⟨(s.inOrder_extent t).sorted, (s.inOrder_extent _).sorted.filter _, ?_⟩
    intro q member r fresh
    simp only [List.mem_filter, decide_eq_true_eq, before, now] at member fresh
    obtain ⟨⟨there, covered⟩, unknown⟩ := fresh
    exact (added r there covered).resolve_left (fun old => unknown ⟨old, covered⟩) q member.1 member.2

end Settings

namespace Walk

variable {s : Settings} {t : Tables} {x y : Walk}

/-- What was returned is the first part of what there is to compare, up to the place of the pass. -/
structure Unbroken (s : Settings) (x : Walk) : Prop where
  tidy : x.Tidy
  kind : x.pass.kind = .baseToTarget
  met : x.returned <+: s.extent x.tables .baseToTarget
  place : x.pass.phase = .finished ∨ x.returned.length = x.pass.passed

theorem unbroken_start (s : Settings) (t : Tables) : (start t .baseToTarget).Unbroken s where
  tidy := tidy_start t .baseToTarget
  kind := rfl
  met := List.nil_prefix
  place := .inr rfl

theorem Unbroken.incident {i : Incident} {q : Pass × List Note} (unbroken : x.Unbroken s)
    (fine : i.fails = false) (step : x.pass.Response s x.tables i q) : (x.after s i q.1).Unbroken s := by
  obtain ⟨tidy, kind, met, place⟩ := unbroken
  have sameKind := (Pass.kind_of_response step).trans kind
  rcases place with through | place
  · have nothing := Pass.fetched_eq_nil (s := s) (t := x.tables) (p := x.pass) (by simp [through]) i
    refine ⟨tidy.incident fine step, sameKind, ?_, .inl (Pass.finished_of_response through step)⟩
    simpa only [after, nothing, List.append_nil] using met
  · refine ⟨tidy.incident fine step, sameKind, ?_, ?_⟩
    · have behind := List.prefix_iff_eq_take.1 met
      have fetched := x.pass.fetched_eq s x.tables i
      rw [place] at behind
      rw [kind] at fetched
      rw [after, behind, fetched, ← List.take_add]
      exact List.take_prefix _ _
    · refine (Pass.passed_of_response fine step).imp_right fun further => ?_
      rw [after, List.length_append, place, further]

theorem Unbroken.turn (unbroken : x.Unbroken s) (turn : Turn s s.Appends x y) : y.Unbroken s := by
  have tidy := unbroken.tidy.turn turn
  cases turn with
  | incident fine step => exact unbroken.incident fine step
  | @change table lawful =>
    have here : x.pass.scanned s = s.base := by rw [Pass.scanned, unbroken.kind]
    rw [here] at lawful
    refine ⟨tidy, unbroken.kind, ?_, unbroken.place⟩
    rw [here]
    exact unbroken.met.trans (Settings.extent_append lawful)
  | edit same =>
    have extent := Pass.extent_congr same
    rw [unbroken.kind] at extent
    exact ⟨tidy, unbroken.kind, extent ▸ unbroken.met, unbroken.place⟩

/-- However long a walk from the base goes on, to the end of which records are added: no scan returns a record
that was returned before; what was returned is the first part of what there is to compare, in its order, and
all of it when a scan returns nothing; and no two events that are published name the same record. -/
theorem met_exactly_once {moves : List Move} (incremental : s.mode = .incremental)
    (positive : 1 ≤ s.batchSize) (run : (start t .baseToTarget).follow s s.Appends moves = some x) :
    (x.returned.map (·.id)).Nodup ∧
      (∃ l, s.InOrder (x.tables s.base) l ∧ x.returned <+: l) ∧
      (x.pass.Exhausted s x.tables →
        ∀ r ∈ (x.tables s.base).rows, s.utime < r.utime → r ∈ x.returned) ∧
      (x.attempted.map (·.id)).Nodup := by
  have unbroken := (follows s s.Appends).invariant
    (fun _ _ _ _ unbroken step => Unbroken.turn unbroken (turn_of_advance step)) (unbroken_start s t) run
  obtain ⟨tidy, kind, met, place⟩ := unbroken
  have once := (s.nodup_ids_extent_forward x.tables).sublist (met.map (·.id)).sublist
  refine ⟨once, ⟨_, s.inOrder_extent x.tables, met⟩, fun exhausted r member newer => ?_, tidy.nodup_told once⟩
  have all := exhausted.behind_eq positive
  have length := place.resolve_left (by simp [exhausted.1])
  have returned := List.prefix_iff_eq_take.1 met
  rw [Pass.behind, kind, ← length, ← returned] at all
  rw [all, s.mem_extent_forward]
  exact ⟨member, by simpa [Settings.covers, incremental] using newer⟩

/-- A comparison of what was updated after 5, two records at a time, which looks for more every 20
milliseconds. -/
def following : Settings :=
  { Settings.whole .src { Tuning.standard with batchSize := 2 } with
    mode := .incremental, utime := 5, interval := .ofMillis 20 }

/-- Both stores have three records, of which one was updated too early to be compared. -/
def trio : Tables := fun _ =>
  ⟨[⟨1, 10, "article", 5, 1, 0, 10, 5⟩, ⟨2, 11, "video", 0, 0, 0, 3, 3⟩, ⟨3, 12, "video", 7, 0, 2, 20, 5⟩],
    by decide⟩

/-- While the pass sleeps, a record is added, and one that is not compared goes away. -/
def appending : List Move :=
  [.incident .answered, .incident .answered, .incident .answered,
    .change (((trio .src).put ⟨4, 13, "article", 1, 0, 0, 20, 20⟩).erase 2), .incident .rested,
    .incident .answered, .incident .answered, .incident (.published ⟨4, .src, .targetMissing⟩ true)]

theorem met_exactly_once_appending :
    ∃ x, (start trio .baseToTarget).follow following following.Appends appending = some x ∧
      x.returned.map (·.id) = [1, 3, 4] ∧ x.attempted = [⟨4, .src, .targetMissing⟩] ∧
      (x.attempted.map (·.id)).Nodup ∧
      ∀ r ∈ (x.tables .src).rows, 5 < r.utime → r ∈ x.returned := by
  have reached : ((start trio .baseToTarget).follow following following.Appends appending).map
      (fun x => (x.pass, (x.tables .src).rows.length, x.returned.map (·.id), x.attempted)) =
      some (⟨.baseToTarget, 3, 0, .scanning⟩, 3, [1, 3, 4], [⟨4, .src, .targetMissing⟩]) := by cbv
  obtain ⟨x, run, known⟩ := Option.map_eq_some_iff.1 reached
  simp only [Prod.mk.injEq] at known
  obtain ⟨pass, rows, returned, attempted⟩ := known
  have exhausted : x.pass.Exhausted following x.tables := by
    refine Pass.exhausted_of_length_le (by rw [pass]) ?_
    rw [pass, (following.inOrder_extent x.tables).members.length_eq]
    exact (List.length_filter_le _ _).trans rows.le
  obtain ⟨-, -, all, once⟩ := met_exactly_once rfl (by decide) run
  exact ⟨x, run, returned, attempted, once, all exhausted⟩

end Walk
end Cutover.Validation
