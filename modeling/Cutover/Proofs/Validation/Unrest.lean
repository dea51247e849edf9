import Cutover.Proofs.Run
import Cutover.Proofs.Validation.Survey

/-! A comparison of everything while records of both stores are updated in place. A batch and what it
is looked up against are read at two instants, so a row of the base is compared with a later row of the
target. A key on which the stores differ all the while goes unreported only if the target comes to a row
that the base has had before. -/
namespace Cutover

namespace Table

/-- An update in place leaves the keys alone. -/
theorem ids_put {t : Table} {record : Interactive} (there : (t.get? record.id).isSome = true) :
    (t.put record).rows.map (·.id) = t.rows.map (·.id) := by
  have placed : ∀ rows : List Interactive, rows.Pairwise (·.id < ·.id) → (∃ r ∈ rows, r.id = record.id) →
      (place record rows).map (·.id) = rows.map (·.id) := by
    intro rows ordered
    induction rows with
    | nil => simp
    | cons first rest ih =>
      obtain ⟨above, ordered⟩ := List.pairwise_cons.1 ordered
      rintro ⟨r, member, same⟩
      simp only [place]
      split
      next below =>
        rcases List.mem_cons.1 member with rfl | later
        · exact absurd (same ▸ below) Int64.lt_irrefl
        · exact absurd (Int64.lt_trans below (same ▸ above r later)) Int64.lt_irrefl
      next =>
        split
        next equal => simp [equal]
        next differ =>
          rcases List.mem_cons.1 member with rfl | later
          · exact absurd same.symm differ
          · rw [List.map_cons, List.map_cons, ih ordered ⟨r, later, same⟩]
  obtain ⟨r, found⟩ := Option.isSome_iff_exists.1 there
  exact placed t.rows t.ordered ⟨r, (t.get?_eq_some_iff _ _).1 found⟩

theorem mem_ids_iff (t : Table) (id : Int64) : id ∈ t.rows.map (·.id) ↔ t.get? id ≠ none := by
  rw [Option.ne_none_iff_exists', List.mem_map]
  exact exists_congr fun r => (t.get?_eq_some_iff id r).symm

end Table

namespace Validation

/-- A comparison in the course of which records are updated. -/
structure Unrest where
  tables : Tables
  course : Course
  /-- What the tables were before, the latest first. -/
  past : List Tables

namespace Unrest

inductive Move where
  | compare (m : Course.Move)
  | update (side : Side) (record : Interactive)

/-- Nothing fails in the comparison, and only a record that is there is updated. -/
def advance (s : Settings) (x : Unrest) : Move → Option Unrest
  | .compare m =>
    if m.2.smooth then (x.course.advance s x.tables m).map fun course => { x with course } else none
  | .update side record =>
    if ((x.tables side).get? record.id).isSome then some { x with
      tables := Function.update x.tables side ((x.tables side).put record)
      past := x.tables :: x.past }
    else none

def follow (s : Settings) : Unrest → List Move → Option Unrest
  | x, [] => some x
  | x, m :: rest => (x.advance s m).bind fun x => x.follow s rest

theorem follows {s : Settings} : Follows (advance s) (follow s) := ⟨fun _ => rfl, fun _ _ _ => rfl⟩

def start (t : Tables) : Unrest := ⟨t, .start, []⟩

/-- The tables at every instant so far, the latest first. -/
def history (x : Unrest) : List Tables := x.tables :: x.past

/-- The target had a row that the base had at the same instant or at an earlier one. -/
def Met (s : Settings) (history : List Tables) (id : Int64) : Prop :=
  ∃ r u v, (u = v ∧ v ∈ history ∨ [v, u].Sublist history) ∧
    (u s.base).get? id = some r ∧ (v s.target).get? id = some r

section

variable {s : Settings} {t u v : Tables} {p : Pass} {x y : Unrest} {moves : List Move} {id : Int64}

theorem Met.later {history : List Tables} (met : Met s history id) (v : Tables) :
    Met s (v :: history) id := by
  obtain ⟨r, u, w, order, rows⟩ := met
  refine ⟨r, u, w, order.imp (fun same => ?_) (·.cons v), rows⟩
  exact ⟨same.1, List.mem_cons_of_mem _ same.2⟩

/-- What the base had at some instant meets what the target has now. -/
theorem met_now {r : Interactive} (before : u ∈ x.history) (base : (u s.base).get? r.id = some r)
    (target : (x.tables s.target).get? r.id = some r) : Met s x.history r.id := by
  refine ⟨r, u, x.tables, ?_, base, target⟩
  rcases List.mem_cons.1 before with rfl | past
  · exact .inl ⟨rfl, before⟩
  · exact .inr ((List.singleton_sublist.2 past).cons_cons _)

theorem ids_surveyed_congr (full : s.mode = .full)
    (same : ∀ side, (v side).rows.map (·.id) = (u side).rows.map (·.id)) :
    (p.surveyed s v).map (·.id) = (p.surveyed s u).map (·.id) := by
  have extent : (s.extent v p.kind).map (·.id) = (s.extent u p.kind).map (·.id) := by
    cases p.kind <;> simp only [Settings.extent, full, same]
  simp only [Pass.surveyed]
  split
  · exact extent
  · rw [Pass.behind, Pass.behind, List.map_take, List.map_take, extent]

/-- The batch in hand was read from the base, and of what the passes have seen there is an event, unless
it was in line when it was looked up. -/
structure Sound (s : Settings) (t : Tables) (x : Unrest) : Prop where
  kinds : ∀ kind, (x.course.session.pass kind).kind = kind
  keys : ∀ side, (x.tables side).rows.map (·.id) = (t side).rows.map (·.id)
  read : ∀ r ∈ x.course.session.forward.batch, ∃ u ∈ x.history, (u s.base).get? r.id = some r
  forward : x.course.session.forward.Told s x.tables (x.course.published.map (·.id)) (Met s x.history)
  backward : x.course.session.backward.Told s x.tables (x.course.published.map (·.id))
    (· ∈ (t s.base).rows.map (·.id))

theorem sound_start (s : Settings) (t : Tables) : (start t).Sound s t where
  kinds kind := by cases kind <;> rfl
  keys _ := rfl
  read := by simp [start, Course.start, Session.start, Pass.start, Pass.batch]
  forward := Pass.told_start s t .baseToTarget [] _
  backward := Pass.told_start s t .targetToBase [] _

theorem Sound.compare {c : Course} {m : Course.Move} (sound : x.Sound s t) (smooth : m.2.smooth = true)
    (step : x.course.advance s x.tables m = some c) : Sound s t { x with course := c } := by
  obtain ⟨kind, i⟩ := m
  obtain ⟨running, q, here, rfl⟩ := Course.advance_eq_some step
  have positive := s.positive_of_flaw (x.course.flaw_eq_none (by simp [running]))
  have more := List.map_subset (·.id) (List.subset_append_left x.course.published i.news)
  have forwardKind : x.course.session.forward.kind = .baseToTarget := sound.kinds .baseToTarget
  have backwardKind : x.course.session.backward.kind = .targetToBase := sound.kinds .targetToBase
  have kinds := Session.forall_setPass kind (P := fun kind p => p.kind = kind) sound.kinds
    ((Pass.kind_of_response here).trans (sound.kinds kind))
  cases kind with
  | baseToTarget =>
    refine ⟨kinds, sound.keys, ?_, ?_, sound.backward.mono more fun _ => id⟩
    · intro r member
      exact ⟨x.tables, List.mem_cons_self, Pass.get?_of_mem_batch forwardKind here member⟩
    · rw [List.map_append]
      refine sound.forward.advance positive ?_ smooth here
      intro r looked silent
      obtain ⟨u, before, base⟩ := sound.read r looked
      rw [forwardKind] at silent
      exact met_now before base (Settings.get?_target_of_silent looked silent)
  | targetToBase =>
    refine ⟨kinds, sound.keys, sound.read, sound.forward.mono more fun _ => id, ?_⟩
    rw [List.map_append]
    refine sound.backward.advance positive ?_ smooth here
    intro r looked silent
    rw [backwardKind] at silent
    rw [← sound.keys, Table.mem_ids_iff]
    exact Settings.get?_base_of_silent looked silent

theorem Sound.update {side : Side} {record : Interactive} (full : s.mode = .full) (sound : x.Sound s t)
    (there : ((x.tables side).get? record.id).isSome = true) : Sound s t { x with
      tables := Function.update x.tables side ((x.tables side).put record)
      past := x.tables :: x.past } := by
  have same : ∀ k, (Function.update x.tables side ((x.tables side).put record) k).rows.map (·.id) =
      (x.tables k).rows.map (·.id) := by
    intro k
    by_cases here : k = side
    · subst here
      rw [Function.update_self, Table.ids_put there]
    · rw [Function.update_of_ne here]
  -- an update leaves the keys alone, so the passes have seen the same keys as before
  refine ⟨sound.kinds, fun k => (same k).trans (sound.keys k), ?_, ?_, ?_⟩
  · intro r member
    obtain ⟨u, before, base⟩ := sound.read r member
    exact ⟨u, List.mem_cons_of_mem _ before, base⟩
  · have known := sound.forward.mono (List.Subset.refl _) fun _ met => met.later
      (Function.update x.tables side ((x.tables side).put record))
    rwa [Pass.Told, ← ids_surveyed_congr full same] at known
  · have known := sound.backward
    rwa [Pass.Told, ← ids_surveyed_congr full same] at known

theorem Sound.advance {m : Move} (full : s.mode = .full) (sound : x.Sound s t)
    (step : x.advance s m = some y) : y.Sound s t := by
  cases m with
  | compare m =>
    obtain ⟨smooth, step⟩ := Option.ite_none_right_eq_some.1 step
    obtain ⟨c, moved, rfl⟩ := Option.map_eq_some_iff.1 step
    exact sound.compare smooth moved
  | update side record =>
    obtain ⟨there, step⟩ := Option.ite_none_right_eq_some.1 step
    cases step
    exact sound.update full there

theorem Sound.follow (full : s.mode = .full) (sound : x.Sound s t) (run : x.follow s moves = some y) :
    y.Sound s t := by
  exact follows.invariant (fun _ _ _ _ sound step => sound.advance full step) sound run

/-- When the comparison is through, a key that it has not reported was in line when it was looked up. -/
theorem Sound.met (full : s.mode = .full) (sound : x.Sound s t)
    (through : ∀ kind, (x.course.session.pass kind).phase = .finished)
    (silent : id ∉ x.course.published.map (·.id)) :
    Met s x.history id ∨ (x.tables s.base).get? id = none ∧ (x.tables s.target).get? id = none := by
  have forwardEnded : x.course.session.forward.phase = .finished := through .baseToTarget
  have backwardEnded : x.course.session.backward.phase = .finished := through .targetToBase
  have forwardKind : x.course.session.forward.kind = .baseToTarget := sound.kinds .baseToTarget
  have backwardKind : x.course.session.backward.kind = .targetToBase := sound.kinds .targetToBase
  have forward := sound.forward id
  have backward := sound.backward id
  rw [Pass.surveyed_of_finished forwardEnded, Pass.held_of_finished forwardEnded, forwardKind,
    List.append_nil] at forward
  rw [Pass.surveyed_of_finished backwardEnded, Pass.held_of_finished backwardEnded, backwardKind,
    List.append_nil] at backward
  simp only [Settings.extent, full, silent, false_or, Table.mem_ids_iff, ← sound.keys] at forward backward
  by_cases here : (x.tables s.base).get? id = none
  · exact .inr ⟨here, not_not.1 fun there => backward there here⟩
  · exact .inl (forward here)

/-- A comparison of everything that succeeds while records are updated in place has reported each key
on which the stores differed all the while, but for those of which the target came to have a row that
the base had had before. -/
theorem standing_reported_or_trailing (full : s.mode = .full) (run : (start t).follow s moves = some x)
    (ended : x.course.outcome s = some (.ok ())) (id : Int64)
    (standing : ∀ v ∈ x.history, (v s.base).get? id ≠ (v s.target).get? id) :
    id ∈ x.course.published.map (·.id) ∨ ∃ r u v, [v, u].Sublist x.history ∧
      (u s.base).get? id = some r ∧ (v s.target).get? id = some r := by
  have sound := (sound_start s t).follow full run
  refine or_iff_not_imp_left.2 fun silent => ?_
  rcases sound.met full (Course.finished_of_ok ended) silent with ⟨r, u, v, order, base, target⟩ | absent
  · rcases order with ⟨rfl, now⟩ | order
    · exact absurd (base.trans target.symm) (standing _ now)
    · exact ⟨r, u, v, order, base, target⟩
  · exact absurd (absent.1.trans absent.2.symm) (standing x.tables List.mem_cons_self)

end

/-- The record, with a number of readers, and when it was updated. -/
def read (count utime : Int64) : Interactive := ⟨1, 10, "article", count, 0, 0, utime, 20⟩

/-- The target is behind. -/
def outdated : Tables
  | .src => ⟨[read 5 90], by decide⟩
  | .dst => ⟨[read 4 80], by decide⟩

def everything : Settings := .whole .src { Tuning.standard with batchSize := 2 }

/-- Both rows are updated after the base was read, and the target is looked up then. -/
def overtaken (source target : Interactive) (news : List Move) : List Move :=
  [.compare (.baseToTarget, .answered), .update .src source, .update .dst target,
    .compare (.baseToTarget, .answered)] ++ news ++ [.compare (.baseToTarget, .answered),
    .compare (.targetToBase, .answered), .compare (.targetToBase, .answered),
    .compare (.targetToBase, .answered)]

/-- The target goes its own way. -/
def diverging : List Move :=
  overtaken (read 6 95) (read 7 97) [.compare (.baseToTarget, .published ⟨1, .src, .neq⟩ true)]

theorem standing_reported_or_trailing_diverging :
    ∃ x, (start outdated).follow everything diverging = some x ∧
      x.course.outcome everything = some (.ok ()) ∧ 1 ∈ x.course.published.map (·.id) := by
  have reached : ((start outdated).follow everything diverging).map (fun x =>
      (x.course.outcome everything, decide (∀ u ∈ x.history, ∀ v ∈ x.history,
        (u .src).get? 1 ≠ (v .dst).get? 1))) = some (some (.ok ()), true) := rfl
  obtain ⟨x, run, known⟩ := Option.map_eq_some_iff.1 reached
  simp only [Prod.mk.injEq, decide_eq_true_eq] at known
  obtain ⟨ended, apart⟩ := known
  refine ⟨x, run, ended, ?_⟩
  rcases standing_reported_or_trailing rfl run ended 1 (fun v there => apart v there v there) with
    told | ⟨r, u, v, order, base, target⟩
  · exact told
  · have there := order.subset
    exact absurd (base.trans target.symm) (apart u (there (by simp)) v (there (by simp)))

/-- The target is given what the base had when it was read, and has no longer. -/
def trailing : List Move := overtaken (read 6 95) (read 5 90) []

/-- A difference that stands all the while may go unreported. -/
theorem standing_unreported :
    ∃ x, (start outdated).follow everything trailing = some x ∧
      x.course.outcome everything = some (.ok ()) ∧
      (∀ v ∈ x.history, (v .src).get? 1 ≠ (v .dst).get? 1) ∧ x.course.published = [] := by
  have reached : ((start outdated).follow everything trailing).map (fun x =>
      (x.course.outcome everything, decide (∀ v ∈ x.history, (v .src).get? 1 ≠ (v .dst).get? 1),
        x.course.published)) = some (some (.ok ()), true, []) := rfl
  obtain ⟨x, run, known⟩ := Option.map_eq_some_iff.1 reached
  simp only [Prod.mk.injEq, decide_eq_true_eq] at known
  obtain ⟨ended, apart, published⟩ := known
  exact ⟨x, run, ended, apart, published⟩

end Unrest
end Validation
end Cutover
