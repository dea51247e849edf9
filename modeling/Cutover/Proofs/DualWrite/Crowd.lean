import Mathlib.Data.List.Nodup
import Mathlib.Data.List.Perm.Basic
import Cutover.Proofs.DualWrite.Interpreter
import Cutover.Proofs.Run

/-! Writes that are under way at the same time. Each of them goes to the primary and then to the
secondary, but nothing holds the others back in between, so that the secondary may take them in another
order than the primary. Only writes that were under way together change places; where it does not matter
which of these comes first, the two databases end alike. -/
namespace Cutover

section Order

variable {α σ : Type} {a b : α} {l k : List α} {f : σ → α → σ}

/-- Of things that are in a list once, what stands ahead of another is in each beginning with that. -/
theorem mem_left_of_sublist (once : (l ++ k).Nodup) (order : [a, b].Sublist (l ++ k)) (there : b ∈ l) :
    a ∈ l := by
  obtain ⟨u, v, both, early, late⟩ := List.sublist_append_iff.1 order
  cases u with
  | nil =>
    obtain rfl : [a, b] = v := both
    exact absurd (late.subset (by simp)) (List.disjoint_of_nodup_append once there)
  | cons c u =>
    obtain rfl : a = c := (List.cons.inj both).1
    exact early.subset List.mem_cons_self

theorem mem_right_of_sublist (once : (l ++ k).Nodup) (order : [a, b].Sublist (l ++ k)) (there : a ∈ k) :
    b ∈ k := by
  have member : b ∈ l ++ k := order.subset (by simp)
  refine (List.mem_append.1 member).resolve_left fun early => ?_
  exact List.disjoint_of_nodup_append once (mem_left_of_sublist once order early) there

theorem not_sublist_swap (once : l.Nodup) (order : [a, b].Sublist l) : ¬[b, a].Sublist l := by
  intro swapped
  obtain ⟨before, after, rfl, first, second⟩ := List.cons_sublist_iff.1 order
  exact List.disjoint_of_nodup_append once (mem_left_of_sublist once swapped first)
    (List.singleton_sublist.1 second)

/-- What changes places with all that stands before it may as well come first. -/
theorem foldl_append_cons (swap : ∀ b ∈ l, ∀ z, f (f z a) b = f (f z b) a) (z : σ) :
    (l ++ a :: k).foldl f z = (a :: (l ++ k)).foldl f z := by
  induction l generalizing z with
  | nil => rfl
  | cons b rest ih =>
    have first := swap b List.mem_cons_self z
    have later := ih (fun c member => swap c (List.mem_cons_of_mem b member)) (f z b)
    simp only [List.cons_append, List.foldl_cons] at later ⊢
    rw [later, first]

/-- It is enough that those change places which stand the other way round. -/
theorem foldl_eq_of_perm (once : l.Nodup) (perm : l.Perm k)
    (swap : ∀ a b, [a, b].Sublist l → [b, a].Sublist k → ∀ z, f (f z a) b = f (f z b) a) (z : σ) :
    l.foldl f z = k.foldl f z := by
  induction l generalizing k z with
  | nil => rw [List.nil_perm.1 perm]
  | cons a rest ih =>
    obtain ⟨new, once⟩ := List.nodup_cons.1 once
    obtain ⟨before, after, rfl⟩ := List.append_of_mem (perm.subset List.mem_cons_self)
    have others : rest.Perm (before ++ after) := (List.perm_cons a).1 (perm.trans List.perm_middle)
    rw [foldl_append_cons, List.foldl_cons, List.foldl_cons]
    · refine ih once others (fun c d forth back => swap c d (forth.cons a) (back.trans ?_)) (f z a)
      exact (List.Sublist.refl before).append (List.sublist_cons_self a after)
    · -- what stands ahead of `a` in the other list comes after it in this one
      intro b member
      refine swap a b ((List.singleton_sublist.2 ?_).cons_cons a) ?_
      · exact others.mem_iff.2 (List.mem_append_left after member)
      · exact (List.singleton_sublist.2 member).append (List.singleton_sublist.2 List.mem_cons_self)

end Order

namespace DualWrite

/-- A write that the router was asked for, and what is left of it. -/
structure Write where
  statement : Sql.Statement
  rest : Dialogue pools (Routed Sql.Effect)

inductive Mark where
  | made (write : Nat)
  | carried (side : Side) (write : Nat) (statement : Sql.Statement)
  | returned (write : Nat)

namespace Mark

def write : Mark → Nat
  | .made i | .carried _ i _ | .returned i => i

@[simp] theorem write_made (i : Nat) : (made i).write = i := rfl

@[simp] theorem write_carried (side : Side) (i : Nat) (s : Sql.Statement) : (carried side i s).write = i := rfl

@[simp] theorem write_returned (i : Nat) : (returned i).write = i := rfl

/-- What a side has carried out. -/
def at? (side : Side) : Mark → Option (Nat × Sql.Statement)
  | .carried there i s => if there = side then some (i, s) else none
  | _ => none

theorem at?_eq_some {side : Side} {m : Mark} {a : Nat × Sql.Statement} :
    m.at? side = some a ↔ m = .carried side a.1 a.2 := by
  cases m with
  | carried there i s => simp [at?, Prod.ext_iff]
  | made | returned => simp [at?]

end Mark

namespace Write

def returned (w : Write) : Bool := w.rest matches .done _

/-- The pool that it waits for carries the statement out. -/
def answered (w : Write) (effect : Sql.Effect) : Option (Side × Sql.Statement × Write) :=
  match w.rest with
  | .ask (side, .exec _ s) next => some (side, s, { w with rest := next (.ok effect) })
  | _ => none

end Write

/-- Writes in the order in which they were made, and all that happened so far. -/
structure Crowd where
  writes : List Write
  log : List Mark

namespace Crowd

inductive Move where
  | make (s : Sql.Statement)
  | answer (i : Nat) (effect : Sql.Effect)

def advance (p : Pattern) (x : Crowd) : Move → Option Crowd
  | .make s => some ⟨x.writes ++ [⟨s, exec p s⟩], x.log ++ [.made x.writes.length]⟩
  | .answer i effect =>
    match x.writes[i]?.bind (·.answered effect) with
    | none => none
    | some (side, s, w) => some ⟨x.writes.set i w,
        x.log ++ .carried side i s :: if w.returned then [.returned i] else []⟩

def follow (p : Pattern) : Crowd → List Move → Option Crowd
  | x, [] => some x
  | x, m :: rest => (x.advance p m).bind fun x => x.follow p rest

theorem follows {p : Pattern} : Follows (advance p) (follow p) := ⟨fun _ => rfl, fun _ _ _ => rfl⟩

def start : Crowd := ⟨[], []⟩

def Returned (x : Crowd) : Prop := ∀ w ∈ x.writes, w.returned = true

/-- The statements that the router was asked for, each with its number. -/
def asked (x : Crowd) : List (Nat × Sql.Statement) := x.writes.mapIdx fun i w => (i, w.statement)

/-- Those that a side has carried out, in its order. -/
def executed (x : Crowd) (side : Side) : List (Nat × Sql.Statement) := x.log.filterMap (Mark.at? side)

/-- One write has returned before the other was made. -/
def Precedes (x : Crowd) (i j : Nat) : Prop := [Mark.returned i, .made j].Sublist x.log

/-- They were under way at the same time. -/
def Together (x : Crowd) (i j : Nat) : Prop := i ≠ j ∧ ¬x.Precedes i j ∧ ¬x.Precedes j i

section

variable {p : Pattern} {x y : Crowd} {w v : Write} {i j : Nat} {side : Side} {s : Sql.Statement}
  {effect : Sql.Effect} {marks : List Mark} {moves : List Move} {a b : Nat × Sql.Statement}

/-- How far a write has come, and what there is of it in the log. -/
inductive Stage (p : Pattern) (i : Nat) : Write → List Mark → Prop
  | made (s : Sql.Statement) : Stage p i ⟨s, exec p s⟩ [.made i]
  | led (s : Sql.Statement) (effect : Sql.Effect) :
    Stage p i ⟨s, DualWrite.follow .exec effect (some (askExec p.secondary none s))⟩
      [.made i, .carried p.primary i s]
  | returned (s : Sql.Statement) (result : Routed Sql.Effect) :
    Stage p i ⟨s, .done result⟩
      [.made i, .carried p.primary i s, .carried p.secondary i s, .returned i]

theorem Stage.answer (dual : p.dual = true) (stage : Stage p i w marks)
    (step : w.answered effect = some (side, s, v)) :
    Stage p i v (marks ++ .carried side i s :: if v.returned then [.returned i] else []) := by
  cases stage with
  | made q =>
    have follower : secondary? p = some p.secondary := if_pos dual
    simp only [Write.answered, exec, follower] at step
    cases step
    exact .led s effect
  | led q first =>
    cases step
    exact .returned s _
  | returned q result => cases step

/-- Every write has come as far as the log says. -/
structure Sound (p : Pattern) (x : Crowd) : Prop where
  stages : ∀ i w, x.writes[i]? = some w → Stage p i w (x.log.filter (·.write == i))
  known : ∀ m ∈ x.log, m.write < x.writes.length

theorem sound_start (p : Pattern) : start.Sound p where
  stages := by simp [start]
  known := by simp [start]

theorem Sound.make (sound : x.Sound p) (s : Sql.Statement) :
    Sound p ⟨x.writes ++ [⟨s, exec p s⟩], x.log ++ [.made x.writes.length]⟩ := by
  constructor
  · intro i w found
    rw [List.filter_append]
    by_cases old : i < x.writes.length
    · have apart : x.writes.length ≠ i := by omega
      rw [List.getElem?_append_left old] at found
      simpa [apart] using sound.stages i w found
    · have bound := (List.getElem?_eq_some_iff.1 found).1
      obtain rfl : i = x.writes.length := by
        simp only [List.length_append, List.length_singleton] at bound
        omega
      have silent : x.log.filter (·.write == x.writes.length) = [] := by
        rw [List.filter_eq_nil_iff]
        intro m member
        have := sound.known m member
        simp only [beq_iff_eq]
        omega
      obtain rfl : _ = w := by simpa using found
      simpa [silent] using Stage.made s
  · intro m member
    rw [List.length_append]
    rcases List.mem_append.1 member with old | new
    · exact Nat.lt_add_right _ (sound.known m old)
    · rw [List.mem_singleton.1 new]
      exact Nat.lt_succ_self _

theorem Sound.answer (dual : p.dual = true) (sound : x.Sound p) (found : x.writes[i]? = some w)
    (step : w.answered effect = some (side, s, v)) :
    Sound p ⟨x.writes.set i v, x.log ++ .carried side i s :: if v.returned then [.returned i] else []⟩ := by
  have bound := (List.getElem?_eq_some_iff.1 found).1
  have own : ∀ m ∈ Mark.carried side i s :: (if v.returned then [Mark.returned i] else []), m.write = i := by
    intro m member
    rcases List.mem_cons.1 member with rfl | member
    · rfl
    · split at member
      · rw [List.mem_singleton.1 member]
        rfl
      · cases member
  constructor
  · intro j u there
    rw [List.filter_append]
    by_cases same : i = j
    · subst same
      rw [List.getElem?_set_self bound] at there
      cases there
      rw [List.filter_eq_self.2 fun m member => beq_iff_eq.2 (own m member)]
      exact (sound.stages i w found).answer dual step
    · -- of the other writes the log has nothing new
      rw [List.getElem?_set_ne same] at there
      have aside : (Mark.carried side i s :: (if v.returned then [Mark.returned i] else [])).filter
          (·.write == j) = [] := by
        rw [List.filter_eq_nil_iff]
        intro m member
        rw [own m member]
        simpa using same
      rw [aside, List.append_nil]
      exact sound.stages j u there
  · intro m member
    rw [List.length_set]
    rcases List.mem_append.1 member with old | new
    · exact sound.known m old
    · rw [own m new]
      exact bound

theorem Sound.advance {m : Move} (dual : p.dual = true) (sound : x.Sound p) (step : x.advance p m = some y) :
    y.Sound p := by
  cases m with
  | make s =>
    cases step
    exact sound.make s
  | answer i effect =>
    simp only [Crowd.advance] at step
    split at step
    · cases step
    next answered =>
      obtain ⟨w, found, answered⟩ := Option.bind_eq_some_iff.1 answered
      cases step
      exact sound.answer dual found answered

theorem Sound.follow (dual : p.dual = true) (sound : x.Sound p) (run : x.follow p moves = some y) :
    y.Sound p := follows.invariant (fun _ _ _ _ sound step => sound.advance dual step) sound run

/-- Of a write that has returned the log tells all that there is to tell, in this order. -/
theorem Sound.filter_log (sound : x.Sound p) (returned : x.Returned) (found : x.writes[i]? = some w) :
    x.log.filter (·.write == i) =
      [.made i, .carried p.primary i w.statement, .carried p.secondary i w.statement, .returned i] := by
  have through := returned w (List.mem_of_getElem? found)
  have stage := sound.stages i w found
  generalize x.log.filter (·.write == i) = marks at stage ⊢
  cases stage with
  | made s => cases through
  | led => cases through
  | returned s result => rfl

theorem nodup_marks (p : Pattern) (i : Nat) (s : Sql.Statement) :
    [Mark.made i, .carried p.primary i s, .carried p.secondary i s, .returned i].Nodup := by
  have apart : p.primary ≠ p.secondary := (Side.other_ne _).symm
  simp [apart]

theorem Sound.exists_write {m : Mark} (sound : x.Sound p) (there : m ∈ x.log) :
    ∃ w, x.writes[m.write]? = some w := ⟨_, List.getElem?_eq_getElem (sound.known m there)⟩

theorem Sound.nodup_log (sound : x.Sound p) (returned : x.Returned) : x.log.Nodup := by
  rw [List.nodup_iff_sublist]
  intro m twice
  obtain ⟨w, found⟩ := sound.exists_write (twice.subset List.mem_cons_self)
  have both := twice.filter (·.write == m.write)
  rw [sound.filter_log returned found] at both
  exact List.nodup_iff_sublist.1 (nodup_marks p m.write w.statement) m (by simpa using both)

theorem Sound.mem_log {m : Mark} (sound : x.Sound p) (returned : x.Returned)
    (found : x.writes[i]? = some w) : m ∈ x.log ∧ m.write = i ↔
      m ∈ [Mark.made i, .carried p.primary i w.statement, .carried p.secondary i w.statement, .returned i] := by
  rw [← sound.filter_log returned found, List.mem_filter, beq_iff_eq]

theorem mem_executed : a ∈ x.executed side ↔ .carried side a.1 a.2 ∈ x.log := by
  simp [executed, Mark.at?_eq_some]

theorem mem_asked : a ∈ x.asked ↔ ∃ w, x.writes[a.1]? = some w ∧ w.statement = a.2 := by
  obtain ⟨i, s⟩ := a
  simp only [asked, List.mem_mapIdx, Prod.mk.injEq, List.getElem?_eq_some_iff]
  constructor
  · rintro ⟨_, bound, rfl, rfl⟩
    exact ⟨_, ⟨bound, rfl⟩, rfl⟩
  · rintro ⟨_, ⟨bound, rfl⟩, rfl⟩
    exact ⟨i, bound, rfl, rfl⟩

theorem primary_or_secondary (p : Pattern) (side : Side) : side = p.primary ∨ side = p.secondary := by
  cases p <;> cases side <;> decide

/-- Both sides carry out what was asked for. -/
theorem Sound.mem_executed_iff (sound : x.Sound p) (returned : x.Returned) (side : Side) :
    a ∈ x.executed side ↔ a ∈ x.asked := by
  obtain ⟨i, s⟩ := a
  rw [mem_executed, mem_asked]
  constructor
  · intro there
    obtain ⟨w, found⟩ := sound.exists_write there
    refine ⟨w, found, ?_⟩
    have own := (sound.mem_log returned found).1 ⟨there, rfl⟩
    simp only [List.mem_cons, reduceCtorEq, Mark.carried.injEq, List.not_mem_nil, false_or, or_false] at own
    rcases own with ⟨-, -, same⟩ | ⟨-, -, same⟩ <;> exact same.symm
  · rintro ⟨w, found, rfl⟩
    refine ((sound.mem_log returned found).2 ?_).1
    rcases primary_or_secondary p side with rfl | rfl <;> simp

theorem Sound.nodup_executed (sound : x.Sound p) (returned : x.Returned) (side : Side) :
    (x.executed side).Nodup := by
  refine (sound.nodup_log returned).filterMap fun m n a here there => ?_
  exact (Mark.at?_eq_some.1 here).trans (Mark.at?_eq_some.1 there).symm

theorem nodup_asked (x : Crowd) : x.asked.Nodup := by
  rw [asked, List.Nodup, List.pairwise_iff_getElem]
  intro i j _ _ less same
  simp only [List.getElem_mapIdx, Prod.mk.injEq] at same
  omega

theorem Sound.perm_asked (sound : x.Sound p) (returned : x.Returned) (side : Side) :
    (x.executed side).Perm x.asked :=
  (List.perm_ext_iff_of_nodup (sound.nodup_executed returned side) x.nodup_asked).2 fun _ =>
    sound.mem_executed_iff returned side

/-- A side carries a write out between its beginning and its end. -/
theorem Sound.lifetime (sound : x.Sound p) (returned : x.Returned) (found : x.writes[i]? = some w)
    (side : Side) : [Mark.made i, .carried side i w.statement, .returned i].Sublist x.log := by
  refine List.Sublist.trans ?_ (List.filter_sublist (p := (·.write == i)))
  rw [sound.filter_log returned found]
  rcases primary_or_secondary p side with rfl | rfl
  · exact .cons_cons _ (.cons_cons _ (.cons _ (.refl _)))
  · exact .cons_cons _ (.cons _ (.refl _))

/-- A write that had returned before another was made is ahead of it everywhere. -/
theorem Sound.sublist_executed (sound : x.Sound p) (returned : x.Returned) (side : Side)
    (first : a ∈ x.asked) (second : b ∈ x.asked) (order : x.Precedes a.1 b.1) :
    [a, b].Sublist (x.executed side) := by
  obtain ⟨w, found, same⟩ := mem_asked.1 first
  obtain ⟨v, there, same'⟩ := mem_asked.1 second
  obtain ⟨before, after, log, ended, begun⟩ := List.cons_sublist_iff.1 order
  -- the one ends in the first part of the log, and the other begins in the second
  have once := sound.nodup_log returned
  have one := (List.sublist_cons_self _ _).trans (sound.lifetime returned found side)
  have other := ((List.nil_sublist [Mark.returned b.1]).cons_cons _ |>.cons_cons _).trans
    (sound.lifetime returned there side)
  rw [log] at once one other
  have early := mem_left_of_sublist once one ended
  have late := mem_right_of_sublist once other (List.singleton_sublist.1 begun)
  have both := ((List.singleton_sublist.2 early).append (List.singleton_sublist.2 late)).filterMap
    (Mark.at? side)
  rw [executed, log]
  simpa [Mark.at?, same, same'] using both

/-- Whom the two sides put in another order were under way together. -/
theorem Sound.together (sound : x.Sound p) (returned : x.Returned)
    (forth : [a, b].Sublist (x.executed p.primary)) (back : [b, a].Sublist (x.executed p.secondary)) :
    x.Together a.1 b.1 := by
  have first := (sound.mem_executed_iff returned _).1 (forth.subset List.mem_cons_self)
  have second := (sound.mem_executed_iff returned _).1 (back.subset List.mem_cons_self)
  refine ⟨fun same => ?_, fun order => ?_, fun order => ?_⟩
  · obtain rfl : a = b := by
      obtain ⟨w, found, statement⟩ := mem_asked.1 first
      obtain ⟨v, there, statement'⟩ := mem_asked.1 second
      rw [same, there] at found
      cases found
      exact Prod.ext same (statement.symm.trans statement')
    exact List.nodup_iff_sublist.1 (sound.nodup_executed returned p.primary) a forth
  · exact not_sublist_swap (sound.nodup_executed returned p.secondary)
      (sound.sublist_executed returned _ first second order) back
  · exact not_sublist_swap (sound.nodup_executed returned p.primary)
      (sound.sublist_executed returned _ second first order) forth

/-- Once all writes have returned, each side has carried out every one of them once. Both have them in one
order, but for those that were under way together. Where such writes commute, databases that go by the
statements alone end alike if they began so. -/
theorem mirrored_up_to_overlap (dual : p.dual = true) (run : start.follow p moves = some x)
    (returned : x.Returned) :
    (∀ side, (x.executed side).Perm x.asked) ∧
      (∀ a b, [a, b].Sublist (x.executed p.primary) → [b, a].Sublist (x.executed p.secondary) →
        x.Together a.1 b.1) ∧
      ∀ {σ : Type} (carry : σ → Sql.Statement → σ) (z : σ),
        (∀ a ∈ x.asked, ∀ b ∈ x.asked, x.Together a.1 b.1 →
          ∀ z, carry (carry z a.2) b.2 = carry (carry z b.2) a.2) →
        (x.executed p.primary).foldl (fun z a => carry z a.2) z =
          (x.executed p.secondary).foldl (fun z a => carry z a.2) z := by
  have sound := (sound_start p).follow dual run
  have together := fun a b => sound.together (a := a) (b := b) returned
  refine ⟨sound.perm_asked returned, together, fun carry z commute => ?_⟩
  have perm := (sound.perm_asked returned p.primary).trans (sound.perm_asked returned p.secondary).symm
  refine foldl_eq_of_perm (sound.nodup_executed returned _) perm (fun a b forth back => ?_) z
  have first := (sound.mem_executed_iff returned _).1 (forth.subset List.mem_cons_self)
  have second := (sound.mem_executed_iff returned _).1 (back.subset List.mem_cons_self)
  exact commute a first b second (together a b forth back)

end

/-- The second write overtakes the first on its way to the secondary. -/
def crossing (first second : Sql.Statement) : List Move :=
  [.make first, .make second, .answer 0 ⟨1, none⟩, .answer 1 ⟨1, none⟩, .answer 1 ⟨1, none⟩,
    .answer 0 ⟨1, none⟩]

theorem run_crossing (first second : Sql.Statement) :
    ∃ x, start.follow .srcFirst (crossing first second) = some x ∧ x.Returned ∧
      x.executed .src = [(0, first), (1, second)] ∧ x.executed .dst = [(1, second), (0, first)] := by
  have reached : (start.follow .srcFirst (crossing first second)).map
      (fun x => (x.writes.all (·.returned), x.executed .src, x.executed .dst)) =
      some (true, [(0, first), (1, second)], [(1, second), (0, first)]) := rfl
  obtain ⟨x, run, known⟩ := Option.map_eq_some_iff.1 reached
  simp only [Prod.mk.injEq, List.all_eq_true] at known
  exact ⟨x, run, known.1, known.2⟩

def liked : Sql.Statement := ⟨"UPDATE interactives SET like_cnt = like_cnt + 1 WHERE id = ?", [.int 1]⟩

def collected : Sql.Statement := ⟨"UPDATE interactives SET collect_cnt = collect_cnt + 1 WHERE id = ?", [.int 1]⟩

/-- The two counters of a record. -/
def counted (z : Nat × Nat) (s : Sql.Statement) : Nat × Nat :=
  if s.text = liked.text then (z.1 + 1, z.2) else (z.1, z.2 + 1)

theorem mirrored_up_to_overlap_counted :
    ∃ x, start.follow .srcFirst (crossing liked collected) = some x ∧
      x.executed .src ≠ x.executed .dst ∧
      (x.executed .src).foldl (fun z a => counted z a.2) (0, 0) =
        (x.executed .dst).foldl (fun z a => counted z a.2) (0, 0) := by
  obtain ⟨x, run, returned, src, dst⟩ := run_crossing liked collected
  refine ⟨x, run, by simp [src, dst], ?_⟩
  refine (mirrored_up_to_overlap rfl run returned).2.2 counted (0, 0) ?_
  rintro a - b - - z
  simp only [counted]
  split <;> split <;> rfl

def assigned (count : Int64) : Sql.Statement :=
  ⟨"UPDATE interactives SET like_cnt = ? WHERE id = 1", [.int count]⟩

/-- No call fails and all have returned, but the databases have carried the statements out in different
orders, and do not keep the same. -/
theorem executed_apart :
    ∃ x, start.follow .srcFirst (crossing (assigned 1) (assigned 2)) = some x ∧ x.Returned ∧
      (x.executed .src).map (·.2) ≠ (x.executed .dst).map (·.2) ∧
      (x.executed .src).foldl (fun _ a => a.2.args) [] ≠
        (x.executed .dst).foldl (fun _ a => a.2.args) [] := by
  obtain ⟨x, run, returned, src, dst⟩ := run_crossing (assigned 1) (assigned 2)
  exact ⟨x, run, returned, by simp [src, dst, assigned], by simp [src, dst, assigned]⟩

end Crowd
end DualWrite
end Cutover
