import Cutover.Proofs.Repair.Handling

/-! Repairs of one record that overlap, while the record changes in the base. A repair reads the base once
and writes some time later, without a second look. So the target ends up with what the repair has read that
writes last, and that may be older than what another repair has written before. -/
namespace Cutover.Repair

/-- What concerns the record. -/
inductive Mark where
  /-- A handler was told what the base has. -/
  | read (i : Nat) (found : Option Interactive)
  /-- What a handler writes was done at the target. -/
  | wrote (i : Nat)
  /-- The record is another in the base. -/
  | changed
  deriving DecidableEq

def Mark.writer? : Mark → Option Nat
  | .wrote i => some i
  | _ => none

/-- The handlers at work, and what there was to note of the record, the latest first. -/
structure Overlap where
  bench : Bench
  log : List Mark

/-- Whether a repair is one of the record `id`, with the truth in `base`. -/
def Concerns (base : Side) (id : Int64) (e : Event) : Prop := e.direction = base ∧ e.id = id

instance (base : Side) (id : Int64) (e : Event) : Decidable (Concerns base id e) :=
  inferInstanceAs (Decidable (_ ∧ _))

namespace Overlap

/-- The handler that wrote last. -/
def lastWriter (log : List Mark) : Option Nat := log.findSome? Mark.writer?

/-- The handler has read the base after its last change. -/
def Fresh (log : List Mark) (i : Nat) : Prop := ∃ found, .read i found ∈ log.takeWhile (· ≠ .changed)

/-- What a turn means to the record, if its handler repairs it. -/
def marks (base : Side) (id : Int64) (b : Bench) : Turn → List Mark
  | .begin _ => []
  | .answered i =>
    match b.handlings[i]? with
    | some ⟨e, .ask q _⟩ =>
      if Concerns base id e then [if q.2.reads then .read i ((b.tables base).get? id) else .wrote i] else []
    | _ => []
  | .failed i _ performed =>
    match b.handlings[i]? with
    | some ⟨e, .ask q _⟩ => if Concerns base id e ∧ performed ∧ ¬q.2.reads then [.wrote i] else []
    | _ => []

/-- Notes that the record has changed, if it has. -/
def noting (before after : Option Interactive) (log : List Mark) : List Mark :=
  if after = before then log else .changed :: log

inductive Move where
  | repair (turn : Turn)
  /-- Someone else changes a store, though not the record in the target. -/
  | edit (side : Side) (table : Table)

def advance (r : Repairer) (base : Side) (id : Int64) (x : Overlap) : Move → Option Overlap
  | .repair turn => (x.bench.advance r turn).map fun bench =>
    ⟨bench, noting ((x.bench.tables base).get? id) ((bench.tables base).get? id)
      (marks base id x.bench turn ++ x.log)⟩
  | .edit side table =>
    if side = base.other ∧ table.get? id ≠ (x.bench.tables side).get? id then none
    else
      let tables := Function.update x.bench.tables side table
      some ⟨{ x.bench with tables }, noting ((x.bench.tables base).get? id) ((tables base).get? id) x.log⟩

def follow (r : Repairer) (base : Side) (id : Int64) : Overlap → List Move → Option Overlap
  | x, [] => some x
  | x, m :: rest => (x.advance r base id m).bind fun x => x.follow r base id rest

theorem follows {r : Repairer} {base : Side} {id : Int64} :
    Follows (advance r base id) (follow r base id) := ⟨fun _ => rfl, fun _ _ _ => rfl⟩

def start (t : Tables) : Overlap := ⟨⟨t, []⟩, []⟩

end Overlap

/-- How far a repair can be. -/
inductive Form (base : Side) (id : Int64) : Asking Done → Prop
  | reading : Form base id (fix base Interactive.columns id)
  | writing {found : Option Interactive} (own : ∀ record ∈ found, record.id = id) :
    Form base id (settle base.other id found)
  | done (outcome : Outcome) : Form base id (.done outcome)

section Question

variable {base : Side} {id : Int64} {found : Option Interactive} {q : stores.Ask}
  {next : stores.Reply q → Asking Done}

theorem Form.answered (form : Form base id (.ask q next)) (t : Tables) :
    Form base id (next (Tables.answer q t).1) := by
  generalize asks : Dialogue.ask q next = rest at form
  cases form with
  | reading =>
    rw [(reads_fix asks.symm t).2.2]
    exact .writing fun record here => Table.id_of_get? here
  | writing own =>
    obtain ⟨d, done⟩ := (writes_settle own asks.symm t).2.2
    rw [done]
    exact .done _
  | done => cases asks

theorem Form.failed (form : Form base id (.ask q next)) (cause : StoreError) :
    ∃ e, next (.error cause) = .done (.error e) := by
  generalize asks : Dialogue.ask q next = rest at form
  cases form with
  | reading =>
    cases asks
    exact ⟨_, rfl⟩
  | @writing found own =>
    cases found <;> cases asks <;> exact ⟨_, rfl⟩
  | done => cases asks

/-- A repair of another record, or one with its truth in the target, leaves the record of the target. -/
theorem Form.spares {e : Event} (form : Form e.direction e.id (.ask q next))
    (other : ¬Concerns base id e) (t : Tables) :
    ((Tables.answer q t).2 base.other).get? id = (t base.other).get? id := by
  generalize asks : Dialogue.ask q next = rest at form
  cases form with
  | reading => rw [(reads_fix asks.symm t).2.1]
  | writing own =>
    obtain ⟨same, written⟩ := (writes_settle own asks.symm t).2.1
    by_cases direction : e.direction = base
    · rw [← direction, written, if_neg fun same => other ⟨direction, same⟩]
    · have turned : e.direction = base.other := by
        cases base <;> cases d : e.direction <;> simp_all [Side.other]
      rw [← turned, same]
  | done => cases asks

end Question

namespace Overlap

section Log

variable {log : List Mark} {before target base found : Option Interactive} {i : Nat}

/-- The target has what it had, or what the last to write had read. -/
def Last (log : List Mark) (before target : Option Interactive) : Prop :=
  match lastWriter log with
  | none => target = before
  | some i => .read i target ∈ log

theorem Last.cons {m : Mark} (last : Last log before target) (silent : m.writer?.isNone) :
    Last (m :: log) before target := by
  rw [Last, lastWriter, List.findSome?_cons_of_isNone silent, ← lastWriter]
  rw [Last] at last
  split at last
  · exact last
  · exact List.mem_cons_of_mem _ last

/-- What the log tells: `before` is what the target had of the record to begin with. -/
structure Told (log : List Mark) (before target base : Option Interactive) : Prop where
  once : ∀ i v w, .read i v ∈ log → .read i w ∈ log → v = w
  last : Last log before target
  recent : ∀ i v, .read i v ∈ log.takeWhile (· ≠ .changed) → v = base

theorem Told.read (told : Told log before target base) (unread : ∀ v, .read i v ∉ log) :
    Told (.read i base :: log) before target base where
  once j v w first second := by
    simp only [List.mem_cons, Mark.read.injEq] at first second
    obtain ⟨rfl, rfl⟩ | first := first <;> obtain ⟨new, rfl⟩ | second := second
    · rfl
    · exact absurd second (unread w)
    · exact absurd (new ▸ first) (unread v)
    · exact told.once j v w first second
  last := told.last.cons rfl
  recent j v read := by
    rw [List.takeWhile_cons_of_pos (by simp), List.mem_cons, Mark.read.injEq] at read
    obtain ⟨-, rfl⟩ | read := read
    · rfl
    · exact told.recent j v read

theorem Told.wrote (told : Told log before target base) (read : .read i found ∈ log) :
    Told (.wrote i :: log) before found base where
  once j v w first second := by
    simp only [List.mem_cons, reduceCtorEq, false_or] at first second
    exact told.once j v w first second
  last := List.mem_cons_of_mem _ read
  recent j v read := by
    rw [List.takeWhile_cons_of_pos (by simp), List.mem_cons] at read
    exact told.recent j v (read.resolve_left nofun)

theorem Told.noting (told : Told log before target base) (later : Option Interactive) :
    Told (noting base later log) before target later := by
  rw [Overlap.noting]
  split
  next same => exact same ▸ told
  next =>
    refine ⟨fun j v w first second => ?_, told.last.cons rfl, by simp⟩
    simp only [List.mem_cons, reduceCtorEq, false_or] at first second
    exact told.once j v w first second

/-- A log that has grown by what one handler has done at most. -/
structure Grown (i : Nat) (log longer : List Mark) : Prop where
  kept : ∀ m ∈ log, m ∈ longer
  reads : ∀ j v, j ≠ i → .read j v ∈ longer → .read j v ∈ log

end Log

/-- How far a repair of the record is, by the log. -/
inductive Stand (base : Side) (id : Int64) (log : List Mark) (i : Nat) : Asking Done → Prop
  | reading (unread : ∀ v, .read i v ∉ log) : Stand base id log i (fix base Interactive.columns id)
  | writing {found : Option Interactive} (own : ∀ record ∈ found, record.id = id)
    (read : .read i found ∈ log) : Stand base id log i (settle base.other id found)
  | failed (e : RepairError) : Stand base id log i (.done (.error e))
  | repaired (d : Done) (wrote : .wrote i ∈ log) : Stand base id log i (.done (.ok d))

theorem Stand.grown {base : Side} {id : Int64} {log longer : List Mark} {i j : Nat} {rest : Asking Done}
    (stand : Stand base id log j rest) (grown : Grown i log longer) (other : j ≠ i) :
    Stand base id longer j rest := by
  cases stand with
  | reading unread => exact .reading fun v read => unread v (grown.reads j v other read)
  | writing own read => exact .writing own (grown.kept _ read)
  | failed e => exact .failed e
  | repaired d wrote => exact .repaired d (grown.kept _ wrote)

/-- What holds of the handlers at work and of the log, when the stores were `t` to begin with. -/
structure Sound (base : Side) (id : Int64) (t : Tables) (x : Overlap) : Prop where
  told : Told x.log ((t base.other).get? id) ((x.bench.tables base.other).get? id)
    ((x.bench.tables base).get? id)
  forms : ∀ h ∈ x.bench.handlings, Form h.event.direction h.event.id h.rest
  stands : ∀ i h, x.bench.handlings[i]? = some h → Concerns base id h.event →
    Stand base id x.log i h.rest
  known : ∀ i v, .read i v ∈ x.log → ∃ h, x.bench.handlings[i]? = some h ∧ Concerns base id h.event

section Step

variable {base : Side} {id : Int64} {t u : Tables} {x y : Overlap} {r : Repairer} {log : List Mark}

/-- One handler goes on. -/
theorem Sound.set {i : Nat} {e : Event} {rest later : Asking Done} (sound : x.Sound base id t)
    (found : x.bench.handlings[i]? = some ⟨e, rest⟩)
    (told : Told log ((t base.other).get? id) ((u base.other).get? id) ((u base).get? id))
    (form : Form e.direction e.id later) (stand : Concerns base id e → Stand base id log i later)
    (grown : Grown i x.log log) (own : ∀ v, .read i v ∈ log → Concerns base id e) :
    Sound base id t ⟨⟨u, x.bench.handlings.set i ⟨e, later⟩⟩, log⟩ where
  told := told
  forms h member := by
    obtain other | rfl := List.mem_or_eq_of_mem_set member
    · exact sound.forms h other
    · exact form
  stands j h there concerned := by
    by_cases same : j = i
    · subst same
      rw [List.getElem?_set_self (List.getElem?_eq_some_iff.1 found).1] at there
      cases there
      exact stand concerned
    · rw [List.getElem?_set_ne (Ne.symm same)] at there
      exact (sound.stands j h there concerned).grown grown same
  known j v read := by
    by_cases same : j = i
    · subst same
      exact ⟨_, List.getElem?_set_self (List.getElem?_eq_some_iff.1 found).1, own v read⟩
    · rw [List.getElem?_set_ne (Ne.symm same)]
      exact sound.known j v (grown.reads j v same read)

theorem Grown.refl (i : Nat) (log : List Mark) : Grown i log log := ⟨fun _ => id, fun _ _ _ => id⟩

theorem Grown.read (i : Nat) (found : Option Interactive) (log : List Mark) :
    Grown i log (.read i found :: log) where
  kept _ := List.mem_cons_of_mem _
  reads _ _ other read := (List.mem_cons.1 read).resolve_left (by simp [other])

theorem Grown.wrote (i : Nat) (log : List Mark) : Grown i log (.wrote i :: log) where
  kept _ := List.mem_cons_of_mem _
  reads _ _ _ read := (List.mem_cons.1 read).resolve_left nofun

theorem Grown.noting {i : Nat} {log longer : List Mark} (grown : Grown i log longer)
    (before after : Option Interactive) : Grown i log (noting before after longer) := by
  rw [Overlap.noting]
  split
  · exact grown
  · exact ⟨fun m seen => List.mem_cons_of_mem _ (grown.kept m seen),
      fun j v other read => grown.reads j v other ((List.mem_cons.1 read).resolve_left nofun)⟩

theorem noting_self (record : Option Interactive) (log : List Mark) : noting record record log = log :=
  if_pos rfl

theorem mem_noting {i : Nat} {v before after : Option Interactive} {log : List Mark} :
    .read i v ∈ noting before after log ↔ .read i v ∈ log := by
  rw [Overlap.noting]
  split <;> simp

/-- A handler that does not repair the record goes on: the record of the target stays as it is. -/
theorem Sound.aside {i : Nat} {e : Event} {rest later : Asking Done} (sound : x.Sound base id t)
    (found : x.bench.handlings[i]? = some ⟨e, rest⟩) (other : ¬Concerns base id e)
    (spared : (u base.other).get? id = (x.bench.tables base.other).get? id)
    (form : Form e.direction e.id later) :
    Sound base id t ⟨⟨u, x.bench.handlings.set i ⟨e, later⟩⟩,
      noting ((x.bench.tables base).get? id) ((u base).get? id) x.log⟩ := by
  refine sound.set found (spared ▸ sound.told.noting _) form (absurd · other)
    ((Grown.refl i _).noting _ _) fun v read => ?_
  obtain ⟨h, there, concerned⟩ := sound.known i v (mem_noting.1 read)
  cases found.symm.trans there
  exact absurd concerned other

theorem Sound.answered {i : Nat} {e : Event} {q : stores.Ask} {next : stores.Reply q → Asking Done}
    (sound : x.Sound base id t) (found : x.bench.handlings[i]? = some ⟨e, .ask q next⟩)
    (concerned : Concerns base id e) :
    Sound base id t ⟨⟨(Tables.answer q x.bench.tables).2,
        x.bench.handlings.set i ⟨e, next (Tables.answer q x.bench.tables).1⟩⟩,
      noting ((x.bench.tables base).get? id) (((Tables.answer q x.bench.tables).2 base).get? id)
        ((if q.2.reads then .read i ((x.bench.tables base).get? id) else .wrote i) :: x.log)⟩ := by
  have form := (sound.forms _ (List.mem_of_getElem? found)).answered x.bench.tables
  -- How far the handler is by the log decides what it asks: the base for the record, or the target to
  -- take what was read.
  have stand := sound.stands i _ found concerned
  generalize asks : Dialogue.ask q next = rest at stand
  cases stand with
  | reading unread =>
    obtain ⟨reads, same, left⟩ := reads_fix asks.symm x.bench.tables
    rw [left] at form ⊢
    rw [same, noting_self, reads, if_pos rfl]
    refine sound.set found (sound.told.read unread) form (fun _ => ?_) (.read ..) fun _ _ => concerned
    exact .writing (fun record here => Table.id_of_get? here) List.mem_cons_self
  | writing own read =>
    obtain ⟨writes, settled, d, done⟩ := writes_settle own asks.symm x.bench.tables
    rw [done, settled.untouched, noting_self, writes, if_neg Bool.false_ne_true]
    refine sound.set found ?_ (.done _) (fun _ => .repaired d List.mem_cons_self) (.wrote ..)
      fun _ _ => concerned
    rw [settled.here, settled.untouched]
    exact sound.told.wrote read
  | failed | repaired => cases asks

theorem Sound.failed {i : Nat} {e : Event} {q : stores.Ask} {next : stores.Reply q → Asking Done}
    (sound : x.Sound base id t) (found : x.bench.handlings[i]? = some ⟨e, .ask q next⟩)
    (concerned : Concerns base id e) (error : RepairError) (performed : Bool) :
    let u := if performed then (Tables.answer q x.bench.tables).2 else x.bench.tables
    Sound base id t ⟨⟨u, x.bench.handlings.set i ⟨e, .done (.error error)⟩⟩,
      noting ((x.bench.tables base).get? id) ((u base).get? id)
        ((if performed ∧ ¬q.2.reads then [.wrote i] else []) ++ x.log)⟩ := by
  have quiet : Sound base id t
      ⟨⟨x.bench.tables, x.bench.handlings.set i ⟨e, .done (.error error)⟩⟩, x.log⟩ :=
    sound.set found sound.told (.done _) (fun _ => .failed error) (.refl ..) fun _ _ => concerned
  cases performed with
  | false => simpa [noting_self] using quiet
  | true =>
    have stand := sound.stands i _ found concerned
    generalize asks : Dialogue.ask q next = rest at stand
    cases stand with
    | reading unread =>
      obtain ⟨reads, same, -⟩ := reads_fix asks.symm x.bench.tables
      simpa [same, reads, noting_self] using quiet
    | writing own read =>
      obtain ⟨writes, settled, -⟩ := writes_settle own asks.symm x.bench.tables
      simp only [if_true, writes, settled.untouched, noting_self]
      refine sound.set found ?_ (.done _) (fun _ => .failed error) (.wrote ..) fun _ _ => concerned
      rw [settled.here, settled.untouched]
      exact sound.told.wrote read
    | failed | repaired => cases asks

theorem Sound.begin {e : Event} {rest : Asking Done} (sound : x.Sound base id t)
    (fresh : rest = fix e.direction Interactive.columns e.id) :
    Sound base id t ⟨{ x.bench with handlings := x.bench.handlings ++ [⟨e, rest⟩] }, x.log⟩ where
  told := sound.told
  forms h member := by
    obtain old | new := List.mem_append.1 member
    · exact sound.forms h old
    · rw [List.mem_singleton.1 new, fresh]
      exact .reading
  stands i h there concerned := by
    by_cases old : i < x.bench.handlings.length
    · rw [List.getElem?_append_left old] at there
      exact sound.stands i h there concerned
    · rw [List.getElem?_append_right (Nat.le_of_not_lt old), List.getElem?_singleton] at there
      split at there
      · cases there
        obtain ⟨rfl, rfl⟩ := concerned
        rw [fresh]
        -- Whoever has read has a number below that of the new handler.
        refine .reading fun v read => old ?_
        obtain ⟨h, known, -⟩ := sound.known i v read
        exact (List.getElem?_eq_some_iff.1 known).1
      · cases there
  known i v read := by
    obtain ⟨h, known, concerned⟩ := sound.known i v read
    exact ⟨h, List.getElem?_append_left (List.getElem?_eq_some_iff.1 known).1 ▸ known, concerned⟩

theorem Sound.repair {turn : Turn} {b : Bench} (columns : ∀ side, r.columns side = Interactive.columns)
    (sound : x.Sound base id t) (step : x.bench.advance r turn = some b) :
    Sound base id t ⟨b, noting ((x.bench.tables base).get? id) ((b.tables base).get? id)
      (marks base id x.bench turn ++ x.log)⟩ := by
  cases Bench.outcome_of_advance step with
  | begun e =>
    rw [noting_self]
    exact sound.begin (by rw [Repairer.handle, columns])
  | @answered i e q next found =>
    have form := sound.forms _ (List.mem_of_getElem? found)
    by_cases concerned : Concerns base id e
    · simp only [marks, found, if_pos concerned]
      exact sound.answered found concerned
    · simp only [marks, found, if_neg concerned, List.nil_append]
      exact sound.aside found concerned (form.spares concerned _) (form.answered _)
  | @failed i e q next found cause performed =>
    have form := sound.forms _ (List.mem_of_getElem? found)
    obtain ⟨error, ended⟩ := form.failed cause
    rw [ended]
    by_cases concerned : Concerns base id e
    · simp only [marks, found, concerned, true_and]
      exact sound.failed found concerned error performed
    · simp only [marks, found, concerned, false_and, if_false, List.nil_append]
      refine sound.aside found concerned ?_ (.done _)
      split
      · exact form.spares concerned _
      · rfl

theorem Sound.advance {m : Move} (columns : ∀ side, r.columns side = Interactive.columns)
    (sound : x.Sound base id t) (step : x.advance r base id m = some y) : y.Sound base id t := by
  cases m with
  | repair turn =>
    obtain ⟨b, moved, rfl⟩ := Option.map_eq_some_iff.1 step
    exact sound.repair columns moved
  | edit side table =>
    simp only [Overlap.advance] at step
    split at step
    next => cases step
    next spared =>
      cases step
      have kept : (Function.update x.bench.tables side table base.other).get? id =
          (x.bench.tables base.other).get? id := by
        by_cases target : side = base.other
        · subst target
          rw [Function.update_self]
          exact not_not.1 fun changed => spared ⟨rfl, changed⟩
        · rw [Function.update_of_ne (Ne.symm target)]
      exact {
        told := kept ▸ sound.told.noting _
        forms := sound.forms
        stands := fun i h there concerned =>
          (sound.stands i h there concerned).grown ((Grown.refl (i + 1) _).noting _ _) (by omega)
        known := fun i v read => sound.known i v (mem_noting.1 read) }

theorem sound_start (base : Side) (id : Int64) (t : Tables) : (start t).Sound base id t where
  told := ⟨nofun, rfl, nofun⟩
  forms := nofun
  stands := nofun
  known := nofun

theorem Sound.follow {moves : List Move} (columns : ∀ side, r.columns side = Interactive.columns)
    (sound : x.Sound base id t) (run : x.follow r base id moves = some y) : y.Sound base id t :=
  follows.invariant (fun _ _ _ _ sound step => sound.advance columns step) sound run

/-- A handler that has read the base and reports success has written. -/
theorem Sound.has_writer {i : Nat} {found : Option Interactive} (sound : x.Sound base id t)
    (ok : ∀ h ∈ x.bench.handlings, Concerns base id h.event → h.succeeded = true)
    (read : .read i found ∈ x.log) : ∃ j, lastWriter x.log = some j := by
  obtain ⟨h, there, concerned⟩ := sound.known i found read
  have succeeded := ok h (List.mem_of_getElem? there) concerned
  have stand := sound.stands i h there concerned
  rw [Handling.succeeded] at succeeded
  generalize h.rest = rest at stand succeeded
  cases stand with
  | repaired d wrote =>
    exact Option.isSome_iff_exists.1 (List.findSome?_isSome_iff.2 ⟨_, wrote, rfl⟩)
  | reading | failed => cases succeeded
  | @writing found => cases found <;> cases succeeded

end Step

section Run

variable {r : Repairer} {base : Side} {id : Int64} {t t₀ : Tables} {x : Overlap} {moves : List Move}

/-- However repairs of a record overlap, with each other and with changes of the record in the base: the
target has of it what the last of them to write had read. So if all of them report success, and one has
read the base after its last change, the target agrees with the base as long as the last to write has too. -/
theorem last_write_wins (built : (Repairer.build.run Tables.answer t₀).1 = .ok r)
    (run : (start t).follow r base id moves = some x) :
    Last x.log ((t base.other).get? id) ((x.bench.tables base.other).get? id) ∧
    ((∀ h ∈ x.bench.handlings, Concerns base id h.event → h.succeeded = true) →
      (∃ i, Fresh x.log i) → (∀ i, lastWriter x.log = some i → Fresh x.log i) →
      (x.bench.tables base.other).get? id = (x.bench.tables base).get? id) := by
  have sound := (sound_start base id t).follow (Repairer.columns_of_build built) run
  refine ⟨sound.told.last, fun ok ⟨i, found, read⟩ fresh => ?_⟩
  obtain ⟨j, writer⟩ := sound.has_writer ok (List.takeWhile_subset _ read)
  have last := sound.told.last
  rw [Last, writer] at last
  obtain ⟨v, recent⟩ := fresh j writer
  have same := sound.told.once j _ v last (List.takeWhile_subset _ recent)
  exact same.trans (sound.told.recent j v recent)

end Run

/-- One record, with a count that the stores may differ in. -/
def counted (n : Int64) : Table := ⟨[⟨1, 10, "article", n, 0, 0, 90, 20⟩], List.pairwise_singleton ..⟩

def drifted : Tables
  | .src => counted 5
  | .dst => counted 4

/-- The record is reported, and a repair has read it; then it changes, and is reported again. -/
def reportedTwice : List Move :=
  [.repair (.begin ⟨1, .src, .neq⟩), .repair (.answered 0), .edit .src (counted 6),
    .repair (.begin ⟨1, .src, .neq⟩)]

/-- The first repair comes to its end before the second begins to read. -/
def inTurn : List Move :=
  reportedTwice ++ [.repair (.answered 0), .repair (.answered 1), .repair (.answered 1)]

theorem last_write_wins_inTurn :
    ∃ x, (start drifted).follow .mapped .src 1 inTurn = some x ∧
      (x.bench.tables .dst).get? 1 = (x.bench.tables .src).get? 1 := by
  have reached : ((start drifted).follow .mapped .src 1 inTurn).map
      (fun x => (decide (∀ h ∈ x.bench.handlings, h.succeeded = true), x.log)) =
      some (true, [.wrote 1, .read 1 (some ⟨1, 10, "article", 6, 0, 0, 90, 20⟩), .wrote 0, .changed,
        .read 0 (some ⟨1, 10, "article", 5, 0, 0, 90, 20⟩)]) := rfl
  obtain ⟨x, run, known⟩ := Option.map_eq_some_iff.1 reached
  simp only [Prod.mk.injEq, decide_eq_true_eq] at known
  obtain ⟨ok, log⟩ := known
  have fresh : Fresh x.log 1 := by
    rw [log]
    exact ⟨_, List.mem_cons_of_mem _ List.mem_cons_self⟩
  have last : lastWriter x.log = some 1 := by
    rw [log]
    rfl
  refine ⟨x, run, (last_write_wins (Repairer.run_build drifted) run).2 (fun h there _ => ok h there)
    ⟨1, fresh⟩ fun i writer => ?_⟩
  obtain rfl := Option.some.inj (last.symm.trans writer)
  exact fresh

/-- The second repair overtakes the first, which then writes what it had read before the change. -/
def overtaking : List Move :=
  reportedTwice ++ [.repair (.answered 1), .repair (.answered 1), .repair (.answered 0)]

/-- All repairs succeed, one of them has read the base after its last change, and no one else writes to the
target, which nevertheless ends up with what the base had before. -/
theorem stale_write_wins :
    ∃ x, (start drifted).follow .mapped .src 1 overtaking = some x ∧
      (∀ h ∈ x.bench.handlings, h.succeeded = true) ∧ (∃ i, Fresh x.log i) ∧
      (x.bench.tables .dst).get? 1 ≠ (x.bench.tables .src).get? 1 := by
  have reached : ((start drifted).follow .mapped .src 1 overtaking).map
      (fun x => (decide (∀ h ∈ x.bench.handlings, h.succeeded = true), x.log,
        (x.bench.tables .src).get? 1, (x.bench.tables .dst).get? 1)) =
      some (true, [.wrote 0, .wrote 1, .read 1 (some ⟨1, 10, "article", 6, 0, 0, 90, 20⟩), .changed,
        .read 0 (some ⟨1, 10, "article", 5, 0, 0, 90, 20⟩)],
        some ⟨1, 10, "article", 6, 0, 0, 90, 20⟩, some ⟨1, 10, "article", 5, 0, 0, 90, 20⟩) := rfl
  obtain ⟨x, run, known⟩ := Option.map_eq_some_iff.1 reached
  simp only [Prod.mk.injEq, decide_eq_true_eq] at known
  obtain ⟨ok, log, base, target⟩ := known
  refine ⟨x, run, ok, ⟨1, ?_⟩, ?_⟩
  · rw [log]
    exact ⟨_, List.mem_cons_of_mem _ (List.mem_cons_of_mem _ List.mem_cons_self)⟩
  · rw [base, target]
    decide

end Overlap
end Cutover.Repair
