import Mathlib.Data.List.Nodup
import Mathlib.Data.List.Pairwise
import Cutover.Proofs.Control.Orders

/-! The comparisons that a control plane has ever started, and what has become of each. Whatever is done,
those that were superseded stay called off, so that at most one of a kind goes on, and each keeps to the
pattern under which it was started. -/
namespace Cutover.Control

structure Session where
  launch : Launch
  settings : Validation.Settings
  /-- The pattern in force when it was started. -/
  pattern : Pattern
  cancelled : Bool
  ended : Bool

structure Roster where
  plane : Plane
  /-- In the order in which they were started. -/
  sessions : List Session

inductive Doing where
  | switch (c : Circumstances) (pattern : Pattern)
  | startFull (c : Circumstances)
  | startIncremental (c : Circumstances) (utime : Int64) (interval : Duration)
  | stopFull
  | stopIncremental
  | shutDown
  /-- A comparison comes to an end of its own accord. -/
  | ended (id : Nat)
  /-- Someone else than the scheduler sets the pattern that the router has. -/
  | override (pattern : Pattern)

namespace Roster

def start (pattern : Pattern) (tuning : Validation.Tuning) : Roster := ⟨.adopt pattern tuning, []⟩

/-- Carries out what the control plane orders. -/
def obey (x : Roster) : Scheduler.Order → Roster
  | .cancel id => { x with
      sessions := x.sessions.map fun s => if s.launch.id = id then { s with cancelled := true } else s }
  | .launch l settings => { x with
      sessions := x.sessions ++ [⟨l, settings, x.plane.scheduler.pattern, false, false⟩] }

def carry {α : Type} (x : Roster) (m : Move α) : Roster := m.orders.foldl obey { x with plane := m.plane }

def step (x : Roster) : Doing → Roster
  | .switch c pattern => x.carry (x.plane.switch c pattern)
  | .startFull c => x.carry (x.plane.startFull c)
  | .startIncremental c utime interval => x.carry (x.plane.startIncremental c utime interval)
  | .stopFull => x.carry x.plane.stopFull
  | .stopIncremental => x.carry x.plane.stopIncremental
  | .shutDown => x.carry x.plane.shutDown
  | .ended id => { x with
      sessions := x.sessions.map fun s => if s.launch.id = id then { s with ended := true } else s }
  | .override pattern => { x with plane := { x.plane with router := pattern } }

def run (x : Roster) (doings : List Doing) : Roster := doings.foldl step x

/-- The comparison of a kind that the scheduler has a hold on. -/
def current (x : Roster) : SessionKind → Option Launch
  | .full => x.plane.scheduler.full
  | .incremental => x.plane.scheduler.incr

def launches (x : Roster) : List Launch := x.sessions.map (·.launch)

end Roster

/-- A comparison takes the side that was primary when it was started for the truth. -/
structure Session.Faithful (s : Session) : Prop where
  direction : s.launch.direction = s.pattern.primary
  marked : s.settings.direction = s.pattern.primary
  base : s.settings.base = s.pattern.primary
  target : s.settings.target = s.pattern.secondary

/-- What can happen to a comparison after its start. -/
structure Session.Later (s t : Session) : Prop where
  launch : t.launch = s.launch
  settings : t.settings = s.settings
  pattern : t.pattern = s.pattern
  cancelled : s.cancelled = true → t.cancelled = true

namespace Session

/-- It is called off if it is the one. -/
def strike (o : Option Launch) (s : Session) : Session :=
  if o.any (·.id = s.launch.id) then { s with cancelled := true } else s

theorem later_strike (o : Option Launch) (s : Session) : s.Later (s.strike o) := by
  rw [strike]
  split
  · exact ⟨rfl, rfl, rfl, fun _ => rfl⟩
  · exact ⟨rfl, rfl, rfl, id⟩

theorem strike_cancelled {o : Option Launch} {s : Session} (one : o = some s.launch) :
    (s.strike o).cancelled = true := by
  rw [strike, one, if_pos (by simp)]

theorem Later.refl (s : Session) : s.Later s := ⟨rfl, rfl, rfl, id⟩

theorem Later.trans {s t u : Session} (first : s.Later t) (second : t.Later u) : s.Later u where
  launch := second.launch.trans first.launch
  settings := second.settings.trans first.settings
  pattern := second.pattern.trans first.pattern
  cancelled called := second.cancelled (first.cancelled called)

theorem Faithful.later {s t : Session} (faithful : s.Faithful) (later : s.Later t) : t.Faithful := by
  obtain ⟨launch, settings, pattern, _⟩ := later
  obtain ⟨direction, marked, base, target⟩ := faithful
  rw [← launch, ← pattern] at direction
  rw [← settings, ← pattern] at marked base target
  exact ⟨direction, marked, base, target⟩

end Session

namespace Roster

variable {x y : Roster}

/-- What can come of a doing: comparisons are called off or end, or one is started. -/
inductive Change (x y : Roster) : Prop
  | settled (f : Session → Session) (later : ∀ s : Session, s.Later (f s))
    (sessions : y.sessions = x.sessions.map f) (current : ∀ kind, y.current kind = x.current kind)
    (launched : y.plane.scheduler.launched = x.plane.scheduler.launched)
    (closed : y.plane.scheduler.closed = x.plane.scheduler.closed ∨
      y.plane.scheduler.closed = true ∧
        ∀ s : Session, x.current s.launch.kind = some s.launch → (f s).cancelled = true)
  | launching (new : Session) (opened : x.plane.scheduler.closed = false)
    (sessions : y.sessions = x.sessions.map (Session.strike (x.current new.launch.kind)) ++ [new])
    (faithful : new.Faithful) (number : new.launch.id = x.plane.scheduler.launched + 1)
    (taken : y.current new.launch.kind = some new.launch)
    (current : ∀ kind ≠ new.launch.kind, y.current kind = x.current kind)
    (launched : y.plane.scheduler.launched = x.plane.scheduler.launched + 1)
    (closed : y.plane.scheduler.closed = false)

theorem obey_cancelling (x : Roster) (o : Option Launch) :
    (Scheduler.cancelling o).foldl obey x = { x with sessions := x.sessions.map (Session.strike o) } := by
  cases o with
  | none =>
    have same : Session.strike none = id := rfl
    simp [Scheduler.cancelling, same]
  | some l => simp [Scheduler.cancelling, obey, Session.strike, eq_comm]

theorem obey_launching (x : Roster) (o : Option Launch) (l : Launch) (settings : Validation.Settings) :
    (Scheduler.cancelling o ++ [Scheduler.Order.launch l settings]).foldl obey x = { x with
      sessions := x.sessions.map (Session.strike o) ++
        [⟨l, settings, x.plane.scheduler.pattern, false, false⟩] } := by
  rw [List.foldl_append, obey_cancelling]
  rfl

/-- A doing that stops nothing and starts nothing. -/
theorem Change.quiet {x y : Roster} (sessions : y.sessions = x.sessions) (current : y.current = x.current)
    (launched : y.plane.scheduler.launched = x.plane.scheduler.launched)
    (closed : y.plane.scheduler.closed = x.plane.scheduler.closed) : Change x y :=
  .settled id Session.Later.refl (by rw [sessions, List.map_id]) (fun _ => by rw [current]) launched
    (.inl closed)

theorem change_cancelling (x : Roster) (o : Option Launch) :
    Change x ((Scheduler.cancelling o).foldl obey x) := by
  rw [obey_cancelling]
  exact .settled (Session.strike o) (Session.later_strike o) rfl (fun _ => rfl) rfl (.inl rfl)

theorem change_shutDown (x : Roster) : Change x (x.step .shutDown) := by
  simp only [step, carry, Plane.shutDown, Scheduler.shutDown, List.foldl_append, obey_cancelling,
    List.map_map]
  have first (s : Session) := Session.later_strike x.plane.scheduler.full s
  have second (s : Session) := Session.later_strike x.plane.scheduler.incr s
  refine .settled _ (fun s => (first s).trans (second _)) rfl (fun kind => by cases kind <;> rfl) rfl
    (.inr ⟨rfl, fun s held => ?_⟩)
  cases kind : s.launch.kind with
  | full =>
    rw [kind] at held
    exact (second _).cancelled (Session.strike_cancelled held)
  | incremental =>
    rw [kind, ← (first s).launch] at held
    exact Session.strike_cancelled held

theorem change_step (x : Roster) (d : Doing) : Change x (x.step d) := by
  cases d with
  | switch c pattern =>
    simp only [step, carry, Plane.switch, Scheduler.switch]
    cases c.verdict pattern with
    | ok => exact .quiet rfl (funext fun kind => by cases kind <;> rfl) rfl rfl
    | error => exact .quiet rfl rfl rfl rfl
  | startFull c =>
    cases closed : x.plane.scheduler.closed with
    | true =>
      simp only [step, carry, Plane.startFull, Scheduler.startFull, closed]
      exact .quiet rfl rfl rfl rfl
    | false =>
      simp only [step, carry, Plane.startFull, Scheduler.startFull, closed, Bool.false_eq_true, if_false,
        Plane.launched, obey_launching]
      refine .launching ⟨x.plane.scheduler.next .full c.now, x.plane.scheduler.settings x.plane.tuning,
        x.plane.scheduler.pattern, false, false⟩ closed rfl ⟨rfl, rfl, rfl, rfl⟩ rfl rfl ?_ rfl rfl
      intro kind other
      cases kind with
      | full => exact absurd rfl other
      | incremental => rfl
  | startIncremental c utime interval =>
    cases closed : x.plane.scheduler.closed with
    | true =>
      simp only [step, carry, Plane.startIncremental, Scheduler.startIncremental, closed]
      exact .quiet rfl rfl rfl rfl
    | false =>
      simp only [step, carry, Plane.startIncremental, Scheduler.startIncremental, closed, Bool.false_eq_true,
        if_false, Plane.launched, obey_launching]
      refine .launching ⟨x.plane.scheduler.next .incremental c.now, _,
        x.plane.scheduler.pattern, false, false⟩ closed rfl ⟨rfl, rfl, rfl, rfl⟩ rfl rfl ?_ rfl rfl
      intro kind other
      cases kind with
      | full => rfl
      | incremental => exact absurd rfl other
  | stopFull => exact x.change_cancelling x.plane.scheduler.full
  | stopIncremental => exact x.change_cancelling x.plane.scheduler.incr
  | shutDown => exact x.change_shutDown
  | ended id =>
    refine .settled _ (fun s => ?_) rfl (fun _ => rfl) rfl (.inl rfl)
    split
    · exact ⟨rfl, rfl, rfl, fun called => called⟩
    · exact .refl s
  | override pattern => exact .quiet rfl rfl rfl rfl

structure Sound (x : Roster) : Prop where
  numbered : x.launches.map (·.id) = List.range' 1 x.plane.scheduler.launched
  current : ∀ kind, x.current kind = (x.launches.filter (·.kind = kind)).getLast?
  superseded : ∀ s ∈ x.sessions, x.current s.launch.kind ≠ some s.launch → s.cancelled = true
  faithful : ∀ s ∈ x.sessions, s.Faithful
  closed : x.plane.scheduler.closed = true → ∀ s ∈ x.sessions, s.cancelled = true

theorem launches_map {f : Session → Session} (later : ∀ s : Session, s.Later (f s))
    (sessions : List Session) : (sessions.map f).map (·.launch) = sessions.map (·.launch) := by
  rw [List.map_map]
  exact List.map_congr_left fun s _ => (later s).launch

theorem launches_settled {f : Session → Session} (later : ∀ s : Session, s.Later (f s))
    (sessions : y.sessions = x.sessions.map f) : y.launches = x.launches := by
  rw [launches, sessions, launches_map later]
  rfl

theorem Sound.change (sound : x.Sound) (change : Change x y) : y.Sound := by
  cases change with
  | settled f later sessions current launched closed =>
    have launches := launches_settled later sessions
    refine ⟨by rw [launches, launched, sound.numbered],
      fun kind => by rw [current, launches, sound.current], ?_, ?_, ?_⟩
    · rw [sessions, List.forall_mem_map]
      intro s member
      rw [current, (later s).launch]
      exact fun superseded => (later s).cancelled (sound.superseded s member superseded)
    · rw [sessions, List.forall_mem_map]
      exact fun s member => (sound.faithful s member).later (later s)
    · intro shut
      rw [sessions, List.forall_mem_map]
      intro s member
      obtain same | ⟨_, held⟩ := closed
      · exact (later s).cancelled (sound.closed (same ▸ shut) s member)
      · -- A shutdown calls off the current ones alone; all others have been called off already.
        by_cases last : x.current s.launch.kind = some s.launch
        · exact held s last
        · exact (later s).cancelled (sound.superseded s member last)
  | launching new opened sessions faithful number taken current launched closed =>
    have later := Session.later_strike (x.current new.launch.kind)
    have launches : y.launches = x.launches ++ [new.launch] := by
      rw [launches, sessions, List.map_append, launches_map later]
      rfl
    refine ⟨?_, ?_, ?_, ?_, ?_⟩
    · rw [launches, List.map_append, sound.numbered, launched, List.range'_concat]
      simp [number, Nat.add_comm]
    · intro kind
      rw [launches, List.filter_append]
      by_cases same : kind = new.launch.kind
      · subst same
        simp [taken]
      · rw [current kind same, sound.current]
        simp [Ne.symm same]
    · -- Of the kind that is launched, the one that was current until now is struck.
      rw [sessions, List.forall_mem_append, List.forall_mem_map]
      refine ⟨fun s member superseded => ?_, by simp [taken]⟩
      rw [(later s).launch] at superseded
      by_cases same : s.launch.kind = new.launch.kind
      · by_cases last : x.current s.launch.kind = some s.launch
        · exact Session.strike_cancelled (same ▸ last)
        · exact (later s).cancelled (sound.superseded s member last)
      · rw [current _ same] at superseded
        exact (later s).cancelled (sound.superseded s member superseded)
    · rw [sessions, List.forall_mem_append, List.forall_mem_map]
      exact ⟨fun s member => (sound.faithful s member).later (later s), by simpa using faithful⟩
    · intro shut
      cases closed.symm.trans shut

theorem Change.shut (change : Change x y) (shut : x.plane.scheduler.closed = true) :
    y.plane.scheduler.closed = true ∧ y.launches = x.launches ∧
      y.plane.scheduler.launched = x.plane.scheduler.launched := by
  cases change with
  | settled f later sessions current launched closed =>
    exact ⟨closed.elim (·.trans shut) (·.1), launches_settled later sessions, launched⟩
  | launching new opened => cases shut.symm.trans opened

theorem plane_carry {α : Type} (x : Roster) (m : Move α) : (x.carry m).plane = m.plane := by
  have kept (orders : List Scheduler.Order) (z : Roster) : (orders.foldl obey z).plane = z.plane := by
    induction orders generalizing z with
    | nil => rfl
    | cons o rest ih => exact (ih _).trans (by cases o <;> rfl)
  exact kept m.orders _

theorem closed_step (x : Roster) (d : Doing) :
    (x.step d).plane.scheduler.closed = true ↔ x.plane.scheduler.closed = true ∨ d = .shutDown := by
  cases d with
  | switch c pattern =>
    simp only [step, plane_carry, Plane.switch, Scheduler.switch]
    cases c.verdict pattern <;> simp
  | startFull c | startIncremental c utime interval =>
    simp only [step, plane_carry, Plane.startFull, Plane.startIncremental, Scheduler.startFull,
      Scheduler.startIncremental]
    split <;> simp_all [Plane.launched]
  | stopFull | stopIncremental => simp [step, plane_carry, Plane.stopFull, Plane.stopIncremental]
  | shutDown => simp [step, plane_carry, Plane.shutDown, Scheduler.shutDown]
  | ended id | override pattern => simp [step]

theorem agreed_step (agreed : x.plane.Agreed) {d : Doing} (own : ∀ p, d ≠ .override p) :
    (x.step d).plane.Agreed := by
  cases d with
  | switch c pattern =>
    simp only [step, plane_carry, Plane.switch, Scheduler.switch]
    cases c.verdict pattern with
    | ok => exact rfl
    | error => exact agreed
  | startFull c =>
    rw [step, plane_carry]
    exact (Plane.outcome_startFull agreed c).agreed
  | startIncremental c utime interval =>
    rw [step, plane_carry]
    exact (Plane.outcome_startIncremental agreed c utime interval).agreed
  | stopFull | stopIncremental | shutDown =>
    rw [step, plane_carry]
    exact agreed
  | ended id => exact agreed
  | override pattern => exact absurd rfl (own pattern)

/-- What holds of all comparisons that were ever started. -/
structure Orderly (x : Roster) : Prop extends Sound x where
  largest : ∀ kind l, x.current kind = some l →
    ∀ s ∈ x.sessions, s.launch.kind = kind → s.launch.id ≤ l.id
  single : ∀ s ∈ x.sessions, ∀ t ∈ x.sessions, s.launch.kind = t.launch.kind →
    s.cancelled = false → t.cancelled = false → s = t

theorem Sound.ordered (sound : x.Sound) : x.launches.Pairwise fun l k => l.id < k.id := by
  rw [← List.pairwise_map, sound.numbered]
  exact List.pairwise_lt_range'

theorem Sound.orderly (sound : x.Sound) : x.Orderly := by
  refine ⟨sound, ?_, ?_⟩
  · rintro _ l held s member rfl
    rw [sound.current] at held
    obtain ⟨before, split⟩ := List.getLast?_eq_some_iff.1 held
    have ordered := sound.ordered.filter (·.kind = s.launch.kind)
    have its : s.launch ∈ x.launches.filter (·.kind = s.launch.kind) :=
      List.mem_filter.2 ⟨List.mem_map_of_mem member, by simp⟩
    rw [split] at ordered its
    obtain earlier | last := List.mem_append.1 its
    · exact Nat.le_of_lt ((List.pairwise_append.1 ordered).2.2 _ earlier l List.mem_cons_self)
    · exact Nat.le_of_eq (congrArg Launch.id (List.mem_singleton.1 last))
  · intro s its t theirs same goes also
    have held : x.current s.launch.kind = some s.launch := by
      by_contra superseded
      cases goes.symm.trans (sound.superseded s its superseded)
    have held' : x.current t.launch.kind = some t.launch := by
      by_contra superseded
      cases also.symm.trans (sound.superseded t theirs superseded)
    have launch : s.launch = t.launch := Option.some.inj (held.symm.trans (same ▸ held'))
    have distinct : (x.sessions.map fun s => s.launch.id).Nodup := by
      have numbered := sound.numbered
      rw [launches, List.map_map] at numbered
      exact numbered ▸ List.nodup_range'
    exact List.inj_on_of_nodup_map distinct its theirs (congrArg Launch.id launch)

section Run

variable {doings : List Doing}

theorem Sound.run (sound : x.Sound) (doings : List Doing) : (x.run doings).Sound := by
  induction doings generalizing x with
  | nil => exact sound
  | cons d rest ih => exact ih (sound.change (x.change_step d))

theorem agreed_run (agreed : x.plane.Agreed) (own : ∀ p, .override p ∉ doings) :
    (x.run doings).plane.Agreed := by
  induction doings generalizing x with
  | nil => exact agreed
  | cons d rest ih =>
    have first : ∀ p, d ≠ .override p := fun p same => own p (same ▸ List.mem_cons_self)
    exact ih (agreed_step agreed first) fun p later => own p (List.mem_cons_of_mem d later)

theorem closed_run (x : Roster) (doings : List Doing) :
    (x.run doings).plane.scheduler.closed = true ↔
      x.plane.scheduler.closed = true ∨ .shutDown ∈ doings := by
  induction doings generalizing x with
  | nil => simp [run]
  | cons d rest ih =>
    rw [run, List.foldl_cons, ← run, ih, closed_step, List.mem_cons, or_assoc, eq_comm (a := d)]

theorem shut_run (shut : x.plane.scheduler.closed = true) (doings : List Doing) :
    (x.run doings).launches = x.launches ∧
      (x.run doings).plane.scheduler.launched = x.plane.scheduler.launched := by
  induction doings generalizing x with
  | nil => exact ⟨rfl, rfl⟩
  | cons d rest ih =>
    obtain ⟨still, launches, launched⟩ := (x.change_step d).shut shut
    obtain ⟨launches', launched'⟩ := ih still
    exact ⟨launches'.trans launches, launched'.trans launched⟩

end Run

theorem sound_start (pattern : Pattern) (tuning : Validation.Tuning) : (start pattern tuning).Sound where
  numbered := rfl
  current kind := by cases kind <;> rfl
  superseded := List.forall_mem_nil _
  faithful := List.forall_mem_nil _
  closed _ := List.forall_mem_nil _

/-- Whatever is done, in whatever order: the scheduler has the pattern that the router has, unless someone
else has set it; the comparisons are in order; and once the plane was shut down, all of them are called off
and no other is ever started. -/
theorem orderly_run (pattern : Pattern) (tuning : Validation.Tuning) (doings : List Doing) :
    let x := (start pattern tuning).run doings
    x.Orderly ∧ ((∀ p, .override p ∉ doings) → x.plane.Agreed) ∧
      (.shutDown ∈ doings → ∀ more : List Doing,
        let y := x.run more
        (∀ s ∈ y.sessions, s.cancelled = true) ∧ y.launches = x.launches ∧
          y.plane.scheduler.launched = x.plane.scheduler.launched) := by
  have sound := (sound_start pattern tuning).run doings
  refine ⟨sound.orderly, agreed_run rfl, fun shut more => ?_⟩
  have closed := ((start pattern tuning).closed_run doings).2 (.inr shut)
  exact ⟨(sound.run more).closed ((closed_run _ more).2 (.inl closed)), shut_run closed more⟩

end Roster
end Cutover.Control
