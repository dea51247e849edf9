import Cutover.Proofs.Control.History
import Cutover.Proofs.Control.Orders
import Cutover.Proofs.Event.Wire
import Cutover.Proofs.Repair.Target
import Cutover.Proofs.Validation.Detection
import Cutover.Proofs.Validation.Direction

/-! Which store a repair changes. A comparison takes the side for the truth that was primary when it was
started, its events carry that side, and a repair changes the other one. A switch in between does not
reach the events that are on their way, so that a repair may then change the store that has become the
primary; it does so only then. -/
namespace Cutover.Control

open Repair Validation

namespace Operation

variable {k : Carrier} {r : Repairer} {x y : Operation k}

/-- Nothing points at the wrong store: no comparison, no event on its way, no handler and no change made
so far. -/
structure Sound (x : Operation k) : Prop where
  agreed : x.plane.Agreed
  numbered : Numbered x.log x.plane.scheduler.launched
  sittings : ∀ s ∈ x.sittings, s.course.Aimed s.settings ∧
    ∃ p, .launched s.id p ∈ x.log ∧ p.primary = s.settings.direction
  messages : ∀ payload ∈ k.payloads x.bus, ∃ e : Event, payload = e.encode ∧ Traced x.log e
  handlings : ∀ h ∈ x.bench.handlings, Traced x.log h.event ∧ Aims h.event.direction.other h.rest
  grounded : Grounded x.log

theorem sound_start (pattern : Pattern) (tuning : Tuning) (tables : Tables) :
    (start (k := k) pattern tuning tables).Sound where
  agreed := rfl
  numbered := rfl
  sittings := by simp [start]
  messages := by simp [start, k.payloads_empty]
  handlings := by simp [start]
  grounded := by simp [start, Grounded]

/-- What is newly logged takes nothing away from what was traced. -/
theorem Sound.record {news : List Entry} {plane : Plane} (sound : x.Sound) (agreed : plane.Agreed)
    (numbered : Numbered (x.log ++ news) plane.scheduler.launched)
    (backed : Backed x.log news) : Sound { x with plane, log := x.log ++ news } where
  agreed := agreed
  numbered := numbered
  sittings s member := by
    obtain ⟨aimed, p, launched, primary⟩ := sound.sittings s member
    exact ⟨aimed, p, List.mem_append_left _ launched, primary⟩
  messages payload member := by
    obtain ⟨e, same, traced⟩ := sound.messages payload member
    exact ⟨e, same, traced.mono (List.sublist_append_left _ _)⟩
  handlings h member := by
    obtain ⟨traced, aims⟩ := sound.handlings h member
    exact ⟨traced.mono (List.sublist_append_left _ _), aims⟩
  grounded := sound.grounded.append backed

/-- No comparison is new, and none has moved. -/
def Kept (before after : List Sitting) : Prop :=
  ∀ s ∈ after, ∃ old ∈ before, s.id = old.id ∧ s.settings = old.settings ∧ s.course = old.course

/-- Calling comparisons off leaves everything else as it is. -/
theorem obey_callsOff {orders : List Scheduler.Order} (off : CallsOff orders) :
    ∃ sittings, orders.foldl obey x = { x with sittings } ∧ Kept x.sittings sittings := by
  induction orders generalizing x with
  | nil => exact ⟨x.sittings, rfl, fun s member => ⟨s, member, rfl, rfl, rfl⟩⟩
  | cons o rest ih =>
    obtain ⟨id, rfl⟩ := off o List.mem_cons_self
    obtain ⟨sittings, reached, kept⟩ :=
      ih (x := x.obey (.cancel id)) fun o later => off o (List.mem_cons_of_mem _ later)
    refine ⟨sittings, reached, fun s member => ?_⟩
    obtain ⟨between, there, same⟩ := kept s member
    obtain ⟨old, first, rfl⟩ := List.mem_map.1 there
    refine ⟨old, first, ?_⟩
    split at same <;> exact same

theorem Sound.resit {sittings : List Sitting} (sound : x.Sound) (kept : Kept x.sittings sittings) :
    Sound { x with sittings } := by
  refine { sound with sittings := fun s member => ?_ }
  obtain ⟨old, there, id, settings, course⟩ := kept s member
  rw [id, settings, course]
  exact sound.sittings old there

/-- The plane moves on, and its orders are carried out. -/
theorem Sound.order {plane : Plane} {orders : List Scheduler.Order} (sound : x.Sound)
    (outcome : x.plane.Outcome plane orders) : (orders.foldl obey { x with plane }).Sound := by
  cases outcome with
  | settled agreed count off =>
    obtain ⟨sittings, reached, kept⟩ := obey_callsOff (x := { x with plane }) off
    rw [reached]
    exact { sound.resit kept with agreed, numbered := count ▸ sound.numbered }
  | @launching offs l settings agreed number count off direction =>
    obtain ⟨sittings, reached, kept⟩ := obey_callsOff (x := { x with plane }) off
    rw [List.foldl_append, reached]
    have numbered : Numbered (x.log ++ [.launched l.id plane.router]) plane.scheduler.launched := by
      rw [count, number]
      exact sound.numbered.launch plane.router
    have logged := (sound.resit kept).record agreed numbered (by simp [Backed])
    refine { logged with sittings := fun s member => ?_ }
    rcases List.mem_append.1 member with old | new
    · exact logged.sittings s old
    · cases List.mem_singleton.1 new
      exact ⟨Course.aimed_start settings, plane.router, by simp [obey], direction.symm⟩

/-- A store changed by a handler is the one opposite to the direction of its event. -/
theorem Sound.writes (sound : x.Sound) (i : Nat) : Backed x.log (x.writes i) := by
  intro side e p member
  obtain ⟨⟨_, _⟩, written, same⟩ := List.mem_map.1 member
  cases same
  simp only [Option.mem_toList, write?] at written
  split at written
  next e q next found =>
    split at written
    · cases written
    next writing =>
      cases written
      obtain ⟨traced, aims, -⟩ := sound.handlings _ (List.mem_of_getElem? found)
      exact ⟨traced, aims (by simpa using writing)⟩
  next => cases written

theorem Sound.handle {turn : Turn} {written : List Entry} (sound : x.Sound)
    (known : ∀ e, turn = .begin e → Traced x.log e)
    (backed : Backed x.log written)
    (numbered : Numbered (x.log ++ written) x.plane.scheduler.launched)
    (step : x.handle r turn written = some y) : y.Sound := by
  obtain ⟨bench, moved, rfl⟩ := Option.map_eq_some_iff.1 step
  have kept : ∀ h ∈ bench.handlings, Traced x.log h.event ∧ Aims h.event.direction.other h.rest :=
    Bench.forall_handlings (P := fun e rest => Traced x.log e ∧ Aims e.direction.other rest)
      (fun _ _ _ reply here => ⟨here.1, here.2.2 reply⟩)
      (fun e same => ⟨known e same, aims_fix ..⟩) sound.handlings moved
  exact Sound.record (x := { x with bench }) { sound with handlings := kept } sound.agreed numbered backed

theorem Sound.proceed {i : Nat} {m : Course.Move} {stamp : k.Stamp} {stray : Bool} (sound : x.Sound)
    (step : x.proceed i m stamp stray = some y) : y.Sound := by
  simp only [Operation.proceed] at step
  split at step
  · cases step
  next s found =>
    obtain ⟨-, step⟩ := Option.ite_none_left_eq_some.1 step
    obtain ⟨course, moved, rfl⟩ := Option.map_eq_some_iff.1 step
    obtain ⟨aimed, p, launched, primary⟩ := sound.sittings s (List.mem_of_getElem? found)
    obtain ⟨later, attempted⟩ := aimed.advance moved
    generalize arrived : (if stray then m.2.attempted else m.2.news) = arriving
    have direction : ∀ e ∈ arriving, e.direction = s.settings.direction := by
      intro e member
      apply attempted
      cases stray with
      | true => rwa [← arrived] at member
      | false => exact m.2.news_subset_attempted (by rwa [← arrived] at member)
    have numbered : Numbered (x.log ++ arriving.map (.published s.id)) x.plane.scheduler.launched :=
      sound.numbered.append (by simp [launches, Entry.launch?])
    have logged := sound.record sound.agreed numbered (by simp [Backed])
    refine { logged with sittings := fun k member => ?_, messages := fun payload member => ?_ }
    · rcases List.mem_or_eq_of_mem_set member with other | rfl
      · exact logged.sittings k other
      · exact ⟨later, p, List.mem_append_left _ launched, primary⟩
    · rcases k.mem_produceAll member with old | ⟨e, new, rfl⟩
      · exact logged.messages payload old
      · refine ⟨e, rfl, s.id, p, ?_, primary.trans (direction e new).symm⟩
        have before : [Entry.launched s.id p].Sublist x.log := List.singleton_sublist.2 launched
        have after : [Entry.published s.id e].Sublist (arriving.map (.published s.id)) :=
          List.singleton_sublist.2 (List.mem_map_of_mem new)
        exact before.append after

theorem Sound.tend {a : k.Act} (sound : x.Sound) (step : x.tend r a = some y) : y.Sound := by
  have later : Sound { x with bus := (k.act a x.bus).2 } :=
    { sound with messages := fun payload member => sound.messages payload (k.mem_act member) }
  simp only [Operation.tend] at step
  split at step
  · cases step
    exact later
  next e decoded =>
    obtain ⟨payload, handed, decoded⟩ := Option.bind_eq_some_iff.1 decoded
    obtain ⟨e, rfl, traced⟩ := sound.messages payload (k.handed handed)
    rw [Event.decode_encode] at decoded
    cases decoded
    refine later.handle ?_ (by simp [Backed]) (by simpa using sound.numbered) step
    rintro _ ⟨⟩
    exact traced

theorem Sound.advance {step : Step k} (sound : x.Sound) (advanced : x.advance r step = some y) :
    y.Sound := by
  have quiet (i : Nat) : launches (x.writes i) = [] := by
    simp [launches, Operation.writes, Entry.launch?, Function.comp_def]
  cases step with
  | command c command =>
    cases advanced
    exact sound.order (Plane.outcome_perform sound.agreed c command)
  | shutDown =>
    cases advanced
    exact sound.order (Plane.outcome_shutDown sound.agreed)
  | progress i m stamp stray => exact sound.proceed advanced
  | tend a => exact sound.tend advanced
  | answered i =>
    exact sound.handle (by simp) (sound.writes i) (sound.numbered.append (quiet i)) advanced
  | failed i cause performed =>
    refine sound.handle (by simp) ?_ (sound.numbered.append ?_) advanced
    · cases performed with
      | true => exact sound.writes i
      | false => simp [Backed]
    · cases performed with
      | true => exact quiet i
      | false => rfl
  | edit side table =>
    cases advanced
    exact { sound with }

theorem Sound.follow {steps : List (Step k)} (sound : x.Sound) (followed : x.follow r steps = some y) :
    y.Sound := by
  exact follows.invariant (fun _ _ _ _ sound advanced => sound.advance advanced) sound followed

/-- A queue that hands an event out gives work to a handler. -/
theorem tend_handed {a : k.Act} {e : Event} (handed : (k.act a x.bus).1 = some e.encode) :
    x.tend r a = handle r { x with bus := (k.act a x.bus).2 } (.begin e) [] := by
  simp only [tend, handed, Option.bind_some, Event.decode_encode]

/-- The change that the repair of an event makes goes to the store that was not the primary when the
comparison that found it was started. It goes to the primary just when the primary has changed since. -/
theorem writes_follow_launch {pattern : Pattern} {tuning : Tuning} {tables : Tables}
    {steps : List (Step k)} {before after : List Entry} {side : Side} {e : Event} {p : Pattern}
    (run : (start pattern tuning tables).follow r steps = some x)
    (log : x.log = before ++ .wrote side e p :: after) :
    ∃ n p₀, [Entry.launched n p₀, .published n e].Sublist before ∧
      (∀ q, .launched n q ∈ x.log → q = p₀) ∧ side = p₀.secondary ∧
      (side = p.primary ↔ p.primary ≠ p₀.primary) := by
  have sound := (sound_start pattern tuning tables).follow run
  obtain ⟨⟨n, p₀, order, primary⟩, target⟩ := sound.grounded before side e p after log
  have launched : .launched n p₀ ∈ x.log := by
    rw [log]
    exact List.mem_append_left _ (order.subset List.mem_cons_self)
  rw [← primary] at target
  refine ⟨n, p₀, order, fun q there => sound.numbered.unique there launched, target, ?_⟩
  rw [target]
  cases p.primary <;> cases p₀.primary <;> decide

/-- A comparison finds a record that differs, and its event is published; then the pattern is switched. -/
def overtaken : List (Step MemoryBus.carrier) :=
  let calm : Circumstances := ⟨fun _ => .ok (), 0, fun _ => true⟩
  [.command calm .startFull, .progress 0 (.baseToTarget, .answered) () false,
    .progress 0 (.baseToTarget, .answered) () false,
    .progress 0 (.baseToTarget, .published ⟨1, .src, .neq⟩ true) () false,
    .command calm (.switch .dstFirst)]

/-- The repair that follows changes the new primary. -/
theorem log_overtaken (r : Repairer) :
    ∃ x, (start .srcFirst .standard Course.staleCopy).follow r
        (overtaken ++ [.tend (.take 0), .answered 0, .answered 0]) = some x ∧
      x.log = [.launched 1 .srcFirst, .published 1 ⟨1, .src, .neq⟩,
        .wrote .dst ⟨1, .src, .neq⟩ .dstFirst] := by
  have before : ((start .srcFirst .standard Course.staleCopy).follow r overtaken).map
      (fun y => (y.plane.router, y.bus, y.bench, y.log)) =
      some (.dstFirst, MemoryBus.empty.produce ⟨1, .src, .neq⟩, ⟨Course.staleCopy, []⟩,
        [.launched 1 .srcFirst, .published 1 ⟨1, .src, .neq⟩]) := rfl
  obtain ⟨⟨⟨scheduler, router, tuning⟩, sittings, bus, bench, log⟩, reached, known⟩ :=
    Option.map_eq_some_iff.1 before
  cases known
  -- the text of the event is not computed: it is read back whatever it is
  rw [follows.append, reached, Option.bind_some]
  simp only [follow, advance]
  rw [tend_handed (e := ⟨1, .src, .neq⟩) rfl]
  exact ⟨_, rfl, rfl⟩

theorem writes_follow_launch_overtaken :
    ∃ x : Operation MemoryBus.carrier, ∃ n p₀,
      [Entry.launched n p₀, .published n ⟨1, .src, .neq⟩].Sublist
        [.launched 1 .srcFirst, .published 1 ⟨1, .src, .neq⟩] ∧
      (∀ q, .launched n q ∈ x.log → q = p₀) ∧ Side.dst = p₀.secondary ∧
      (Side.dst = Pattern.dstFirst.primary ↔ Pattern.dstFirst.primary ≠ p₀.primary) := by
  obtain ⟨x, run, log⟩ := log_overtaken .mapped
  exact ⟨x, writes_follow_launch run log⟩

/-- The primary is not safe from repairs. -/
theorem primary_overwritten :
    ¬∀ (k : Carrier) (r : Repairer) (pattern : Pattern) (tuning : Tuning) (tables : Tables)
      (steps : List (Step k)) (x : Operation k),
      (start pattern tuning tables).follow r steps = some x →
      ∀ side e p, .wrote side e p ∈ x.log → side ≠ p.primary := by
  intro safe
  obtain ⟨x, run, log⟩ := log_overtaken .mapped
  have written : .wrote .dst ⟨1, .src, .neq⟩ .dstFirst ∈ x.log := by simp [log]
  exact safe _ _ _ _ _ _ x run _ _ _ written rfl

end Operation
end Cutover.Control
