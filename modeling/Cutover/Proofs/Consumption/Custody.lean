import Cutover.Proofs.Bus.Ledger
import Cutover.Proofs.Consumption.Tasks
import Cutover.Proofs.Run

/-! A consumer on a queue in memory. Messages arrive, tasks end in whatever way and order, the signal to
stop comes, and timers run out, each at any time; the consumer goes on from stage to stage. -/
namespace Cutover

structure Custody where
  ledger : Ledger
  consumer : Consumer Nat

namespace Custody

inductive Move where
  | publish (payload : List UInt8)
  | signal
  /-- A task ends: the handler has come back with success or failure, ran out of time, or panicked. -/
  | ended (task : Nat) (ending : Ending)
  /-- The consumer does what is next; the queue answers at once. -/
  | proceed (now : Nat)
  /-- The consumer, waiting, sees the signal. -/
  | heed
  | timer

/-- What is done to the messages whose tasks the consumer orders to be launched. -/
def invoke (x : Ledger) (id : Nat) : List Consumer.Order → Ledger
  | [] => x
  | .launch _ e :: rest => invoke (x.note id (.invoked e)) id rest

def proceed (s : Consumption) (x : Custody) (now : Nat) : Option Custody :=
  match x.consumer.stage with
  | .taking =>
    let (found, ledger) := x.ledger.take now
    let (consumer, orders, _) := x.consumer.onTaken s found
    some ⟨(found.map fun (_, id) => invoke ledger id orders).getD ledger, consumer⟩
  | .discarding id => some ⟨x.ledger.ack id, (x.consumer.onDiscarded s).1⟩
  | .sweeping => some { x with consumer := (x.consumer.sweep s).1 }
  | .joining _ => if x.consumer.finished = [] then none else some { x with consumer := x.consumer.join .take }
  | .idle => none
  | .acking charge _ => some ⟨x.ledger.ack charge.cookie, (x.consumer.onSettled s).1⟩
  | .nacking charge _ =>
    some ⟨x.ledger.nack now charge.cookie s.redelivery, (x.consumer.onSettled s).1⟩
  | .draining => some { x with consumer := x.consumer.drain }
  | .ended _ => none

/-- Whether the consumer would see the signal. -/
def heeds (c : Consumer Nat) : Bool :=
  match c.stage with
  | .joining _ | .idle => c.signalled
  | _ => false

def advance (s : Consumption) (x : Custody) : Move → Option Custody
  | .publish payload => some { x with ledger := x.ledger.publish payload }
  | .signal => some { x with consumer := x.consumer.signal }
  | .ended task ending =>
    if task ∈ x.consumer.running then
      (x.consumer.charges.find? (·.task == task)).map fun charge =>
        ⟨x.ledger.note charge.cookie (.ended ending), x.consumer.onEnded task ending⟩
    else none
  | .proceed now => x.proceed s now
  | .heed => if heeds x.consumer then some { x with consumer := x.consumer.heed } else none
  | .timer => some { x with consumer := (x.consumer.onTimer s).1 }

def follow (s : Consumption) : Custody → List Move → Option Custody
  | x, [] => some x
  | x, m :: rest => (x.advance s m).bind fun x => x.follow s rest

theorem follows {s : Consumption} : Follows (advance s) (follow s) := ⟨fun _ => rfl, fun _ _ _ => rfl⟩

def start (s : Consumption) : Custody := ⟨.empty, (Consumer.start s).1⟩

/-- The message that a stage is about is as far as the stage has it. -/
def Fits (record : Nat → List Deed) : Consumer.Stage Nat → Prop
  | .discarding id => (record id).head? = some .taken ∧
    ∀ payload, Lawful payload (record id) → Event.decode payload = none
  | .acking charge _ => (record charge.cookie).head? = some (.ended .succeeded)
  | .nacking charge _ => ∃ ending, ending ≠ .succeeded ∧ (record charge.cookie).head? = some (.ended ending)
  | _ => True

/-- The messages in flight are those in the hands of the consumer, each as far as the consumer has it. -/
structure Sound (s : Consumption) (x : Custody) : Prop where
  ledger : x.ledger.Sound
  consumer : x.consumer.Sound s
  held : (∀ e, x.consumer.stage ≠ .ended (.error e)) →
    (x.ledger.bus.inflight.map (·.id)).Perm x.consumer.cookies
  running : ∀ charge ∈ x.consumer.charges, charge.task ∈ x.consumer.running →
    (x.ledger.record charge.cookie).head? = some (.invoked charge.event)
  finished : ∀ charge ∈ x.consumer.charges, ∀ ending, (charge.task, ending) ∈ x.consumer.finished →
    (x.ledger.record charge.cookie).head? = some (.ended ending)
  fits : Fits x.ledger.record x.consumer.stage

variable {s : Consumption} {x y : Custody} {m : Move} {moves : List Move} {ledger : Ledger}
  {d : Consumer Nat}

theorem Fits.congr {record old : Nat → List Deed} {stage : Consumer.Stage Nat} (fits : Fits old stage)
    (same : ∀ id ∈ stage.cookies, record id = old id) : Fits record stage := by
  cases stage with
  | discarding id | acking charge | nacking charge =>
    simp only [Fits, same _ (List.mem_singleton_self _)]
    exact fits
  | taking | sweeping | joining | idle | draining | ended => trivial

theorem fits_of_plain {stage : Consumer.Stage Nat} (plain : stage.Plain) (record : Nat → List Deed) :
    Fits record stage := by
  cases stage <;> trivial

theorem Fits.ne_nil {record : Nat → List Deed} {stage : Consumer.Stage Nat} (fits : Fits record stage)
    {id : Nat} (member : id ∈ stage.cookies) : record id ≠ [] := by
  cases stage with
  | discarding | acking | nacking =>
    rw [List.mem_singleton.1 member]
    intro none
    simp [Fits, none] at fits
  | taking | sweeping | joining | idle | draining | ended => cases member

theorem sound_start (s : Consumption) : (start s).Sound s := by
  have turned := Consumer.turned_again s (Consumer.fresh : Consumer Nat)
  refine ⟨Ledger.sound_empty, Consumer.sound_start s, fun _ => ?_, ?_, ?_, fits_of_plain turned.plain _⟩
  · rw [show (start s).consumer.cookies = [] from turned.cookies]
    exact .refl _
  · rw [show (start s).consumer.charges = [] from congrArg Consumer.charges turned.same]
    simp
  · rw [show (start s).consumer.charges = [] from congrArg Consumer.charges turned.same]
    simp

namespace Sound

theorem nodup (sound : x.Sound s) (going : ∀ e, x.consumer.stage ≠ .ended (.error e)) :
    x.consumer.cookies.Nodup :=
  (sound.held going).nodup_iff.1 sound.ledger.nodup_flying

/-- The message that the stage is about, if any, is settled, and the consumer goes on. -/
theorem turned (sound : x.Sound s) (going : ∀ e, x.consumer.stage ≠ .ended (.error e))
    (turned : x.consumer.Turned s d) (kept : ledger.Sound)
    (settled : (x.ledger.bus.inflight.map (·.id)).Perm
      (x.consumer.stage.cookies ++ ledger.bus.inflight.map (·.id)))
    (elsewhere : ∀ id ∉ x.consumer.stage.cookies, ledger.record id = x.ledger.record id) :
    Sound s ⟨ledger, d⟩ := by
  have same := turned.same
  -- what is in hand is not what the stage is about, so its record is left alone
  have apart : ∀ charge ∈ x.consumer.charges, charge.cookie ∉ x.consumer.stage.cookies := by
    intro charge member there
    exact (List.nodup_append.1 (sound.nodup going)).2.2 _ (List.mem_map_of_mem member) _ there rfl
  refine ⟨kept, sound.consumer.toStaffed.turned turned, fun _ => ?_, ?_, ?_, fits_of_plain turned.plain _⟩
  · rw [turned.cookies]
    refine (List.perm_append_left_iff x.consumer.stage.cookies).1 ?_
    exact settled.symm.trans ((sound.held going).trans List.perm_append_comm)
  · rw [same]
    intro charge member running
    rw [elsewhere _ (apart charge member)]
    exact sound.running charge member running
  · rw [same]
    intro charge member ending finished
    rw [elsewhere _ (apart charge member)]
    exact sound.finished charge member ending finished

/-- The same where the stage is about no message. -/
theorem onward (sound : x.Sound s) (going : ∀ e, x.consumer.stage ≠ .ended (.error e))
    (free : x.consumer.stage.cookies = []) (turned : x.consumer.Turned s d) :
    Sound s { x with consumer := d } :=
  sound.turned going turned sound.ledger (by rw [free]; exact .refl _) fun _ _ => rfl

theorem publish (sound : x.Sound s) (payload : List UInt8) :
    Sound s { x with ledger := x.ledger.publish payload } := by
  have kept {id : Nat} {d : Deed} (known : (x.ledger.record id).head? = some d) :
      ((x.ledger.publish payload).record id).head? = some d := by
    rwa [sound.ledger.record_publish]
    rintro none
    simp [none] at known
  exact ⟨sound.ledger.publish payload, sound.consumer, sound.held,
    fun charge member running => kept (sound.running charge member running),
    fun charge member ending finished => kept (sound.finished charge member ending finished),
    sound.fits.congr fun id member => sound.ledger.record_publish (sound.fits.ne_nil member) payload⟩

theorem signal (sound : x.Sound s) : Sound s { x with consumer := x.consumer.signal } := by
  obtain ⟨⟨charged, distinct, launched, room⟩, seeking, through, known⟩ := sound.consumer
  exact ⟨sound.ledger, ⟨⟨charged, distinct, launched, room⟩, seeking, through, known⟩, sound.held,
    sound.running, sound.finished, sound.fits⟩

theorem exists_item {id : Nat} (sound : x.Sound s) (going : ∀ e, x.consumer.stage ≠ .ended (.error e))
    (member : id ∈ x.consumer.cookies) : ∃ i ∈ x.ledger.bus.items, i.id = id := by
  have flying := (sound.held going).mem_iff.2 member
  have there : id ∈ x.ledger.bus.items.map (·.id) := by
    rw [MemoryBus.ids_items]
    exact List.mem_append_right _ flying
  exact List.mem_map.1 there

theorem ended {task : Nat} {charge : Charge Nat} (sound : x.Sound s) (running : task ∈ x.consumer.running)
    (found : x.consumer.charges.find? (·.task == task) = some charge) (ending : Ending) :
    Sound s ⟨x.ledger.note charge.cookie (.ended ending), x.consumer.onEnded task ending⟩ := by
  have member := List.mem_of_find?_eq_some found
  obtain rfl : charge.task = task := by simpa using List.find?_some found
  have going : ∀ e, x.consumer.stage ≠ .ended (.error e) := by
    intro e last
    simp [(sound.consumer.through _ last).1] at running
  have inHand : charge.cookie ∈ x.consumer.cookies :=
    List.mem_append_left _ (List.mem_map_of_mem member)
  obtain ⟨i, here, same⟩ := sound.exists_item going inHand
  obtain ⟨past, known⟩ : ∃ past, x.ledger.record i.id = .invoked charge.event :: past := by
    rw [same]
    exact List.head?_eq_some_iff.1 (sound.running charge member running)
  have lawful := (sound.ledger.held i here).1
  have place := (sound.ledger.held i here).2
  have elsewhere {id : Nat} (other : id ≠ charge.cookie) :
      (x.ledger.note charge.cookie (.ended ending)).record id = x.ledger.record id := by
    simp [Ledger.note, other]
  have apart : ∀ other ∈ x.consumer.charges, other.task ≠ charge.task → other.cookie ≠ charge.cookie := by
    intro other there differ twice
    have cookies := (List.nodup_append.1 (sound.nodup going)).1
    exact differ (congrArg Charge.task (List.inj_on_of_nodup_map cookies there member twice))
  have once := sound.consumer.toStaffed.nodup
  have ledger : (x.ledger.note charge.cookie (.ended ending)).Sound := by
    rw [← same]
    rw [known] at lawful place
    exact sound.ledger.note here (by rw [← place]; rfl) (by rw [known]; exact lawful.ended ending)
  refine ⟨ledger, sound.consumer.onEnded running ending, ?_, ?_, ?_, ?_⟩ <;>
    rw [Consumer.onEnded_of_mem running]
  · exact sound.held
  · intro other there still
    obtain ⟨differ, still⟩ := (List.nodup_append.1 once).1.mem_erase_iff.1 still
    rw [elsewhere (apart other there differ)]
    exact sound.running other there still
  · intro other there result finished
    rcases List.mem_append.1 finished with before | now
    · have differ : other.task ≠ charge.task := fun twice =>
        (List.nodup_append.1 once).2.2 _ running _ (List.mem_map_of_mem before) twice.symm
      rw [elsewhere (apart other there differ)]
      exact sound.finished other there result before
    · obtain ⟨twice, rfl⟩ := Prod.mk.inj (List.mem_singleton.1 now)
      obtain rfl := List.inj_on_of_nodup_map sound.consumer.distinct there member twice
      simp [Ledger.note]
  · refine sound.fits.congr fun id there => elsewhere ?_
    rintro rfl
    exact (List.nodup_append.1 (sound.nodup going)).2.2 _ (List.mem_map_of_mem member) _ there rfl

theorem join {after : Consumer.Resume} (sound : x.Sound s) (going : ∀ e, x.consumer.stage ≠ .ended (.error e))
    (free : x.consumer.stage.cookies = []) (some : x.consumer.finished ≠ []) :
    Sound s { x with consumer := x.consumer.join after } := by
  obtain ⟨⟨task, ending⟩, rest, first⟩ := List.exists_cons_of_ne_nil some
  obtain ⟨consumer, charge, member, rfl, joined⟩ := sound.consumer.toStaffed.join first after
  have known := sound.finished charge member ending (first ▸ List.mem_cons_self)
  have others := (perm_cons_filter_ne (·.task) sound.consumer.distinct member).map (·.cookie)
  refine ⟨sound.ledger, consumer, fun _ => ?_, ?_, ?_, ?_⟩ <;> rw [joined]
  · have held := sound.held going
    rw [Consumer.cookies, free, List.append_nil] at held
    refine held.trans (others.trans ?_)
    dsimp only [Consumer.cookies]
    split <;> exact (List.perm_append_singleton ..).symm
  · exact fun other there => sound.running other (List.mem_of_mem_filter there)
  · intro other there ending later
    exact sound.finished other (List.mem_of_mem_filter there) ending (first ▸ List.mem_cons_of_mem _ later)
  · dsimp only
    split
    next succeeded => exact known.trans (by rw [succeeded])
    next failed => exact ⟨ending, failed, known⟩

/-- The queue hands a message out: it is in flight, and none of those in hand before. -/
theorem handed {now id : Nat} {payload : List UInt8} (sound : x.Sound s) (asking : x.consumer.stage = .taking)
    (found : x.ledger.take now = (some (payload, id), ledger)) :
    (ledger.bus.inflight.map (·.id)).Perm (x.consumer.charges.map (·.cookie) ++ [id]) ∧
      ∀ charge ∈ x.consumer.charges, charge.cookie ≠ id ∧
        ledger.record charge.cookie = x.ledger.record charge.cookie := by
  obtain ⟨kept, -, record, flying⟩ := sound.ledger.take found
  have held : (x.ledger.bus.inflight.map (·.id)).Perm (x.consumer.charges.map (·.cookie)) := by
    have held := sound.held (by simp [asking])
    rwa [Consumer.cookies, asking, show (Consumer.Stage.taking : Consumer.Stage Nat).cookies = [] from rfl,
      List.append_nil] at held
  have more : (ledger.bus.inflight.map (·.id)).Perm (x.consumer.charges.map (·.cookie) ++ [id]) := by
    rw [flying]
    exact held.append_right [id]
  refine ⟨more, fun charge member => ?_⟩
  have apart := (List.nodup_append.1 (more.nodup_iff.1 kept.nodup_flying)).2.2
  have other := apart _ (List.mem_map_of_mem member) _ (List.mem_singleton_self id)
  exact ⟨other, by rw [record, Function.update_of_ne other]⟩

theorem poisoned {now id : Nat} {payload : List UInt8} (sound : x.Sound s)
    (asking : x.consumer.stage = .taking) (found : x.ledger.take now = (some (payload, id), ledger))
    (undecoded : Event.decode payload = none) :
    Sound s ⟨ledger, { x.consumer with stage := .discarding id }⟩ := by
  obtain ⟨flying, others⟩ := sound.handed asking found
  obtain ⟨kept, here, record, -⟩ := sound.ledger.take found
  obtain ⟨charged, distinct, launched, room⟩ := sound.consumer.toStaffed
  have seeking := sound.consumer.seeking (by rw [asking]; trivial)
  refine ⟨kept, ⟨⟨charged, distinct, launched, room⟩, fun _ => seeking, by simp, by simp⟩, fun _ => flying,
    ?_, ?_, by simp [record], fun other lawful => ?_⟩
  · intro charge member running
    rw [(others charge member).2]
    exact sound.running charge member running
  · intro charge member ending finished
    rw [(others charge member).2]
    exact sound.finished charge member ending finished
  · have same := (kept.held _ here).1.payload_eq lawful.published_mem
    rwa [same]

theorem hired {now id : Nat} {payload : List UInt8} {e : Event} (sound : x.Sound s)
    (asking : x.consumer.stage = .taking) (found : x.ledger.take now = (some (payload, id), ledger))
    (decoded : Event.decode payload = some e) :
    Sound s ⟨ledger.note id (.invoked e), ((x.consumer.hire e id).afterTake s true).1⟩ := by
  obtain ⟨flying, others⟩ := sound.handed asking found
  obtain ⟨kept, here, record, -⟩ := sound.ledger.take found
  have seeking := sound.consumer.seeking (by rw [asking]; trivial)
  have staffed := sound.consumer.toStaffed.hire seeking e id
  have turned : Consumer.Turned s (x.consumer.hire e id) ((x.consumer.hire e id).afterTake s true).1 :=
    Consumer.turned_afterTake (by simp [Consumer.tasks, Consumer.hire])
  have lawful := (kept.held _ here).1
  have past : ledger.record id = .taken :: x.ledger.record id := by simp [record]
  have elsewhere : ∀ charge ∈ x.consumer.charges,
      (ledger.note id (.invoked e)).record charge.cookie = x.ledger.record charge.cookie := by
    intro charge member
    obtain ⟨other, same⟩ := others charge member
    simpa [Ledger.note, other] using same
  refine ⟨?_, staffed.turned turned, fun _ => ?_, ?_, ?_, fits_of_plain turned.plain _⟩
  · rw [past] at lawful
    exact kept.note here rfl (by rw [past]; exact lawful.invoked decoded)
  · rw [turned.cookies, Consumer.hire, List.map_append]
    exact flying
  · rw [turned.same]
    intro charge member running
    rcases List.mem_append.1 member with old | new
    · rw [elsewhere charge old]
      refine sound.running charge old ((List.mem_append.1 running).resolve_right fun fresh => ?_)
      exact absurd (sound.consumer.launched charge old) (by simp [List.mem_singleton.1 fresh])
    · rw [List.mem_singleton.1 new]
      simp [Ledger.note]
  · rw [turned.same]
    intro charge member ending finished
    rcases List.mem_append.1 member with old | new
    · rw [elsewhere charge old]
      exact sound.finished charge old ending finished
    · -- no task that has ended is the new one
      rw [List.mem_singleton.1 new] at finished
      obtain ⟨other, there, same⟩ := sound.consumer.toStaffed.exists_charge
        (List.mem_append_right _ (List.mem_map_of_mem finished))
      exact absurd (sound.consumer.launched other there) (by simp [same])

theorem settled {id : Nat} (sound : x.Sound s) (about : x.consumer.stage.cookies = [id])
    (turned : x.consumer.Turned s d)
    (kept : id ∈ x.ledger.bus.inflight.map (·.id) → ledger.Sound ∧
      (x.ledger.bus.inflight.map (·.id)).Perm (id :: ledger.bus.inflight.map (·.id)))
    (elsewhere : ∀ other ≠ id, ledger.record other = x.ledger.record other) : Sound s ⟨ledger, d⟩ := by
  have going : ∀ e, x.consumer.stage ≠ .ended (.error e) := by
    intro e last
    simp [last, Consumer.Stage.cookies] at about
  have inHand : id ∈ x.consumer.cookies := List.mem_append_right _ (by simp [about])
  obtain ⟨later, fewer⟩ := kept ((sound.held going).mem_iff.2 inHand)
  refine sound.turned going turned later (by rw [about]; exact fewer) fun other away => elsewhere other ?_
  simpa [about] using away

theorem discarded {id : Nat} (sound : x.Sound s) (stage : x.consumer.stage = .discarding id) :
    Sound s ⟨x.ledger.ack id, (x.consumer.onDiscarded s).1⟩ := by
  have fits := sound.fits
  rw [stage] at fits
  obtain ⟨past, record⟩ := List.head?_eq_some_iff.1 fits.1
  have room := sound.consumer.seeking (by rw [stage]; trivial)
  refine sound.settled (by rw [stage]; rfl) (Consumer.turned_afterTake fun _ _ => room)
    (fun flying => sound.ledger.ack flying ?_) (by simp +contextual [Ledger.ack, Ledger.note])
  rintro i member rfl
  have lawful := (sound.ledger.held i member).1
  have undecoded := fits.2 _ lawful
  rw [record] at lawful ⊢
  exact lawful.discarded undecoded

theorem acked {charge : Charge Nat} {after : Consumer.Resume} (sound : x.Sound s)
    (stage : x.consumer.stage = .acking charge after) :
    Sound s ⟨x.ledger.ack charge.cookie, (x.consumer.onSettled s).1⟩ := by
  have fits := sound.fits
  rw [stage] at fits
  obtain ⟨past, record⟩ := List.head?_eq_some_iff.1 fits
  have turned := Consumer.turned_resume s x.consumer after
  refine sound.settled (by rw [stage]; rfl) (by simpa only [Consumer.onSettled, stage] using turned)
    (fun flying => sound.ledger.ack flying fun i member same => ?_)
    (by simp +contextual [Ledger.ack, Ledger.note])
  have lawful := (sound.ledger.held i member).1
  rw [same, record] at lawful
  rw [record]
  exact lawful.acked

theorem nacked {charge : Charge Nat} {after : Consumer.Resume} (sound : x.Sound s)
    (stage : x.consumer.stage = .nacking charge after) (now : Nat) (r : Redelivery) :
    Sound s ⟨x.ledger.nack now charge.cookie r, (x.consumer.onSettled s).1⟩ := by
  have fits := sound.fits
  rw [stage] at fits
  obtain ⟨ending, failed, last⟩ := fits
  obtain ⟨past, record⟩ := List.head?_eq_some_iff.1 last
  have turned := Consumer.turned_resume s x.consumer after
  refine sound.settled (by rw [stage]; rfl) (by simpa only [Consumer.onSettled, stage] using turned)
    (fun flying => sound.ledger.nack now r flying fun i member same => ?_)
    (by simp +contextual [Ledger.nack, Ledger.note])
  have lawful := (sound.ledger.held i member).1
  rw [same, record] at lawful
  rw [record]
  exact lawful.nacked failed

theorem sweep (sound : x.Sound s) (stage : x.consumer.stage = .sweeping) :
    Sound s { x with consumer := (x.consumer.sweep s).1 } := by
  have going : ∀ e, x.consumer.stage ≠ .ended (.error e) := by simp [stage]
  have free : x.consumer.stage.cookies = [] := by rw [stage]; rfl
  cases finished : x.consumer.finished with
  | cons first rest =>
    have joined : (x.consumer.sweep s).1 = x.consumer.join .sweep := by simp only [Consumer.sweep, finished]
    rw [joined]
    exact sound.join going free (by simp [finished])
  | nil =>
    refine sound.onward going free ?_
    simp only [Consumer.sweep, finished]
    split
    · exact Consumer.turned_heed s _
    · exact Consumer.turned_again s _

theorem emptied (sound : x.Sound s) (stage : x.consumer.stage = .draining) (running : x.consumer.running = [])
    (finished : x.consumer.finished = []) :
    Sound s { x with consumer := { x.consumer with stage := .ended (.ok ()) } } := by
  obtain ⟨charged, distinct, launched, room⟩ := sound.consumer.toStaffed
  refine ⟨sound.ledger, ⟨⟨charged, distinct, launched, room⟩, False.elim, fun _ _ => ⟨running, finished⟩,
    by simp⟩, fun _ => ?_, sound.running, sound.finished, trivial⟩
  have held := sound.held (by simp [stage])
  rwa [Consumer.cookies, stage] at held

theorem drain (sound : x.Sound s) (stage : x.consumer.stage = .draining) :
    Sound s { x with consumer := x.consumer.drain } := by
  simp only [Consumer.drain]
  split
  next some =>
    exact sound.join (by simp [stage]) (by rw [stage]; rfl) (by simp [some])
  next finished running => exact sound.emptied stage running finished
  next => exact sound

/-- The consumer gives up; what it had in hand stays in flight. -/
theorem givenUp (sound : x.Sound s) : Sound s { x with consumer := { x.consumer with
    running := [], finished := [], charges := [], stage := .ended (.error .shutdownTimeout) } } :=
  ⟨sound.ledger, ⟨⟨.refl _, .nil, by simp, Nat.zero_le _⟩, False.elim, fun _ _ => ⟨rfl, rfl⟩, by simp⟩,
    fun going => absurd rfl (going _), by simp, by simp, trivial⟩

theorem timer (sound : x.Sound s) : Sound s { x with consumer := (x.consumer.onTimer s).1 } := by
  simp only [Consumer.onTimer]
  split
  next stage =>
    exact sound.onward (by simp [stage]) (by rw [stage]; rfl) (Consumer.turned_again s _)
  next stage =>
    exact sound.onward (by simp [stage]) (by rw [stage]; rfl) (Consumer.turned_again s _)
  next => exact sound.givenUp
  next => exact sound.givenUp
  next => exact sound.givenUp
  next => exact sound

theorem take {now : Nat} (sound : x.Sound s) (stage : x.consumer.stage = .taking)
    (step : x.proceed s now = some y) : y.Sound s := by
  simp only [Custody.proceed, stage, Option.some.injEq] at step
  cases found : x.ledger.take now with
  | mk message ledger =>
    simp only [found] at step
    subst step
    cases message with
    | none =>
      rw [Ledger.take_none found]
      exact sound.onward (by simp [stage]) (by rw [stage]; rfl) (Consumer.turned_afterTake (by simp))
    | some message =>
      obtain ⟨payload, id⟩ := message
      cases decoded : Event.decode payload with
      | none =>
        simp only [Consumer.onTaken, decoded]
        exact sound.poisoned stage found decoded
      | some e =>
        rw [Consumer.onTaken_decoded decoded]
        exact sound.hired stage found decoded

theorem proceed {now : Nat} (sound : x.Sound s) (step : x.proceed s now = some y) : y.Sound s := by
  cases stage : x.consumer.stage with
  | taking => exact sound.take stage step
  | discarding id =>
    simp only [Custody.proceed, stage, Option.some.injEq] at step
    exact step ▸ sound.discarded stage
  | sweeping =>
    simp only [Custody.proceed, stage, Option.some.injEq] at step
    exact step ▸ sound.sweep stage
  | joining pickup =>
    simp only [Custody.proceed, stage] at step
    obtain ⟨some, step⟩ := Option.ite_none_left_eq_some.1 step
    cases step
    exact sound.join (by simp [stage]) (by rw [stage]; rfl) some
  | acking charge after =>
    simp only [Custody.proceed, stage, Option.some.injEq] at step
    exact step ▸ sound.acked stage
  | nacking charge after =>
    simp only [Custody.proceed, stage, Option.some.injEq] at step
    exact step ▸ sound.nacked stage now s.redelivery
  | draining =>
    simp only [Custody.proceed, stage, Option.some.injEq] at step
    exact step ▸ sound.drain stage
  | idle | ended =>
    simp only [Custody.proceed, stage] at step
    cases step

theorem advance (sound : x.Sound s) (step : x.advance s m = some y) : y.Sound s := by
  cases m with
  | publish payload =>
    cases step
    exact sound.publish payload
  | signal =>
    cases step
    exact sound.signal
  | ended task ending =>
    obtain ⟨running, step⟩ := Option.ite_none_right_eq_some.1 step
    obtain ⟨charge, found, rfl⟩ := Option.map_eq_some_iff.1 step
    exact sound.ended running found ending
  | proceed now => exact sound.proceed step
  | heed =>
    obtain ⟨heeds, step⟩ := Option.ite_none_right_eq_some.1 step
    cases step
    have waiting : (∃ pickup, x.consumer.stage = .joining pickup) ∨ x.consumer.stage = .idle := by
      cases stage : x.consumer.stage <;> simp [Custody.heeds, stage] at heeds ⊢
    rcases waiting with ⟨pickup, stage⟩ | stage <;>
      exact sound.onward (by simp [stage]) (by rw [stage]; rfl) (Consumer.turned_heed s _)
  | timer =>
    cases step
    exact sound.timer

theorem follow (sound : x.Sound s) (run : x.follow s moves = some y) : y.Sound s := by
  exact follows.invariant (fun _ _ _ _ sound step => sound.advance step) sound run

end Sound

structure AtLeastOnce (s : Consumption) (x : Custody) : Prop where
  /-- Nothing is settled early, twice or the wrong way. -/
  lawful : ∀ id, x.ledger.record id ≠ [] → ∃ payload, Lawful payload (x.ledger.record id)
  /-- Nothing is lost. -/
  kept : ∀ id payload, .published payload ∈ x.ledger.record id → .acked ∉ x.ledger.record id →
    ∃ m, (m ∈ x.ledger.bus.queue ∨ m ∈ x.ledger.bus.inflight) ∧ m.id = id ∧ m.payload = payload
  /-- Each task has one charge, and the consumer never comes upon a task without. -/
  charged : (x.consumer.charges.map (·.task)).Nodup ∧
    (x.consumer.charges.map (·.task)).Perm (x.consumer.running ++ x.consumer.finished.map (·.1)) ∧
    x.consumer.result ≠ some (.error .unknownTask)
  few : x.consumer.tasks ≤ s.capacity
  /-- A consumer that has stopped in good order has settled each message as often as it took it. -/
  settled : x.consumer.result = some (.ok ()) → x.ledger.bus.inflight = [] ∧
    ∀ id, (x.ledger.record id).count .taken = (x.ledger.record id).count .acked +
      (x.ledger.record id).count .nacked

theorem Sound.lawful (sound : x.Sound s) {id : Nat} (some : x.ledger.record id ≠ []) :
    ∃ payload, Lawful payload (x.ledger.record id) := by
  by_cases there : id ∈ x.ledger.bus.items.map (·.id)
  · obtain ⟨i, member, rfl⟩ := List.mem_map.1 there
    exact ⟨_, (sound.ledger.held i member).1⟩
  · exact (sound.ledger.gone id some there).2

theorem Sound.kept (sound : x.Sound s) {id : Nat} {payload : List UInt8}
    (published : .published payload ∈ x.ledger.record id) (unsettled : .acked ∉ x.ledger.record id) :
    ∃ m, (m ∈ x.ledger.bus.queue ∨ m ∈ x.ledger.bus.inflight) ∧ m.id = id ∧ m.payload = payload := by
  by_cases there : id ∈ x.ledger.bus.items.map (·.id)
  · obtain ⟨i, member, rfl⟩ := List.mem_map.1 there
    have same := (sound.ledger.held i member).1.payload_eq published
    rcases List.mem_append.1 member with waiting | flying
    · obtain ⟨m, queued, rfl⟩ := List.mem_map.1 waiting
      exact ⟨m, .inl queued, rfl, same.symm⟩
    · obtain ⟨m, taken, rfl⟩ := List.mem_map.1 flying
      exact ⟨m, .inr taken, rfl, same.symm⟩
  · -- a message that has left the queue was acknowledged last
    have last := (sound.ledger.gone id (List.ne_nil_of_mem published) there).1
    exact absurd (List.mem_of_mem_head? last) unsettled

theorem Sound.settled_of_ok (sound : x.Sound s) (stage : x.consumer.stage = .ended (.ok ())) :
    x.ledger.bus.inflight = [] ∧ ∀ id, (x.ledger.record id).count .taken =
      (x.ledger.record id).count .acked + (x.ledger.record id).count .nacked := by
  obtain ⟨running, finished⟩ := sound.consumer.through _ stage
  have charges : x.consumer.charges = [] := by
    have charged := sound.consumer.charged
    rw [running, finished] at charged
    exact List.map_eq_nil_iff.1 charged.eq_nil
  have none : x.ledger.bus.inflight = [] := by
    have held := sound.held (by simp [stage])
    rw [Consumer.cookies, charges, stage] at held
    exact List.map_eq_nil_iff.1 held.eq_nil
  refine ⟨none, fun id => ?_⟩
  by_cases some : x.ledger.record id = []
  · simp [some]
  · obtain ⟨payload, lawful⟩ := sound.lawful some
    rw [lawful.count_taken, if_neg, Nat.add_zero]
    intro flying
    have inFlight := sound.ledger.mem_flying flying
    rw [none] at inFlight
    cases inFlight

/-- Whatever happens, and whenever, a consumer on a queue in memory handles messages at least once. -/
theorem at_least_once (run : (start s).follow s moves = some x) : x.AtLeastOnce s := by
  have sound := (sound_start s).follow run
  refine ⟨fun _ => sound.lawful, fun _ _ => sound.kept, ⟨sound.consumer.distinct, sound.consumer.charged, ?_⟩,
    sound.consumer.room, fun ended => sound.settled_of_ok ?_⟩
  · intro unknown
    cases stage : x.consumer.stage <;> simp [Consumer.result, stage] at unknown
    exact sound.consumer.known (stage.trans (by rw [unknown]))
  · cases stage : x.consumer.stage <;> simp [Consumer.result, stage] at ended
    rw [ended]

def narrow : Consumption := { Consumption.standard with capacity := 1 }

/-- The handler fails at first, another message carries no event, and the signal comes before the
handler has succeeded. -/
def retried : List Move :=
  [.publish (Event.encode ⟨1, .src, .neq⟩), .publish [], .proceed 0, .ended 0 .failed, .proceed 0, .proceed 0,
    .proceed 0, .proceed 0, .proceed 0, .proceed 1000000000, .signal, .heed, .ended 1 .succeeded, .proceed 0,
    .proceed 0, .proceed 0]

theorem at_least_once_retried : ∃ x, (start narrow).follow narrow retried = some x ∧
    x.consumer.result = some (.ok ()) ∧ x.ledger.record 1 = [.acked, .taken, .published []] ∧
    (x.ledger.record 0).count .nacked = 1 ∧ (x.ledger.record 0).count .taken = 2 ∧
    x.ledger.bus.inflight = [] := by
  have reached : ((start narrow).follow narrow retried).map
      (fun x => (x.consumer.result.map (·.toOption), x.ledger.record 1, (x.ledger.record 0).count .acked,
        (x.ledger.record 0).count .nacked)) =
      some (some (some ()), [.acked, .taken, .published []], 1, 1) := by decide +kernel
  obtain ⟨x, run, known⟩ := Option.map_eq_some_iff.1 reached
  simp only [Prod.mk.injEq] at known
  obtain ⟨good, discarded, acked, nacked⟩ := known
  obtain ⟨result, ended, good⟩ := Option.map_eq_some_iff.1 good
  obtain rfl : result = .ok () := by
    cases result with
    | error => cases good
    | ok => rfl
  obtain ⟨none, count⟩ := (at_least_once run).settled ended
  exact ⟨x, run, ended, discarded, nacked, by rw [count, acked, nacked], none⟩

end Custody
end Cutover
