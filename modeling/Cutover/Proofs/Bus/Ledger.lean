import Mathlib.Logic.Function.Basic
import Cutover.Consumer
import Cutover.Proofs.Bus.Contents

/-! A queue in memory, with a record of what was done to each of its messages. The last thing that was
done to a message tells where it is. -/
namespace Cutover

inductive Deed where
  | published (payload : List UInt8)
  | taken
  /-- The handler is called for an event. -/
  | invoked (e : Event)
  | ended (ending : Ending)
  | acked
  | nacked
  deriving DecidableEq

/-- What may be done to a message, the latest first. A message that carries an event is acknowledged
only when the handler has succeeded with that very event, and released, once, whenever it has not; any
other is acknowledged without a call of the handler. -/
inductive Lawful (payload : List UInt8) : List Deed → Prop where
  | published : Lawful payload [.published payload]
  | taken : Lawful payload [.taken, .published payload]
  | retaken {past : List Deed} (h : Lawful payload (.nacked :: past)) :
    Lawful payload (.taken :: .nacked :: past)
  | invoked {past : List Deed} {e : Event} (h : Lawful payload (.taken :: past))
    (decoded : Event.decode payload = some e) : Lawful payload (.invoked e :: .taken :: past)
  | ended {past : List Deed} {e : Event} (h : Lawful payload (.invoked e :: past)) (ending : Ending) :
    Lawful payload (.ended ending :: .invoked e :: past)
  | acked {past : List Deed} (h : Lawful payload (.ended .succeeded :: past)) :
    Lawful payload (.acked :: .ended .succeeded :: past)
  | nacked {past : List Deed} {ending : Ending} (h : Lawful payload (.ended ending :: past))
    (failed : ending ≠ .succeeded) : Lawful payload (.nacked :: .ended ending :: past)
  | discarded {past : List Deed} (h : Lawful payload (.taken :: past))
    (undecoded : Event.decode payload = none) : Lawful payload (.acked :: .taken :: past)

/-- Where a message is after a deed. -/
def Deed.place : Deed → Option Place
  | .published _ | .nacked => some .waiting
  | .taken | .invoked _ | .ended _ => some .flying
  | .acked => none

theorem Lawful.take {payload : List UInt8} {deeds : List Deed} (lawful : Lawful payload deeds)
    (waits : deeds.head?.bind Deed.place = some .waiting) : Lawful payload (.taken :: deeds) := by
  cases lawful with
  | published => exact .taken
  | nacked h failed => exact .retaken (.nacked h failed)
  | taken | retaken | invoked | ended | acked | discarded => cases waits

theorem Lawful.payload_eq {payload other : List UInt8} {deeds : List Deed} (lawful : Lawful payload deeds)
    (member : .published other ∈ deeds) : other = payload := by
  induction lawful with
  | published => simpa using member
  | taken => simpa using member
  | retaken _ ih | invoked _ _ ih | ended _ _ ih | acked _ ih | nacked _ _ ih | discarded _ _ ih =>
    exact ih (by simpa using member)

theorem Lawful.published_mem {payload : List UInt8} {deeds : List Deed} (lawful : Lawful payload deeds) :
    .published payload ∈ deeds := by
  induction lawful with
  | published | taken => simp
  | retaken _ ih | invoked _ _ ih | ended _ _ ih | acked _ ih | nacked _ _ ih | discarded _ _ ih =>
    exact List.mem_cons_of_mem _ ih

/-- A message is settled once each time that it is taken, unless it is in flight. -/
theorem Lawful.count_taken {payload : List UInt8} {deeds : List Deed} (lawful : Lawful payload deeds) :
    deeds.count .taken = deeds.count .acked + deeds.count .nacked +
      if deeds.head?.bind Deed.place = some .flying then 1 else 0 := by
  induction lawful with
  | published | taken => rfl
  | retaken _ ih | invoked _ _ ih | ended _ _ ih | acked _ ih | nacked _ _ ih | discarded _ _ ih =>
    simp [Deed.place] at ih ⊢
    omega

structure Item where
  place : Place
  id : Nat
  payload : List UInt8

def MemoryBus.items (b : MemoryBus) : List Item :=
  b.queue.map (fun m => ⟨.waiting, m.id, m.payload⟩) ++ b.inflight.map fun m => ⟨.flying, m.id, m.payload⟩

/-- A message without what the queue alone needs to know. -/
def itemOf (p : Place × Message) : Item := ⟨p.1, p.2.id, p.2.payload⟩

theorem MemoryBus.items_eq (b : MemoryBus) : b.items = b.contents.map itemOf := by
  simp [items, contents, itemOf, Function.comp_def]

theorem MemoryBus.ids_items (b : MemoryBus) :
    b.items.map (·.id) = b.queue.map (·.id) ++ b.inflight.map (·.id) := by
  simp [items, Function.comp_def]

/-- A queue, and all that was done to each message, the latest first. -/
structure Ledger where
  bus : MemoryBus
  record : Nat → List Deed

namespace Ledger

def empty : Ledger := ⟨.empty, fun _ => []⟩

def note (x : Ledger) (id : Nat) (d : Deed) : Ledger :=
  { x with record := Function.update x.record id (d :: x.record id) }

def publish (x : Ledger) (payload : List UInt8) : Ledger :=
  { x with bus := x.bus.publish payload }.note x.bus.next (.published payload)

def take (x : Ledger) (now : Nat) : Option (List UInt8 × Nat) × Ledger :=
  match x.bus.take now with
  | (none, bus) => (none, { x with bus })
  | (some (payload, id), bus) => (some (payload, id), { x with bus }.note id .taken)

def ack (x : Ledger) (id : Nat) : Ledger := { x with bus := x.bus.ack id }.note id .acked

def nack (x : Ledger) (now id : Nat) (r : Redelivery) : Ledger :=
  { x with bus := x.bus.nack now id r }.note id .nacked

/-- Every record is lawful, and tells where its message is. -/
structure Sound (x : Ledger) : Prop where
  distinct : (x.bus.items.map (·.id)).Nodup
  held : ∀ i ∈ x.bus.items, Lawful i.payload (x.record i.id) ∧
    (x.record i.id).head?.bind Deed.place = some i.place
  gone : ∀ id, x.record id ≠ [] → id ∉ x.bus.items.map (·.id) →
    (x.record id).head? = some .acked ∧ ∃ payload, Lawful payload (x.record id)
  fresh : ∀ id, x.bus.next ≤ id → x.record id = []

theorem sound_empty : empty.Sound where
  distinct := .nil
  held := by simp [empty, MemoryBus.items, MemoryBus.empty]
  gone := by simp [empty]
  fresh := by simp [empty]

variable {x y : Ledger} {i : Item} {rest : List Item} {d : Deed}

theorem Sound.ne_of_mem (sound : x.Sound) (items : x.bus.items.Perm (i :: rest)) {j : Item}
    (member : j ∈ rest) : j.id ≠ i.id := by
  have distinct := (items.map (·.id)).nodup_iff.1 sound.distinct
  exact fun same => (List.nodup_cons.1 distinct).1 (List.mem_map.2 ⟨j, member, same⟩)

/-- A lawful deed on one message, which brings it where it belongs. -/
theorem Sound.touch (sound : x.Sound) (before : x.bus.items.Perm (i :: rest))
    (after : y.bus.items.Perm ((d.place.map fun place => { i with place }).toList ++ rest))
    (next : y.bus.next = x.bus.next) (record : y.record = Function.update x.record i.id (d :: x.record i.id))
    (lawful : Lawful i.payload (d :: x.record i.id)) : y.Sound := by
  have distinct := (before.map (·.id)).nodup_iff.1 sound.distinct
  have here : y.record i.id = d :: x.record i.id := by rw [record, Function.update_self]
  have elsewhere {id : Nat} (other : id ≠ i.id) : y.record id = x.record id := by
    rw [record, Function.update_of_ne other]
  refine ⟨?_, ?_, ?_, ?_⟩
  · refine (after.map (·.id)).nodup_iff.2 ?_
    cases d.place with
    | some => exact distinct
    | none => exact distinct.of_cons
  · intro j member
    rcases List.mem_append.1 (after.mem_iff.1 member) with moved | other
    · simp only [Option.mem_toList, Option.map_eq_some_iff] at moved
      obtain ⟨place, found, rfl⟩ := moved
      rw [here]
      exact ⟨lawful, by simpa using found⟩
    · rw [elsewhere (sound.ne_of_mem before other)]
      exact sound.held j (before.mem_iff.2 (List.mem_cons_of_mem _ other))
  · intro id some away
    by_cases same : id = i.id
    · subst same
      cases found : d.place with
      | some =>
        rw [(after.map (·.id)).mem_iff, found] at away
        exact absurd List.mem_cons_self away
      | none =>
        -- only an acknowledgement takes a message out of the queue
        rw [here]
        refine ⟨?_, _, lawful⟩
        cases d <;> first | rfl | cases found
    · rw [elsewhere same] at some ⊢
      refine sound.gone id some fun member => ?_
      rw [(before.map (·.id)).mem_iff, List.map_cons, List.mem_cons] at member
      refine away ((after.map (·.id)).mem_iff.2 ?_)
      rw [List.map_append]
      exact List.mem_append_right _ (member.resolve_left same)
  · intro id later
    have earlier := sound.fresh id (next ▸ later)
    rwa [elsewhere]
    rintro rfl
    have known := (sound.held i (before.mem_iff.2 List.mem_cons_self)).2
    simp [earlier] at known

theorem Sound.nodup_flying (sound : x.Sound) : (x.bus.inflight.map (·.id)).Nodup := by
  have distinct := sound.distinct
  rw [MemoryBus.ids_items] at distinct
  exact (List.nodup_append.1 distinct).2.1

/-- A message whose record has it in flight is. -/
theorem Sound.mem_flying {id : Nat} (sound : x.Sound)
    (flying : (x.record id).head?.bind Deed.place = some .flying) : id ∈ x.bus.inflight.map (·.id) := by
  by_cases there : id ∈ x.bus.items.map (·.id)
  · obtain ⟨i, member, rfl⟩ := List.mem_map.1 there
    have place := (sound.held i member).2
    rcases List.mem_append.1 member with waiting | taken
    · obtain ⟨m, -, rfl⟩ := List.mem_map.1 waiting
      rw [flying] at place
      cases place
    · obtain ⟨m, inFlight, rfl⟩ := List.mem_map.1 taken
      exact List.mem_map_of_mem inFlight
  · have some : x.record id ≠ [] := by
      intro none
      simp [none] at flying
    rw [(sound.gone id some there).1] at flying
    cases flying

theorem Sound.record_publish {id : Nat} (sound : x.Sound) (some : x.record id ≠ []) (payload : List UInt8) :
    (x.publish payload).record id = x.record id := by
  have other : id ≠ x.bus.next := by
    rintro rfl
    exact some (sound.fresh _ (Nat.le_refl _))
  simp [Ledger.publish, note, other]

theorem Sound.publish (sound : x.Sound) (payload : List UInt8) : (x.publish payload).Sound := by
  have unused : ∀ i ∈ x.bus.items, i.id ≠ x.bus.next := by
    intro i member same
    have known := (sound.held i member).2
    simp [same, sound.fresh _ (Nat.le_refl _)] at known
  have items : (x.publish payload).bus.items.Perm (⟨.waiting, x.bus.next, payload⟩ :: x.bus.items) := by
    simp only [Ledger.publish, note, MemoryBus.publish, MemoryBus.items, List.map_append, List.map_cons,
      List.map_nil, List.append_assoc, List.singleton_append]
    exact List.perm_middle
  have here : (x.publish payload).record x.bus.next = [.published payload] := by
    simp [Ledger.publish, note, sound.fresh]
  have elsewhere {id : Nat} (other : id ≠ x.bus.next) : (x.publish payload).record id = x.record id := by
    simp [Ledger.publish, note, other]
  refine ⟨?_, ?_, ?_, ?_⟩
  · refine (items.map (·.id)).nodup_iff.2 (List.nodup_cons.2 ⟨?_, sound.distinct⟩)
    simpa using unused
  · intro i member
    rcases List.mem_cons.1 (items.mem_iff.1 member) with rfl | old
    · rw [here]
      exact ⟨.published, rfl⟩
    · rw [elsewhere (unused i old)]
      exact sound.held i old
  · intro id some away
    rw [(items.map (·.id)).mem_iff, List.map_cons, List.mem_cons, not_or] at away
    rw [elsewhere away.1] at some ⊢
    exact sound.gone id some away.2
  · intro id later
    have later : x.bus.next + 1 ≤ id := later
    rw [elsewhere (by omega)]
    exact sound.fresh id (by omega)

theorem Sound.note (sound : x.Sound) (member : i ∈ x.bus.items) (place : d.place = some i.place)
    (lawful : Lawful i.payload (d :: x.record i.id)) : (x.note i.id d).Sound := by
  obtain ⟨before, after, split⟩ := List.append_of_mem member
  have items : x.bus.items.Perm (i :: (before ++ after)) := split ▸ List.perm_middle
  exact sound.touch items (by rw [place]; exact items) rfl rfl lawful

theorem items_take {b c : MemoryBus} {now id : Nat} {payload : List UInt8}
    (taken : b.take now = (some (payload, id), c)) : ∃ rest,
      b.items.Perm (⟨.waiting, id, payload⟩ :: rest) ∧ c.items.Perm (⟨.flying, id, payload⟩ :: rest) ∧
      c.next = b.next ∧ c.inflight.map (·.id) = b.inflight.map (·.id) ++ [id] := by
  obtain ⟨m, rest, rfl, rfl, before, after, flying, next, -⟩ := MemoryBus.contents_take taken
  refine ⟨rest.map itemOf, ?_, ?_, next, by simp [flying]⟩
  · exact MemoryBus.items_eq b ▸ before.map itemOf
  · exact MemoryBus.items_eq c ▸ after.map itemOf

theorem take_none {now : Nat} (taken : x.take now = (none, y)) : y = x := by
  cases found : x.bus.take now with
  | mk message bus =>
    simp only [Ledger.take, found] at taken
    cases message with
    | none =>
      cases taken
      rw [MemoryBus.take_none found]
    | some message => cases taken

theorem Sound.take {now id : Nat} {payload : List UInt8} (sound : x.Sound)
    (taken : x.take now = (some (payload, id), y)) : y.Sound ∧ ⟨.flying, id, payload⟩ ∈ y.bus.items ∧
      y.record = Function.update x.record id (.taken :: x.record id) ∧
      y.bus.inflight.map (·.id) = x.bus.inflight.map (·.id) ++ [id] := by
  cases found : x.bus.take now with
  | mk message bus =>
    simp only [Ledger.take, found] at taken
    cases message with
    | none => cases taken
    | some message =>
      cases taken
      obtain ⟨rest, before, after, next, flying⟩ := items_take found
      obtain ⟨lawful, known⟩ := sound.held _ (before.mem_iff.2 List.mem_cons_self)
      exact ⟨sound.touch (d := .taken) before after next rfl (lawful.take known),
        after.mem_iff.2 List.mem_cons_self, rfl, flying⟩

/-- What settling a message in flight does to a queue. -/
theorem items_settle {b : MemoryBus} {id : Nat} (distinct : (b.items.map (·.id)).Nodup)
    (member : id ∈ b.inflight.map (·.id)) : ∃ payload rest,
      b.items.Perm (⟨.flying, id, payload⟩ :: rest) ∧ (b.ack id).items.Perm rest ∧
      (b.inflight.map (·.id)).Perm (id :: (b.ack id).inflight.map (·.id)) ∧
      ∀ now r, (b.nack now id r).items.Perm (⟨.waiting, id, payload⟩ :: rest) ∧
        (b.nack now id r).inflight = (b.ack id).inflight ∧ (b.nack now id r).next = b.next := by
  obtain ⟨m, here, rfl⟩ := List.mem_map.1 member
  have distinct : (b.contents.map (·.2.id)).Nodup := by
    rwa [MemoryBus.ids_contents, ← MemoryBus.ids_items]
  have others := perm_cons_filter_ne (·.id) (MemoryBus.nodup_flying distinct) here
  refine ⟨m.payload, (b.ack m.id).items, ?_, .refl _, others.map _, fun now r => ⟨?_, ?_, ?_⟩⟩
  · rw [MemoryBus.items_eq, MemoryBus.items_eq]
    exact (MemoryBus.contents_ack distinct here).map itemOf
  · rw [MemoryBus.items_eq, MemoryBus.items_eq]
    exact (MemoryBus.contents_nack distinct here).map itemOf
  · rw [MemoryBus.nack_of_mem _ _ distinct here]
  · rw [MemoryBus.nack_of_mem _ _ distinct here]

theorem Sound.ack {id : Nat} (sound : x.Sound) (member : id ∈ x.bus.inflight.map (·.id))
    (lawful : ∀ i ∈ x.bus.items, i.id = id → Lawful i.payload (.acked :: x.record id)) :
    (x.ack id).Sound ∧
      (x.bus.inflight.map (·.id)).Perm (id :: (x.ack id).bus.inflight.map (·.id)) := by
  obtain ⟨payload, rest, before, gone, flying, -⟩ := items_settle sound.distinct member
  have here := before.mem_iff.2 List.mem_cons_self
  exact ⟨sound.touch (d := .acked) before gone rfl rfl (lawful _ here rfl), flying⟩

theorem Sound.nack {id : Nat} (sound : x.Sound) (now : Nat) (r : Redelivery)
    (member : id ∈ x.bus.inflight.map (·.id))
    (lawful : ∀ i ∈ x.bus.items, i.id = id → Lawful i.payload (.nacked :: x.record id)) :
    (x.nack now id r).Sound ∧
      (x.bus.inflight.map (·.id)).Perm (id :: (x.nack now id r).bus.inflight.map (·.id)) := by
  obtain ⟨payload, rest, before, -, flying, settled⟩ := items_settle sound.distinct member
  obtain ⟨back, inflight, next⟩ := settled now r
  have here := before.mem_iff.2 List.mem_cons_self
  refine ⟨sound.touch (d := .nacked) before back next rfl (lawful _ here rfl), ?_⟩
  simpa only [Ledger.nack, Ledger.note, inflight] using flying

end Ledger
end Cutover
