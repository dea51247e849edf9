import Mathlib.Data.List.Perm.Basic
import Mathlib.Data.List.Range
import Cutover.Proofs.Bus.Contents

/-! A queue in memory from outside. From what was done with it, and what it answered, follows the fate of
every message that was ever published: it waits, is in flight, was acknowledged or was drained. The queue
holds the messages of the first two kinds, and keeps every account of them right. Messages are numbered in
the order of their publication. -/
namespace Cutover.Conservation

/-- What may be done with a queue. Any number may be given for a message that is to be settled. -/
inductive Order where
  | publish (payload : List UInt8)
  | produce (e : Event)
  | take
  | ack (id : Nat)
  | nack (id : Nat) (r : Redelivery)
  | drain
  | wait (nanos : Nat)

/-- What was done, with the answer if there was one. -/
inductive Sight where
  | published (payload : List UInt8)
  | taken (answer : Option (List UInt8 × Nat))
  | acked (id : Nat)
  | nacked (id : Nat)
  | drained (events : List Event)

/-- What has become of a message. -/
inductive Fate where
  | held (place : Place)
  | acked
  | drained
  deriving DecidableEq

/-- All that was published, the earliest first. -/
def payloads : List Sight → List (List UInt8)
  | [] => []
  | .published payload :: past => payloads past ++ [payload]
  | _ :: past => payloads past

/-- A message is in flight from being handed out to being settled. Settling any other is of no account. -/
def fate (k : Nat) : List Sight → Option Fate
  | [] => none
  | .published _ :: past => if k = (payloads past).length then some (.held .waiting) else fate k past
  | .taken none :: past => fate k past
  | .taken (some (_, id)) :: past =>
    if k = id ∧ fate k past = some (.held .waiting) then some (.held .flying) else fate k past
  | .acked id :: past =>
    if k = id ∧ fate k past = some (.held .flying) then some .acked else fate k past
  | .nacked id :: past =>
    if k = id ∧ fate k past = some (.held .flying) then some (.held .waiting) else fate k past
  | .drained _ :: past => if fate k past = some (.held .waiting) then some .drained else fate k past

/-- How often a message was handed out. -/
def takings (k : Nat) : List Sight → Nat
  | [] => 0
  | .taken (some (_, id)) :: past => takings k past + if k = id then 1 else 0
  | _ :: past => takings k past

/-- How often a message in flight was released. -/
def releases : List Sight → Nat
  | [] => 0
  | .nacked id :: past => releases past + if fate id past = some (.held .flying) then 1 else 0
  | _ :: past => releases past

theorem payloads_handled {s : Sight} (handled : ∀ payload, s ≠ .published payload) (past : List Sight) :
    payloads (s :: past) = payloads past := by
  cases s with
  | published payload => exact absurd rfl (handled payload)
  | taken | acked | nacked | drained => rfl

/-- Only its publication gives a message a fate, and nothing takes it away. -/
theorem isSome_fate_handled {s : Sight} (handled : ∀ payload, s ≠ .published payload) (k : Nat)
    (past : List Sight) : (fate k (s :: past)).isSome = (fate k past).isSome := by
  cases s with
  | published payload => exact absurd rfl (handled payload)
  | taken answer =>
    cases answer with
    | none => rfl
    | some found =>
      rw [fate]
      split
      next here => rw [here.2]; rfl
      next => rfl
  | acked | nacked =>
    rw [fate]
    split
    next here => rw [here.2]; rfl
    next => rfl
  | drained =>
    rw [fate]
    split
    next here => rw [here]; rfl
    next => rfl

/-- The number of messages that a queue should hold in one place. -/
def census (place : Place) (log : List Sight) : Nat :=
  (List.range (payloads log).length).countP fun k => fate k log = some (.held place)

/-- A queue and a clock, and what was seen of them, the latest first. -/
structure Office where
  bus : MemoryBus
  now : Nat
  log : List Sight

namespace Office

def empty : Office := ⟨.empty, 0, []⟩

def enter (x : Office) (s : Sight) (bus : MemoryBus) : Office := ⟨bus, x.now, s :: x.log⟩

def perform (x : Office) : Order → Office
  | .publish payload => x.enter (.published payload) (x.bus.publish payload)
  | .produce e => x.enter (.published e.encode) (x.bus.produce e)
  | .take => x.enter (.taken (x.bus.take x.now).1) (x.bus.take x.now).2
  | .ack id => x.enter (.acked id) (x.bus.ack id)
  | .nack id r => x.enter (.nacked id) (x.bus.nack x.now id r)
  | .drain => x.enter (.drained x.bus.drain.1) x.bus.drain.2
  | .wait nanos => { x with now := x.now + nanos }

def run (x : Office) (orders : List Order) : Office := orders.foldl perform x

/-- What a queue may hold under a number. -/
def Agrees (log : List Sight) (k : Nat) : Option (Place × Message) → Prop
  | some (place, m) => fate k log = some (.held place) ∧ (payloads log)[k]? = some m.payload ∧
    m.attempts = UInt32.ofNat (takings k log)
  | none => ∀ place, fate k log ≠ some (.held place)

/-- What a taking and a draining may answer. -/
def Truthful (past : List Sight) : Sight → Prop
  | .taken (some (payload, id)) =>
    fate id past = some (.held .waiting) ∧ (payloads past)[id]? = some payload
  | .drained events => ∃ ids : List Nat, ids.Nodup ∧ (∀ k, k ∈ ids ↔ fate k past = some (.held .waiting)) ∧
    events = ids.filterMap fun k => (payloads past)[k]?.bind Event.decode
  | _ => True

/-- Every message is where its fate says, and nowhere else. -/
structure Sound (x : Office) : Prop where
  next : x.bus.next = (payloads x.log).length
  distinct : (x.bus.contents.map (·.2.id)).Nodup
  agrees : ∀ k, Agrees x.log k (x.bus.at? k)
  fated : ∀ k, (fate k x.log).isSome ↔ k < (payloads x.log).length
  untaken : ∀ k, fate k x.log = none → takings k x.log = 0
  redeliveries : x.bus.redeliveries = releases x.log
  truthful : ∀ s past, s :: past <:+ x.log → Truthful past s

theorem sound_empty : empty.Sound where
  next := rfl
  distinct := .nil
  agrees := by simp [empty, Agrees, fate, MemoryBus.empty, MemoryBus.contents, MemoryBus.at?]
  fated := by simp [empty, fate, payloads]
  untaken _ _ := rfl
  redeliveries := rfl
  truthful := by simp [empty]

variable {x : Office} {m : Message} {s : Sight} {k : Nat}

theorem Agrees.cons {log : List Sight} {v : Option (Place × Message)} (agrees : Agrees log k v)
    (same : fate k (s :: log) = fate k log) (taken : takings k (s :: log) = takings k log)
    (kept : ∀ payload, (payloads log)[k]? = some payload → (payloads (s :: log))[k]? = some payload) :
    Agrees (s :: log) k v := by
  cases v with
  | none =>
    intro place
    rw [same]
    exact agrees place
  | some p => exact ⟨same.trans agrees.1, kept _ agrees.2.1, agrees.2.2.trans (congrArg UInt32.ofNat taken.symm)⟩

theorem Sound.held_iff (sound : x.Sound) {place : Place} :
    fate k x.log = some (.held place) ↔ ∃ m, x.bus.at? k = some (place, m) := by
  have agrees := sound.agrees k
  cases found : x.bus.at? k with
  | none =>
    rw [found] at agrees
    simp [agrees place]
  | some p =>
    obtain ⟨there, m⟩ := p
    rw [found] at agrees
    simp [agrees.1]

theorem Sound.waiting_iff (sound : x.Sound) :
    fate k x.log = some (.held .waiting) ↔ k ∈ x.bus.queue.map (·.id) := by
  simp only [sound.held_iff, MemoryBus.at?_eq_waiting_iff sound.distinct, List.mem_map]

theorem Sound.flying_iff (sound : x.Sound) :
    fate k x.log = some (.held .flying) ↔ k ∈ x.bus.inflight.map (·.id) := by
  simp only [sound.held_iff, MemoryBus.at?_eq_flying_iff sound.distinct, List.mem_map]

/-- A sight that was true adds to those that were. -/
theorem Sound.truthful_cons (sound : x.Sound) (truthful : Truthful x.log s) :
    ∀ t past, t :: past <:+ s :: x.log → Truthful past t := by
  intro t past suffix
  rcases List.suffix_cons_iff.1 suffix with same | earlier
  · cases same
    exact truthful
  · exact sound.truthful t past earlier

theorem Sound.publish (sound : x.Sound) (payload : List UInt8) :
    (x.enter (.published payload) (x.bus.publish payload)).Sound := by
  have unknown : fate x.bus.next x.log = none := by
    rw [← Option.not_isSome_iff_eq_none, sound.fated, sound.next]
    exact Nat.lt_irrefl _
  have fresh : x.bus.at? x.bus.next = none := by
    rw [← Option.not_isSome_iff_eq_none, Option.isSome_iff_exists]
    rintro ⟨⟨place, m⟩, found⟩
    have held := sound.held_iff.2 ⟨m, found⟩
    rw [unknown] at held
    cases held
  obtain ⟨distinct, at?⟩ := MemoryBus.at?_publish sound.distinct fresh payload
  refine ⟨?_, distinct, fun k => ?_, fun k => ?_, fun k none => ?_, sound.redeliveries,
    sound.truthful_cons trivial⟩
  · simp [enter, MemoryBus.publish, payloads, sound.next]
  · simp only [enter, at?]
    split
    next here =>
      subst here
      refine ⟨if_pos sound.next, ?_, (congrArg UInt32.ofNat (sound.untaken _ unknown)).symm⟩
      rw [sound.next, payloads, List.getElem?_concat_length]
    next other =>
      refine (sound.agrees k).cons (if_neg fun same => other (sound.next.trans same.symm)) rfl ?_
      intro found there
      obtain ⟨within, -⟩ := List.getElem?_eq_some_iff.1 there
      rw [payloads, List.getElem?_append_left within, there]
  · have fated := sound.fated k
    simp only [enter, fate, payloads, List.length_append, List.length_singleton]
    split
    · simp only [Option.isSome_some, true_iff]
      omega
    · rw [fated]
      omega
  · simp only [enter, fate] at none
    split at none
    · cases none
    · exact sound.untaken k none

/-- What is done with messages that were published before. -/
theorem Sound.handle (sound : x.Sound) {bus : MemoryBus} (handled : ∀ payload, s ≠ .published payload)
    (next : bus.next = x.bus.next) (distinct : (bus.contents.map (·.2.id)).Nodup)
    (agrees : ∀ k, Agrees (s :: x.log) k (bus.at? k))
    (untaken : ∀ k, fate k x.log = none → takings k (s :: x.log) = 0)
    (redeliveries : bus.redeliveries = releases (s :: x.log)) (truthful : Truthful x.log s) :
    (x.enter s bus).Sound where
  next := by rw [enter, payloads_handled handled, next, sound.next]
  distinct := distinct
  agrees := agrees
  fated k := by rw [enter, isSome_fate_handled handled, payloads_handled handled, sound.fated]
  untaken k none := by
    rw [← Option.not_isSome_iff_eq_none, enter, isSome_fate_handled handled,
      Option.not_isSome_iff_eq_none] at none
    exact untaken k none
  redeliveries := redeliveries
  truthful := sound.truthful_cons truthful

theorem Sound.take (sound : x.Sound) :
    (x.enter (.taken (x.bus.take x.now).1) (x.bus.take x.now).2).Sound := by
  cases taken : x.bus.take x.now with
  | mk answer c =>
    cases answer with
    | none =>
      obtain rfl := MemoryBus.take_none taken
      exact sound.handle nofun rfl sound.distinct (fun k => (sound.agrees k).cons rfl rfl fun _ there => there)
        sound.untaken sound.redeliveries trivial
    | some found =>
      obtain ⟨payload, id⟩ := found
      obtain ⟨m, rfl, waits, distinct, at?⟩ := MemoryBus.at?_take sound.distinct taken
      obtain ⟨-, -, -, -, -, -, -, next, redeliveries⟩ := MemoryBus.contents_take taken
      have agrees := sound.agrees id
      rw [waits] at agrees
      obtain ⟨waiting, published, attempts⟩ := agrees
      refine sound.handle nofun next distinct (fun k => ?_) (fun k none => ?_)
        (redeliveries.trans sound.redeliveries) ⟨waiting, published⟩
      · rw [at?]
        split
        next here =>
          subst here
          refine ⟨if_pos ⟨rfl, waiting⟩, published, ?_⟩
          simp only [takings, if_true, attempts, UInt32.ofNat_add, UInt32.ofNat_one]
        next other =>
          refine (sound.agrees k).cons (if_neg fun both => other both.1.symm) ?_ fun _ there => there
          rw [takings, if_neg (Ne.symm other), Nat.add_zero]
      · have apart : k ≠ id := by
          rintro rfl
          rw [waiting] at none
          cases none
        rw [takings, sound.untaken k none, if_neg apart]

theorem Sound.ack (sound : x.Sound) (id : Nat) : (x.enter (.acked id) (x.bus.ack id)).Sound := by
  by_cases flying : fate id x.log = some (.held .flying)
  · obtain ⟨m, there⟩ := sound.held_iff.1 flying
    obtain ⟨distinct, at?⟩ := MemoryBus.at?_ack sound.distinct there
    refine sound.handle nofun rfl distinct (fun k => ?_) sound.untaken sound.redeliveries trivial
    rw [at?]
    split
    next here =>
      subst here
      intro place
      rw [fate, if_pos ⟨rfl, flying⟩]
      rintro ⟨⟩
    next other => exact (sound.agrees k).cons (if_neg fun both => other both.1.symm) rfl fun _ there => there
  · rw [MemoryBus.ack_of_not_mem (mt sound.flying_iff.2 flying)]
    refine sound.handle nofun rfl sound.distinct (fun k => ?_) sound.untaken sound.redeliveries trivial
    refine (sound.agrees k).cons (if_neg ?_) rfl fun _ there => there
    rintro ⟨rfl, here⟩
    exact flying here

theorem Sound.nack (sound : x.Sound) (id : Nat) (r : Redelivery) :
    (x.enter (.nacked id) (x.bus.nack x.now id r)).Sound := by
  by_cases flying : fate id x.log = some (.held .flying)
  · obtain ⟨m, there⟩ := sound.held_iff.1 flying
    obtain ⟨distinct, later, at?⟩ := MemoryBus.at?_nack x.now r sound.distinct there
    obtain ⟨member, rfl⟩ := (MemoryBus.at?_eq_flying_iff sound.distinct).1 there
    have nacked := MemoryBus.nack_of_mem x.now r sound.distinct member
    have agrees := sound.agrees m.id
    rw [there] at agrees
    refine sound.handle nofun (by rw [nacked]) distinct (fun k => ?_) sound.untaken ?_ trivial
    · rw [at?]
      split
      next here =>
        subst here
        exact ⟨if_pos ⟨rfl, flying⟩, agrees.2⟩
      next other => exact (sound.agrees k).cons (if_neg fun both => other both.1.symm) rfl fun _ there => there
    · rw [nacked, releases, if_pos flying, sound.redeliveries]
  · rw [MemoryBus.nack_of_not_mem (mt sound.flying_iff.2 flying)]
    refine sound.handle nofun rfl sound.distinct (fun k => ?_) sound.untaken ?_ trivial
    · refine (sound.agrees k).cons (if_neg ?_) rfl fun _ there => there
      rintro ⟨rfl, here⟩
      exact flying here
    · rw [releases, if_neg flying, sound.redeliveries]
      rfl

theorem Sound.drain (sound : x.Sound) :
    (x.enter (.drained x.bus.drain.1) x.bus.drain.2).Sound := by
  obtain ⟨distinct, at?⟩ := MemoryBus.at?_drain sound.distinct
  -- The drained messages are named by what waited before, in the order of the queue.
  refine sound.handle nofun rfl distinct (fun k => ?_) sound.untaken sound.redeliveries
    ⟨x.bus.queue.map (·.id), ?_, fun k => sound.waiting_iff.symm, ?_⟩
  · rw [at?]
    have agrees := sound.agrees k
    cases held : x.bus.at? k with
    | none =>
      rw [held] at agrees
      exact agrees.cons (if_neg (agrees .waiting)) rfl fun _ there => there
    | some p =>
      obtain ⟨place, m⟩ := p
      rw [held] at agrees
      cases place with
      | waiting =>
        intro place
        rw [fate, if_pos agrees.1]
        rintro ⟨⟩
      | flying => exact agrees.cons (if_neg (by rw [agrees.1]; rintro ⟨⟩)) rfl fun _ there => there
  · have distinct := sound.distinct
    rw [MemoryBus.ids_contents] at distinct
    exact (List.nodup_append.1 distinct).1
  · rw [List.filterMap_map]
    refine List.filterMap_congr fun m member => ?_
    have agrees := sound.agrees m.id
    rw [(MemoryBus.at?_eq_waiting_iff sound.distinct).2 ⟨member, rfl⟩] at agrees
    simp [agrees.2.1]

theorem Sound.perform (sound : x.Sound) (o : Order) : (x.perform o).Sound := by
  cases o with
  | publish payload => exact sound.publish payload
  | produce e => exact sound.publish e.encode
  | take => exact sound.take
  | ack id => exact sound.ack id
  | nack id r => exact sound.nack id r
  | drain => exact sound.drain
  | wait nanos => exact ⟨sound.next, sound.distinct, sound.agrees, sound.fated, sound.untaken,
      sound.redeliveries, sound.truthful⟩

/-- What a queue holds in one place is counted by the fates. -/
theorem Sound.length_eq_census (sound : x.Sound) {place : Place} {held : List Message}
    (distinct : (held.map (·.id)).Nodup)
    (members : ∀ k, fate k x.log = some (.held place) ↔ k ∈ held.map (·.id)) :
    held.length = census place x.log := by
  have perm : (held.map (·.id)).Perm
      ((List.range (payloads x.log).length).filter fun k => fate k x.log = some (.held place)) := by
    refine (List.perm_ext_iff_of_nodup distinct (List.nodup_range.filter _)).2 fun k => ?_
    have known : fate k x.log = some (.held place) → k < (payloads x.log).length := by
      intro held
      rw [← sound.fated, held]
      rfl
    simp only [← members, List.mem_filter, List.mem_range, decide_eq_true_eq]
    exact ⟨fun held => ⟨known held, held⟩, And.right⟩
  rw [census, List.countP_eq_length_filter, ← perm.length_eq, List.length_map]

/-- What the queue holds is as it was published, and counted in a word. -/
theorem Sound.kept (sound : x.Sound) (member : m ∈ x.bus.queue ++ x.bus.inflight) :
    m.id < x.bus.next ∧ (payloads x.log)[m.id]? = some m.payload ∧
      m.attempts = UInt32.ofNat (takings m.id x.log) := by
  have ⟨place, there⟩ : ∃ place, x.bus.at? m.id = some (place, m) := by
    rcases List.mem_append.1 member with queued | taken
    · exact ⟨_, (MemoryBus.at?_eq_waiting_iff sound.distinct).2 ⟨queued, rfl⟩⟩
    · exact ⟨_, (MemoryBus.at?_eq_flying_iff sound.distinct).2 ⟨taken, rfl⟩⟩
  have agrees := sound.agrees m.id
  rw [there] at agrees
  refine ⟨?_, agrees.2⟩
  rw [sound.next, ← sound.fated, agrees.1]
  rfl

/-- Every message has one fate, by which the queue holds it or not; what it holds is as it was published,
and counted right. -/
structure Conserved (x : Office) : Prop where
  numbered : x.bus.next = (payloads x.log).length
  fated : ∀ k, (fate k x.log).isSome ↔ k < x.bus.next
  distinct : ((x.bus.queue ++ x.bus.inflight).map (·.id)).Nodup
  waiting : ∀ k, fate k x.log = some (.held .waiting) ↔ k ∈ x.bus.queue.map (·.id)
  flying : ∀ k, fate k x.log = some (.held .flying) ↔ k ∈ x.bus.inflight.map (·.id)
  kept : ∀ m ∈ x.bus.queue ++ x.bus.inflight, m.id < x.bus.next ∧
    (payloads x.log)[m.id]? = some m.payload ∧ m.attempts = UInt32.ofNat (takings m.id x.log)
  /-- Short of 2³² deliveries the word has the count itself. -/
  counted : ∀ m ∈ x.bus.queue ++ x.bus.inflight, takings m.id x.log < UInt32.size →
    m.attempts.toNat = takings m.id x.log
  pending : x.bus.pending = census .waiting x.log
  inHand : x.bus.inHand = census .flying x.log
  drained : x.bus.drained = true ↔ ∀ k place, fate k x.log ≠ some (.held place)
  redeliveries : x.bus.redeliveries = releases x.log
  truthful : ∀ s past, s :: past <:+ x.log → Truthful past s
  /-- To settle what is not in flight changes nothing. -/
  aloof : ∀ id, fate id x.log ≠ some (.held .flying) →
    x.bus.ack id = x.bus ∧ ∀ now r, x.bus.nack now id r = x.bus

theorem Sound.conserved (sound : x.Sound) : x.Conserved := by
  have distinct : ((x.bus.queue ++ x.bus.inflight).map (·.id)).Nodup := by
    rw [List.map_append, ← MemoryBus.ids_contents]
    exact sound.distinct
  have apart := List.nodup_append.1 (List.map_append ▸ distinct)
  refine ⟨sound.next, fun k => sound.next ▸ sound.fated k, distinct, fun k => sound.waiting_iff,
    fun k => sound.flying_iff, fun _ => sound.kept, fun m member few => ?_,
    sound.length_eq_census apart.1 fun k => sound.waiting_iff,
    sound.length_eq_census apart.2.1 fun k => sound.flying_iff, ?_, sound.redeliveries, sound.truthful,
    fun id other => ?_⟩
  · rw [(sound.kept member).2.2, UInt32.toNat_ofNat_of_lt' few]
  · simp only [MemoryBus.drained, Bool.and_eq_true, List.isEmpty_iff]
    constructor
    · rintro ⟨none, nobody⟩ k place held
      cases place
      · simp [sound.waiting_iff, none] at held
      · simp [sound.flying_iff, nobody] at held
    · intro nowhere
      constructor
      · refine List.eq_nil_iff_forall_not_mem.2 fun m member => ?_
        exact nowhere m.id .waiting (sound.waiting_iff.2 (List.mem_map_of_mem member))
      · refine List.eq_nil_iff_forall_not_mem.2 fun m member => ?_
        exact nowhere m.id .flying (sound.flying_iff.2 (List.mem_map_of_mem member))
  · have away := mt sound.flying_iff.2 other
    exact ⟨MemoryBus.ack_of_not_mem away, fun _ _ => MemoryBus.nack_of_not_mem away⟩

theorem sound_run (orders : List Order) : (empty.run orders).Sound :=
  List.foldlRecOn orders perform sound_empty fun _ sound o _ => sound.perform o

/-- Whatever is done with a queue, no message is lost, doubled or altered: each one waits, is in flight,
was acknowledged or was drained, and the queue can tell. -/
theorem messages_conserved (orders : List Order) : (empty.run orders).Conserved :=
  (sound_run orders).conserved

end Office
end Cutover.Conservation
