import Mathlib.Data.List.Nodup
import Cutover.Proofs.Bus.Carrier

/-! What a queue in memory holds, waiting and in flight. Publishing adds a message that waits, taking puts
one in flight that waited, and settling takes one out of flight; no other message is touched. -/
namespace Cutover

theorem perm_cons_filter_ne {α : Type} (key : α → Nat) {l : List α} {x : α} (distinct : (l.map key).Nodup)
    (member : x ∈ l) : l.Perm (x :: l.filter (key · != key x)) := by
  induction l with
  | nil => cases member
  | cons first rest ih =>
    obtain ⟨apart, distinct⟩ := List.nodup_cons.1 distinct
    rcases List.mem_cons.1 member with rfl | later
    · have others : rest.filter (key · != key x) = rest := by
        rw [List.filter_eq_self]
        intro y there
        simp only [bne_iff_ne]
        exact fun same => apart (same ▸ List.mem_map_of_mem there)
      rw [List.filter_cons_of_neg (by simp), others]
    · have differ : key first ≠ key x := fun same => apart (same ▸ List.mem_map_of_mem later)
      rw [List.filter_cons_of_pos (by simpa using differ)]
      exact ((ih distinct later).cons first).trans (.swap ..)

theorem find?_key_eq_some_iff {α : Type} (key : α → Nat) {l : List α} (distinct : (l.map key).Nodup)
    {k : Nat} {x : α} : l.find? (key · == k) = some x ↔ x ∈ l ∧ key x = k := by
  constructor
  · intro found
    exact ⟨List.mem_of_find?_eq_some found, by simpa using List.find?_some found⟩
  · rintro ⟨member, rfl⟩
    obtain ⟨y, found⟩ := Option.isSome_iff_exists.1 <|
      List.find?_isSome (p := fun y => key y == key x).2 ⟨x, member, by simp⟩
    have same : key y = key x := by simpa using List.find?_some found
    rw [found, List.inj_on_of_nodup_map distinct (List.mem_of_find?_eq_some found) member same]

theorem find?_key_perm {α : Type} (key : α → Nat) {l r : List α} (distinct : (l.map key).Nodup)
    (perm : l.Perm r) (k : Nat) : l.find? (key · == k) = r.find? (key · == k) := by
  have also := (perm.map key).nodup_iff.1 distinct
  ext x
  rw [find?_key_eq_some_iff key distinct, find?_key_eq_some_iff key also, perm.mem_iff]

inductive Place where
  | waiting
  | flying
  deriving DecidableEq

namespace MemoryBus

variable {b c : MemoryBus} {m : Message} {now id : Nat} {payload : List UInt8} {r : Redelivery}

def contents (b : MemoryBus) : List (Place × Message) :=
  b.queue.map (.waiting, ·) ++ b.inflight.map (.flying, ·)

theorem ids_contents (b : MemoryBus) :
    b.contents.map (·.2.id) = b.queue.map (·.id) ++ b.inflight.map (·.id) := by
  simp [contents, Function.comp_def]

@[simp] theorem mem_contents_waiting : (.waiting, m) ∈ b.contents ↔ m ∈ b.queue := by simp [contents]

@[simp] theorem mem_contents_flying : (.flying, m) ∈ b.contents ↔ m ∈ b.inflight := by simp [contents]

theorem nodup_flying (distinct : (b.contents.map (·.2.id)).Nodup) : (b.inflight.map (·.id)).Nodup := by
  rw [ids_contents] at distinct
  exact (List.nodup_append.1 distinct).2.1

theorem contents_publish (b : MemoryBus) (payload : List UInt8) :
    (b.publish payload).contents.Perm ((.waiting, ⟨b.next, payload, 0, 0⟩) :: b.contents) := by
  simp only [publish, contents, List.map_append, List.map_cons, List.map_nil, List.append_assoc,
    List.singleton_append]
  exact List.perm_middle

theorem contents_take (taken : b.take now = (some (payload, id), c)) : ∃ m rest,
    m.id = id ∧ m.payload = payload ∧ b.contents.Perm ((.waiting, m) :: rest) ∧
      c.contents.Perm ((.flying, { m with attempts := m.attempts + 1 }) :: rest) ∧
      c.inflight = b.inflight ++ [{ m with attempts := m.attempts + 1 }] ∧
      c.next = b.next ∧ c.redeliveries = b.redeliveries := by
  simp only [take] at taken
  split at taken
  · cases taken
  next m rest found =>
    cases taken
    refine ⟨m, rest.map (.waiting, ·) ++ b.inflight.map (.flying, ·), rfl, rfl, ?_, ?_, rfl, rfl, rfl⟩
    · exact ((pick_spec found).map _).append_right _
    · simp only [contents, List.map_append, List.map_cons, List.map_nil, ← List.append_assoc]
      exact List.perm_append_singleton ..

theorem contents_ack (distinct : (b.contents.map (·.2.id)).Nodup) (flying : m ∈ b.inflight) :
    b.contents.Perm ((.flying, m) :: (b.ack m.id).contents) := by
  have others := perm_cons_filter_ne (·.id) (nodup_flying distinct) flying
  exact ((others.map _).append_left _).trans List.perm_middle

theorem nack_of_mem (now : Nat) (r : Redelivery) (distinct : (b.contents.map (·.2.id)).Nodup)
    (flying : m ∈ b.inflight) :
    b.nack now m.id r =
      { b with
        inflight := (b.ack m.id).inflight
        queue := b.queue ++ [{ m with notBefore := now + (r.delay m.attempts.toNat).nanos }]
        redeliveries := b.redeliveries + 1 } := by
  have found := (find?_key_eq_some_iff (·.id) (nodup_flying distinct)).2 ⟨flying, rfl⟩
  rw [nack, found]
  rfl

theorem contents_nack (distinct : (b.contents.map (·.2.id)).Nodup) (flying : m ∈ b.inflight) :
    (b.nack now m.id r).contents.Perm
      ((.waiting, { m with notBefore := now + (r.delay m.attempts.toNat).nanos }) :: (b.ack m.id).contents) := by
  rw [nack_of_mem now r distinct flying]
  simp only [contents, List.map_append, List.map_cons, List.map_nil, List.append_assoc,
    List.singleton_append]
  exact List.perm_middle

theorem ack_of_not_mem (away : id ∉ b.inflight.map (·.id)) : b.ack id = b := by
  have others : b.inflight.filter (·.id != id) = b.inflight := by
    rw [List.filter_eq_self]
    intro m flying
    simp only [bne_iff_ne]
    rintro rfl
    exact away (List.mem_map_of_mem flying)
  rw [ack, others]

theorem nack_of_not_mem (away : id ∉ b.inflight.map (·.id)) : b.nack now id r = b := by
  have none : b.inflight.find? (·.id == id) = none := by
    rw [List.find?_eq_none]
    intro m flying same
    exact away (List.mem_map.2 ⟨m, flying, by simpa using same⟩)
  rw [nack, none]

/-- A queue seen as a map from numbers to messages and their places. -/
def at? (b : MemoryBus) (id : Nat) : Option (Place × Message) := b.contents.find? (·.2.id == id)

theorem at?_isSome_iff : (b.at? id).isSome ↔ id ∈ b.contents.map (·.2.id) := by
  simp only [at?, List.find?_isSome, List.mem_map, beq_iff_eq]

theorem at?_eq_some_iff (distinct : (b.contents.map (·.2.id)).Nodup) {p : Place × Message} :
    b.at? id = some p ↔ p ∈ b.contents ∧ p.2.id = id :=
  find?_key_eq_some_iff _ distinct

theorem at?_eq_waiting_iff (distinct : (b.contents.map (·.2.id)).Nodup) :
    b.at? id = some (.waiting, m) ↔ m ∈ b.queue ∧ m.id = id := by
  rw [at?_eq_some_iff distinct, mem_contents_waiting]

theorem at?_eq_flying_iff (distinct : (b.contents.map (·.2.id)).Nodup) :
    b.at? id = some (.flying, m) ↔ m ∈ b.inflight ∧ m.id = id := by
  rw [at?_eq_some_iff distinct, mem_contents_flying]

theorem at?_of_perm {p : Place × Message} {rest : List (Place × Message)}
    (distinct : (b.contents.map (·.2.id)).Nodup) (perm : b.contents.Perm (p :: rest)) (k : Nat) :
    b.at? k = if p.2.id = k then some p else rest.find? (·.2.id == k) := by
  refine (find?_key_perm _ distinct perm k).trans ?_
  split
  next here => exact List.find?_cons_of_pos (by simpa using here)
  next other => exact List.find?_cons_of_neg (by simpa using other)

/-- Two queues that differ in one message, which has moved. -/
theorem at?_moved {p q : Place × Message} {rest : List (Place × Message)}
    (distinct : (b.contents.map (·.2.id)).Nodup) (before : b.contents.Perm (p :: rest))
    (after : c.contents.Perm (q :: rest)) (same : q.2.id = p.2.id) :
    (c.contents.map (·.2.id)).Nodup ∧ ∀ k, c.at? k = if p.2.id = k then some q else b.at? k := by
  have keys : (c.contents.map (·.2.id)).Perm (b.contents.map (·.2.id)) := by
    refine (after.map _).trans (.trans ?_ (before.map _).symm)
    rw [List.map_cons, List.map_cons, same]
  have distinct' := keys.nodup_iff.2 distinct
  refine ⟨distinct', fun k => ?_⟩
  rw [at?_of_perm distinct' after, at?_of_perm distinct before, same]
  split <;> rfl

theorem at?_publish (distinct : (b.contents.map (·.2.id)).Nodup) (fresh : b.at? b.next = none)
    (payload : List UInt8) : ((b.publish payload).contents.map (·.2.id)).Nodup ∧
      ∀ k, (b.publish payload).at? k =
        if b.next = k then some (.waiting, ⟨b.next, payload, 0, 0⟩) else b.at? k := by
  have perm := b.contents_publish payload
  have away : b.next ∉ b.contents.map (·.2.id) := by
    rw [← at?_isSome_iff, fresh]
    simp
  have distinct' := (perm.map (·.2.id)).nodup_iff.2 (List.nodup_cons.2 ⟨away, distinct⟩)
  exact ⟨distinct', fun k => at?_of_perm distinct' perm k⟩

theorem at?_take (distinct : (b.contents.map (·.2.id)).Nodup)
    (taken : b.take now = (some (payload, id), c)) : ∃ m, m.payload = payload ∧
      b.at? id = some (.waiting, m) ∧ (c.contents.map (·.2.id)).Nodup ∧
      ∀ k, c.at? k =
        if id = k then some (.flying, { m with attempts := m.attempts + 1 }) else b.at? k := by
  obtain ⟨m, rest, rfl, rfl, before, after, -⟩ := contents_take taken
  have waits : b.at? m.id = some (.waiting, m) := by rw [at?_of_perm distinct before, if_pos rfl]
  exact ⟨m, rfl, waits, at?_moved distinct before after rfl⟩

theorem at?_ack (distinct : (b.contents.map (·.2.id)).Nodup) (flying : b.at? id = some (.flying, m)) :
    ((b.ack id).contents.map (·.2.id)).Nodup ∧
      ∀ k, (b.ack id).at? k = if id = k then none else b.at? k := by
  obtain ⟨member, rfl⟩ := (at?_eq_flying_iff distinct).1 flying
  have perm := contents_ack distinct member
  obtain ⟨away, distinct'⟩ := List.nodup_cons.1 ((perm.map (·.2.id)).nodup_iff.1 distinct)
  refine ⟨distinct', fun k => ?_⟩
  rw [at?_of_perm distinct perm]
  split
  next same =>
    rw [← Option.not_isSome_iff_eq_none, at?_isSome_iff, ← same]
    exact away
  next => rfl

theorem at?_nack (now : Nat) (r : Redelivery) (distinct : (b.contents.map (·.2.id)).Nodup)
    (flying : b.at? id = some (.flying, m)) :
    ((b.nack now id r).contents.map (·.2.id)).Nodup ∧ ∃ later,
      ∀ k, (b.nack now id r).at? k =
        if id = k then some (.waiting, { m with notBefore := later }) else b.at? k := by
  obtain ⟨member, rfl⟩ := (at?_eq_flying_iff distinct).1 flying
  obtain ⟨distinct', moved⟩ :=
    at?_moved distinct (contents_ack distinct member) (contents_nack distinct member) rfl
  exact ⟨distinct', _, moved⟩

theorem at?_drain (distinct : (b.contents.map (·.2.id)).Nodup) :
    (b.drain.2.contents.map (·.2.id)).Nodup ∧
      ∀ k, b.drain.2.at? k = (b.at? k).filter (·.1 = .flying) := by
  have left : b.drain.2.contents = b.inflight.map (.flying, ·) := by simp [drain, contents]
  have distinct' : (b.drain.2.contents.map (·.2.id)).Nodup := by
    simpa [left, Function.comp_def] using nodup_flying distinct
  refine ⟨distinct', fun k => ?_⟩
  ext ⟨place, m⟩
  rw [at?_eq_some_iff distinct', Option.filter_eq_some_iff, at?_eq_some_iff distinct, left]
  cases place <;> simp [contents]

end MemoryBus
end Cutover
