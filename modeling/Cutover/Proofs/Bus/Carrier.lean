import Mathlib.Data.List.Basic
import Cutover.Bus.LeaseTable
import Cutover.Bus.Memory

/-! What a queue of messages carries. No queue makes a payload up: all that it holds, and all that it
hands out, was published. -/
namespace Cutover

/-- A queue, seen from outside. -/
structure Carrier where
  State : Type
  /-- What is noted when an event is published. -/
  Stamp : Type
  /-- What else is done with the queue. -/
  Act : Type
  empty : State
  /-- The payloads of all messages that it holds. -/
  payloads : State → List (List UInt8)
  produce : Stamp → Event → State → State
  /-- Some acts hand a message out. -/
  act : Act → State → Option (List UInt8) × State
  payloads_empty : payloads empty = []
  mem_produce : ∀ {stamp e b x}, x ∈ payloads (produce stamp e b) → x ∈ payloads b ∨ x = e.encode
  mem_act : ∀ {a b x}, x ∈ payloads (act a b).2 → x ∈ payloads b
  handed : ∀ {a b x}, (act a b).1 = some x → x ∈ payloads b

theorem Carrier.mem_produceAll {k : Carrier} {stamp : k.Stamp} {news : List Event} {b : k.State}
    {x : List UInt8} (member : x ∈ k.payloads (news.foldl (fun b e => k.produce stamp e b) b)) :
    x ∈ k.payloads b ∨ ∃ e ∈ news, x = e.encode := by
  induction news generalizing b with
  | nil => exact .inl member
  | cons first rest ih =>
    rcases ih member with before | ⟨e, later, same⟩
    · rcases k.mem_produce before with old | new
      · exact .inl old
      · exact .inr ⟨first, List.mem_cons_self, new⟩
    · exact .inr ⟨e, List.mem_cons_of_mem _ later, same⟩

namespace MemoryBus

variable {b c : MemoryBus} {now id : Nat} {payload x : List UInt8}

/-- The payloads of all messages, waiting or in flight. -/
def payloads (b : MemoryBus) : List (List UInt8) := (b.queue ++ b.inflight).map (·.payload)

theorem mem_payloads : x ∈ b.payloads ↔ ∃ m, (m ∈ b.queue ∨ m ∈ b.inflight) ∧ m.payload = x := by
  simp only [payloads, List.mem_map, List.mem_append]

theorem mem_payloads_produce {e : Event} (member : x ∈ (b.produce e).payloads) :
    x ∈ b.payloads ∨ x = e.encode := by
  simp only [mem_payloads, produce, publish, List.mem_append, List.mem_singleton] at member ⊢
  obtain ⟨m, (waiting | rfl) | flying, rfl⟩ := member
  · exact .inl ⟨m, .inl waiting, rfl⟩
  · exact .inr rfl
  · exact .inl ⟨m, .inr flying, rfl⟩

theorem pick_spec {l rest : List Message} {m : Message} (found : pick now l = some (m, rest)) :
    l.Perm (m :: rest) := by
  induction l generalizing rest with
  | nil => cases found
  | cons first others ih =>
    simp only [pick] at found
    split at found
    · cases found
      exact .refl _
    · obtain ⟨⟨later, kept⟩, there, same⟩ := Option.map_eq_some_iff.1 found
      cases same
      exact ((ih there).cons first).trans (.swap ..)

theorem mem_payloads_take (taken : b.take now = (some (payload, id), c)) :
    payload ∈ b.payloads ∧ ∀ x ∈ c.payloads, x ∈ b.payloads := by
  simp only [take] at taken
  split at taken
  · cases taken
  next m rest found =>
    cases taken
    have perm := pick_spec found
    refine ⟨mem_payloads.2 ⟨m, .inl (perm.mem_iff.2 List.mem_cons_self), rfl⟩, fun x member => ?_⟩
    simp only [mem_payloads, List.mem_append, List.mem_singleton] at member ⊢
    obtain ⟨k, waiting | flying | rfl, rfl⟩ := member
    · exact ⟨k, .inl (perm.mem_iff.2 (List.mem_cons_of_mem _ waiting)), rfl⟩
    · exact ⟨k, .inr flying, rfl⟩
    · exact ⟨m, .inl (perm.mem_iff.2 List.mem_cons_self), rfl⟩

theorem take_none (taken : b.take now = (none, c)) : c = b := by
  simp only [take] at taken
  split at taken
  · cases taken
    rfl
  · cases taken

theorem mem_payloads_ack (member : x ∈ (b.ack id).payloads) : x ∈ b.payloads := by
  simp only [mem_payloads, ack, List.mem_filter] at member ⊢
  obtain ⟨m, waiting | ⟨flying, -⟩, rfl⟩ := member
  · exact ⟨m, .inl waiting, rfl⟩
  · exact ⟨m, .inr flying, rfl⟩

theorem mem_payloads_nack {r : Redelivery} (member : x ∈ (b.nack now id r).payloads) :
    x ∈ b.payloads := by
  simp only [nack] at member
  split at member
  · exact member
  next m found =>
    simp only [mem_payloads, List.mem_append, List.mem_singleton, List.mem_filter] at member ⊢
    obtain ⟨k, (waiting | rfl) | ⟨flying, -⟩, rfl⟩ := member
    · exact ⟨k, .inl waiting, rfl⟩
    · exact ⟨m, .inr (List.mem_of_find?_eq_some found), rfl⟩
    · exact ⟨k, .inr flying, rfl⟩

inductive Act where
  | take (now : Nat)
  | ack (id : Nat)
  | nack (now id : Nat) (r : Redelivery)

def act (b : MemoryBus) : Act → Option (List UInt8) × MemoryBus
  | .take now => ((b.take now).1.map (·.1), (b.take now).2)
  | .ack id => (none, b.ack id)
  | .nack now id r => (none, b.nack now id r)

theorem mem_payloads_act {a : Act} (member : x ∈ (b.act a).2.payloads) : x ∈ b.payloads := by
  cases a with
  | take now =>
    cases taken : b.take now with
    | mk found c =>
      simp only [act, taken] at member
      cases found with
      | none =>
        rwa [take_none taken] at member
      | some found => exact (mem_payloads_take taken).2 x member
  | ack id => exact mem_payloads_ack member
  | nack now id r => exact mem_payloads_nack member

theorem handed_act {a : Act} (handed : (b.act a).1 = some x) : x ∈ b.payloads := by
  cases a with
  | take now =>
    obtain ⟨⟨payload, id⟩, taken, rfl⟩ := Option.map_eq_some_iff.1 handed
    exact (mem_payloads_take (Prod.ext taken rfl)).1
  | ack id => cases handed
  | nack now id r => cases handed

abbrev carrier : Carrier where
  State := MemoryBus
  Stamp := Unit
  Act := Act
  empty := .empty
  payloads := payloads
  produce _ e b := b.produce e
  act a b := b.act a
  payloads_empty := rfl
  mem_produce := mem_payloads_produce
  mem_act := mem_payloads_act
  handed := handed_act

end MemoryBus

namespace LeaseTable

variable {t : LeaseTable} {q : LeaseQuery} {x : List UInt8}

def payloads (t : LeaseTable) : List (List UInt8) := t.map (·.payload)

/-- What a change keeps of a row stays in its place. -/
theorem map_alterFirst {α : Type} (t : LeaseTable) (fits : LeaseRow → Bool) {f : LeaseRow → LeaseRow} {g : LeaseRow → α}
    (keeps : ∀ r, g (f r) = g r) : (t.alterFirst fits f).2.map g = t.map g := by
  induction t with
  | nil => rfl
  | cons r rest ih =>
    by_cases here : fits r = true
    · simp [alterFirst, here, keeps]
    · simpa [alterFirst, here] using ih

/-- The statements other than the one that publishes. -/
abbrev Act := { q : LeaseQuery // ¬q matches .insert .. }

/-- The payload of the message that a statement hands out. -/
def handOut : (q : LeaseQuery) → q.Reply → Option (List UInt8)
  | .claimed owner, .ok (some row) => (LeaseQueue.leaseOf owner row).toOption.map (·.1)
  | _, _ => none

def act (a : Act) (t : LeaseTable) : Option (List UInt8) × LeaseTable :=
  (handOut a.1 (t.execute a.1).1, (t.execute a.1).2)

theorem payloads_act (a : Act) (t : LeaseTable) : (act a t).2.payloads = t.payloads := by
  obtain ⟨q, other⟩ := a
  cases q with
  | insert => exact absurd rfl other
  | claim owner expires now => exact map_alterFirst t _ fun _ => rfl
  | finish id owner => exact map_alterFirst t _ fun _ => rfl
  | release retryAt id owner => exact map_alterFirst t _ fun _ => rfl
  | create | outstanding | claimed => rfl

/-- A row that is read back makes a lease of it. -/
theorem leaseOf_toRow (owner : String) (r : LeaseRow) : LeaseQueue.leaseOf owner (toRow r) =
    .ok (r.payload, ⟨r.id, owner, LeaseQueue.attemptsOf (Int64.ofNat r.attempts)⟩) := by
  simp [LeaseQueue.leaseOf, toRow, Sql.Row.int64, Sql.Row.bytes, Sql.Row.require, Sql.Row.get?,
    Name.same, Name.fold, bind, Except.bind, pure, Except.pure]

theorem handed_act {a : Act} (handed : (act a t).1 = some x) : x ∈ t.payloads := by
  obtain ⟨q, other⟩ := a
  cases q with
  | claimed owner =>
    simp only [act, execute] at handed
    cases found : t.find? fun r => r.owner == some owner && !r.done with
    | none =>
      rw [found] at handed
      cases handed
    | some r =>
      simp only [found, Option.map_some, handOut, leaseOf_toRow, Except.toOption, Option.some.injEq] at handed
      exact List.mem_map.2 ⟨r, List.mem_of_find?_eq_some found, handed⟩
  | _ => cases handed

abbrev carrier : Carrier where
  State := LeaseTable
  Stamp := Int64
  Act := Act
  empty := []
  payloads := payloads
  produce created e t := (t.execute (.insert e.encode created)).2
  act := act
  payloads_empty := rfl
  mem_produce := by simp [payloads, execute]
  mem_act := by simp [payloads_act]
  handed := handed_act

end LeaseTable
end Cutover
