import Cutover.Bus.Lease
import Cutover.Bus.Memory

/-! A queue held in memory whose operations can fail on demand. -/
namespace Cutover.Rehearsal

/-- What a queue knows a message by. -/
inductive Ticket where
  | message (id : Nat)
  | lease (l : Lease)

/-- The operations of a queue that can fail on demand. -/
inductive Handover where
  | take
  | ack
  | nack
  deriving DecidableEq

namespace Handover

def all : List Handover := [.take, .ack, .nack]

def name : Handover → String
  | .take => "take"
  | .ack => "ack"
  | .nack => "nack"

end Handover

/-- A queue in memory. Of each operation certain ones, by number, fail. -/
structure Channel where
  bus : MemoryBus
  faults : List (Handover × Nat)
  made : List Handover
  /-- The attempts to settle a message: when, how and which. -/
  settled : List (Nat × Handover × Nat)

namespace Channel

def ofBus (bus : MemoryBus) (faults : List (Handover × Nat)) : Channel := ⟨bus, faults, [], []⟩

instance : Inhabited Channel := ⟨ofBus .empty []⟩

/-- Notes that an operation is made, and tells whether it fails. -/
def make (c : Channel) (h : Handover) : Bool × Channel :=
  (c.faults.contains (h, (c.made.filter (· = h)).length), { c with made := c.made ++ [h] })

/-- The time of the queue's clock. -/
def nanos (now : Nat) : Nat := now * 1000000

def take (c : Channel) (now : Nat) : Option (List UInt8 × Nat) × Channel :=
  match c.make .take with
  | (true, c) => (none, c)
  | (false, c) =>
    let (found, bus) := c.bus.take (nanos now)
    (found, { c with bus })

def ack (c : Channel) (now id : Nat) : Channel :=
  let (fails, c) := c.make .ack
  { c with
    settled := c.settled ++ [(now, .ack, id)]
    bus := if fails then c.bus else c.bus.ack id }

def nack (c : Channel) (now id : Nat) (r : Redelivery) : Channel :=
  let (fails, c) := c.make .nack
  { c with
    settled := c.settled ++ [(now, .nack, id)]
    bus := if fails then c.bus else c.bus.nack (nanos now) id r }

/-- The attempts to settle, by time, then by sort and by message. -/
def settledInOrder (c : Channel) : List (Nat × Handover × Nat) :=
  c.settled.mergeSort fun (t, h, i) (u, k, j) =>
    t < u || t == u && (h.name < k.name || h = k && i ≤ j)

end Channel

end Cutover.Rehearsal
