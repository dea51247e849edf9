import Cutover.Event

/-! A queue of messages within one process. A message that is taken is out of sight until it is
settled: acknowledged, and gone, or released, and back at the end of the queue, where it is held
back for a while. Times are nanoseconds of one clock. -/
namespace Cutover

structure Message where
  id : Nat
  payload : List UInt8
  /-- How often it was taken, in a word of 32 bits. -/
  attempts : UInt32
  /-- It is not handed out before this time. -/
  notBefore : Nat
  deriving DecidableEq

structure MemoryBus where
  /-- The number of the next message. -/
  next : Nat
  queue : List Message
  inflight : List Message
  redeliveries : Nat

namespace MemoryBus

def empty : MemoryBus := ⟨0, [], [], 0⟩

instance : Inhabited MemoryBus := ⟨empty⟩

def publish (b : MemoryBus) (payload : List UInt8) : MemoryBus :=
  { b with next := b.next + 1, queue := b.queue ++ [⟨b.next, payload, 0, 0⟩] }

def produce (b : MemoryBus) (e : Event) : MemoryBus := b.publish e.encode

def ready (now : Nat) (m : Message) : Bool := m.notBefore ≤ now

/-- The first message that is ready, and the others. -/
def pick (now : Nat) : List Message → Option (Message × List Message)
  | [] => none
  | m :: rest =>
    if ready now m then some (m, rest) else (pick now rest).map fun (found, rest) => (found, m :: rest)

/-- Hands out the first message that is ready, with its number. -/
def take (b : MemoryBus) (now : Nat) : Option (List UInt8 × Nat) × MemoryBus :=
  match pick now b.queue with
  | none => (none, b)
  | some (m, rest) =>
    (some (m.payload, m.id),
      { b with queue := rest, inflight := b.inflight ++ [{ m with attempts := m.attempts + 1 }] })

def ack (b : MemoryBus) (id : Nat) : MemoryBus :=
  { b with inflight := b.inflight.filter (·.id != id) }

def nack (b : MemoryBus) (now : Nat) (id : Nat) (r : Redelivery) : MemoryBus :=
  match b.inflight.find? (·.id == id) with
  | none => b
  | some m =>
    { b with
      inflight := b.inflight.filter (·.id != id)
      queue := b.queue ++ [{ m with notBefore := now + (r.delay m.attempts.toNat).nanos }]
      redeliveries := b.redeliveries + 1 }

/-- Empties the queue, past the protocol of taking and settling. -/
def drain (b : MemoryBus) : List Event × MemoryBus :=
  (b.queue.filterMap fun m => Event.decode m.payload, { b with queue := [] })

def pending (b : MemoryBus) : Nat := b.queue.length

def inHand (b : MemoryBus) : Nat := b.inflight.length

def drained (b : MemoryBus) : Bool := b.queue.isEmpty && b.inflight.isEmpty

end MemoryBus
end Cutover
