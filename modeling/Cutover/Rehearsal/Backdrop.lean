import Cutover.Rehearsal.World

/-! What comparisons and consumers meet on the stage: how a store answers, how events travel and what
handling one comes to. A set-up may be replaced by another in the course of a rehearsal, so each of
these is told which one is meant. -/
namespace Cutover.Rehearsal

structure Backdrop (X : Type) where
  store : (generation : Nat) → Side → (q : Store.Request) → Play X (Store.Result q)
  /-- Whether the event could be published. -/
  publish : (generation : Nat) → Event → Play X Bool
  take : (generation : Nat) → Play X (Option (List UInt8 × Ticket))
  ack : (generation : Nat) → Ticket → Play X Unit
  nack : (generation : Nat) → Ticket → Redelivery → Play X Unit
  handle : (generation task : Nat) → Event → Play X Ending
  errand : Nat → Play X Bool
  main : Play X Bool

variable {X : Type}

/-- The stores in memory, seen by whoever asks. -/
def visitAny (_ : Nat) (side : Side) (q : Store.Request) : Play X (Store.Result q) := visit side q

/-- The queue in memory. -/
def takeMessage (_ : Nat) : Play X (Option (List UInt8 × Ticket)) := Script.actAt fun now w =>
  let (found, channel) := w.channel.take now
  (found.map fun (payload, id) => (payload, .message id), { w with channel })

def ackMessage (_ : Nat) : Ticket → Play X Unit
  | .message id => Script.actAt fun now w => ((), { w with channel := w.channel.ack now id })
  | .lease _ => pure ()

def nackMessage (_ : Nat) (t : Ticket) (r : Redelivery) : Play X Unit :=
  match t with
  | .message id => Script.actAt fun now w => ((), { w with channel := w.channel.nack now id r })
  | .lease _ => pure ()

def publishMessage (_ : Nat) (e : Event) : Play X Bool := Script.act fun w =>
  (true, { w with channel := { w.channel with bus := w.channel.bus.produce e } })

/-- A rehearsal with stores and a queue in memory, and nothing that handles an event. -/
def Backdrop.inMemory (main : Play X Bool) : Backdrop X where
  store := visitAny
  publish := publishMessage
  take := takeMessage
  ack := ackMessage
  nack := nackMessage
  handle _ _ _ := pure .succeeded
  errand _ := pure false
  main := main

/-- Asks the stores of a set-up. -/
def Backdrop.consult (b : Backdrop X) (generation : Nat) (d : Dialogue stores α) : Play X α :=
  Script.play (I := stores) (fun q => b.store generation q.1 q.2) d

end Cutover.Rehearsal
