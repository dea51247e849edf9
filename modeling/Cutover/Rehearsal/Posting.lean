import Cutover.Bus.Memory
import Cutover.Rehearsal.ScriptedPool
import Cutover.Bus.Lease

/-! Queues by themselves: one in memory, under a clock that the steps move, and one of leases over a
pool that executes nothing, whose clock stands at zero. -/
namespace Cutover.Rehearsal.Posting

inductive Step where
  | produce (e : Event)
  | publish (payload : List UInt8)
  | take
  | ack (id : Nat)
  | nack (id : Nat) (r : Redelivery)
  | drain
  | advance (ms : Nat)

inductive Entry where
  | nothing
  | message (found : Option (List UInt8 × Nat))
  | events (l : List Event)

def Step.perform (now : Nat) (b : MemoryBus) : Step → Entry × Nat × MemoryBus
  | .produce e => (.nothing, now, b.produce e)
  | .publish payload => (.nothing, now, b.publish payload)
  | .take => let (found, b) := b.take now; (.message found, now, b)
  | .ack id => (.nothing, now, b.ack id)
  | .nack id r => (.nothing, now, b.nack now id r)
  | .drain => let (l, b) := b.drain; (.events l, now, b)
  | .advance ms => (.nothing, now + ms * 1000000, b)

/-- Each step's entry with the queue after it. -/
def run (now : Nat) (b : MemoryBus) : List Step → List (Entry × MemoryBus)
  | [] => []
  | s :: rest =>
    let (entry, now, b) := s.perform now b
    (entry, b) :: run now b rest

/-- A lease that was taken in the course of the rehearsal, or any other. -/
inductive Holding where
  | label (text : String)
  | lease (l : Lease)

inductive LeaseStep where
  | cue (c : Cue)
  | create
  | outstanding
  | produce (e : Event)
  | take (label : String)
  | ack (h : Holding)
  | nack (h : Holding) (r : Redelivery)

inductive LeaseEntry where
  | cued
  | done (r : Except EventError Unit)
  | count (r : Except EventError Int64)
  | taken (r : Except EventError (Option (List UInt8 × Lease)))
  /-- Nothing was taken under the label. -/
  | unlabelled

structure Office where
  queue : LeaseQueue
  pool : ScriptedPool
  taken : List (String × Lease)
  /-- How often something was to be taken. -/
  takes : Nat
  /-- What was asked, each with the call that it took. -/
  asked : List (LeaseQuery × List CallRecord)

namespace Office

def lease? (o : Office) : Holding → Option Lease
  | .label text => o.taken.lookup text
  | .lease l => some l

def answer (q : LeaseQuery) (o : Office) : q.Reply × Office :=
  let (r, pool) := (LeaseQuery.send o.queue.table q).run ScriptedPool.answer o.pool.clearLog
  (r, { o with pool, asked := o.asked ++ [(q, pool.log)] })

def ask (o : Office) (d : LeaseQueue.Asking α) : Except EventError α × Office := d.run (I := leases) answer o

def onHolding (o : Office) (h : Holding) (work : Lease → LeaseQueue.Asking Unit) : LeaseEntry × Office :=
  match o.lease? h with
  | none => (.unlabelled, o)
  | some l => let (r, o) := o.ask (work l); (.done r, o)

/-- The token of the next take. -/
def owner (o : Office) : String := "owner#" ++ toString o.takes

def take (o : Office) (label : String) : LeaseEntry × Office :=
  let (r, o) := o.ask (o.queue.take 0 o.owner)
  let taken := match r with
    | .ok (some (_, l)) => (label, l) :: o.taken
    | _ => o.taken
  (.taken r, { o with taken, takes := o.takes + 1 })

def perform (o : Office) : LeaseStep → LeaseEntry × Office
  | .cue c => (.cued, { o with pool := o.pool.follow c })
  | .create => let (r, o) := o.ask o.queue.create; (.done r, o)
  | .outstanding => let (r, o) := o.ask o.queue.outstanding; (.count r, o)
  | .produce e => let (r, o) := o.ask (o.queue.produce 0 e); (.done r, o)
  | .take label => o.take label
  | .ack h => o.onHolding h o.queue.ack
  | .nack h r => o.onHolding h fun l => o.queue.nack 0 l r

def start (queue : LeaseQueue) : Office := ⟨queue, .fresh "events", [], 0, []⟩

/-- Each step's entry, with what was asked. -/
def run (o : Office) : List LeaseStep → List (LeaseEntry × List (LeaseQuery × List CallRecord))
  | [] => []
  | s :: rest =>
    let (entry, o) := perform { o with asked := [] } s
    (entry, o.asked) :: run o rest

end Office
end Cutover.Rehearsal.Posting
