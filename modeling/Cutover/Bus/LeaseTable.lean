import Cutover.Bus.Lease

/-! The table behind a queue of leases, and what a database makes of the statements of the protocol.
A row is never removed; what changes is its lease, its count of deliveries and whether it is done. -/
namespace Cutover

structure LeaseRow where
  id : Int64
  payload : List UInt8
  created : Int64
  owner : Option String
  expires : Int64
  attempts : Nat
  done : Bool
  deriving DecidableEq

/-- Rows in the order of their numbers, which count from one. -/
abbrev LeaseTable := List LeaseRow

namespace LeaseTable

def claimable (now : Int64) (r : LeaseRow) : Bool := !r.done && r.expires < now

/-- Changes the first row that fits, and says whether there was one. -/
def alterFirst (fits : LeaseRow → Bool) (f : LeaseRow → LeaseRow) : LeaseTable → Nat × LeaseTable
  | [] => (0, [])
  | r :: rest =>
    if fits r then (1, f r :: rest)
    else let (n, rest) := alterFirst fits f rest; (n, r :: rest)

def heldBy (id : Int64) (owner : String) (r : LeaseRow) : Bool := r.id == id && r.owner == some owner

def toRow (r : LeaseRow) : Sql.Row :=
  [⟨"id", .int r.id⟩, ⟨"payload", .bytes r.payload⟩, ⟨"attempts", .int (Int64.ofNat r.attempts)⟩]

def effect (n : Nat) : Sql.Effect := ⟨UInt64.ofNat n, none⟩

def nextId (t : LeaseTable) : Int64 := Int64.ofNat (t.length + 1)

def execute (t : LeaseTable) : (q : LeaseQuery) → q.Reply × LeaseTable
  | .create => (.ok (effect 0), t)
  | .outstanding =>
    (.ok (some [⟨"n", .int (Int64.ofNat (t.filter (!·.done)).length)⟩]), t)
  | .insert payload created =>
    (.ok ⟨1, some (UInt64.ofNat (t.length + 1))⟩, t ++ [⟨t.nextId, payload, created, none, 0, 0, false⟩])
  | .claim owner expires now =>
    let (n, t) := t.alterFirst (claimable now) fun r =>
      { r with owner := some owner, expires, attempts := r.attempts + 1 }
    (.ok (effect n), t)
  | .claimed owner => (.ok ((t.find? fun r => r.owner == some owner && !r.done).map toRow), t)
  | .finish id owner =>
    let (n, t) := t.alterFirst (heldBy id owner) fun r => { r with done := true }
    (.ok (effect n), t)
  | .release retryAt id owner =>
    let (n, t) := t.alterFirst (heldBy id owner) fun r => { r with owner := none, expires := retryAt }
    (.ok (effect n), t)

end LeaseTable
end Cutover
