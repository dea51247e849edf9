import Cutover.Proofs.Bus.Tenancy

/-! When a lease ends, and when a message that was given back is due. Both are told by the clock, in words of
64 bits. A length of time that outgrows such a word is cut, and the point in time that is written can lie in
the past: then the row is not held back at all. -/
namespace Cutover

namespace LeaseTable

/-- Whether the row at a place of the table can be claimed. -/
def free (t : LeaseTable) (i : Nat) (now : Int64) : Bool := t[i]?.any (claimable now)

variable {t : LeaseTable} {i : Nat} {owner : String}

/-- A row that was claimed can be claimed again once its lease has ended. -/
theorem free_claim {expires now : Int64} (first : t.findIdx? (claimable now) = some i) (later : Int64) :
    (t.execute (.claim owner expires now)).2.free i later = decide (expires < later) := by
  obtain ⟨inside, claimed, -⟩ := List.findIdx?_eq_some_iff_getElem.1 first
  obtain ⟨pending, -⟩ : t[i].done = false ∧ t[i].expires < now := by simpa [claimable] using claimed
  simp [free, execute, alterFirst_of_some first, inside, claimable, pending]

/-- A row that was given back can be claimed once it is due, unless it was done. -/
theorem free_release {retryAt id : Int64} (held : t.findIdx? (heldBy id owner) = some i) (later : Int64) :
    (t.execute (.release retryAt id owner)).2.free i later =
      (!(t[i]?.any (·.done)) && decide (retryAt < later)) := by
  obtain ⟨inside, -, -⟩ := List.findIdx?_eq_some_iff_getElem.1 held
  simp [free, execute, alterFirst_of_some held, inside, claimable]

end LeaseTable

/-- What is written for the point in time that is `d` after `now`. It is that point exactly if the sum fits a
word, and it is not past exactly if what a word keeps of `d` leaves the sum within the word. -/
structure Written (now : Int64) (d : Duration) (time : Int64) : Prop where
  exact : time.toInt = now.toInt + d.millis ↔ now.toInt + d.millis < 2 ^ 63
  ahead : now ≤ time ↔ now.toInt + d.millis % 2 ^ 64 < 2 ^ 63

theorem written_add {now : Int64} (clock : 0 ≤ now) (d : Duration) : Written now d (now + d.millisWord) := by
  have low : 0 ≤ now.toInt := Int64.le_iff_toInt_le.1 clock
  have high := now.toInt_lt
  have size : Int64.size = 2 ^ 64 := rfl
  have sum : (now + d.millisWord).toInt = (now.toInt + d.millis).bmod (2 ^ 64) := by
    rw [Int64.toInt_add, Duration.millisWord, Int64.toInt_ofNat', size, Int.add_bmod_bmod]
  constructor
  · rw [sum, Int.bmod_def]
    split <;> omega
  · rw [Int64.le_iff_toInt_le, sum, Int.bmod_def]
    split <;> omega

namespace LeaseQueue

open LeaseTable

/-- Whoever takes a message claims a row until some point in time, and whoever gives one back releases its
row until some point in time. Until then, and no longer, nobody can claim the row. Of that point in time no
more is sure than what `Written` says: when the length of the lease or the delay is so large that the sum
runs over, it lies in the past, and the row can be claimed again at the very same instant. -/
theorem held_until_written (q : LeaseQueue) {now : Int64} (clock : 0 ≤ now) :
    (∀ owner, ∃ expires next, q.take now owner = .ask (.claim owner expires now) next ∧
      Written now q.lease expires ∧
      ∀ (t : LeaseTable) i, t.findIdx? (claimable now) = some i → ∀ later,
        (t.execute (.claim owner expires now)).2.free i later = decide (expires < later)) ∧
    ∀ l r, ∃ retryAt next, q.nack now l r = .ask (.release retryAt l.id l.owner) next ∧
      Written now (r.delay l.attempts) retryAt ∧
      ∀ (t : LeaseTable) i, t.findIdx? (heldBy l.id l.owner) = some i → ∀ later,
        (t.execute (.release retryAt l.id l.owner)).2.free i later =
          (!(t[i]?.any (·.done)) && decide (retryAt < later)) := by
  constructor
  · intro owner
    exact ⟨q.expiry now, _, rfl, written_add clock q.lease, fun _ _ first => free_claim first⟩
  · intro l r
    exact ⟨retryAt now r l.attempts, _, rfl, written_add clock _, fun _ _ held => free_release held⟩

/-- One message that nobody has had yet. -/
def single : LeaseTable := [⟨1, [], 0, none, 0, 0, false⟩]

theorem held_until_written_half_minute : let q : LeaseQueue := ⟨defaultTable, .ofSeconds 30⟩
    0 ≤ (1700000000000 : Int64) ∧ ∃ expires next,
      q.take 1700000000000 "a" = .ask (.claim "a" expires 1700000000000) next ∧
      expires.toInt = 1700000030000 ∧
      (single.execute (.claim "a" expires 1700000000000)).2.free 0 1700000030000 = false := by
  intro q
  have clock : 0 ≤ (1700000000000 : Int64) := by decide
  obtain ⟨expires, next, asked, written, held⟩ := (held_until_written q clock).1 "a"
  have exact : expires.toInt = 1700000030000 := (written.exact.2 (by decide)).trans (by decide)
  refine ⟨clock, expires, next, asked, exact, ?_⟩
  rw [held single 0 (by decide), decide_eq_false_iff_not, Int64.lt_iff_toInt_lt, exact]
  decide

/-- Leases that are meant to last for ever end a second before they begin, so that the message can be claimed
by another consumer at the very same instant; one that is never to be tried again is due at once. -/
theorem ended_before_begun : let never : Duration := .ofSeconds 0x7fffffffffffffff
    let q : LeaseQueue := ⟨defaultTable, never⟩
    q.expiry 1700000000000 = 1699999999000 ∧ retryAt 1700000000000 ⟨never, never⟩ 1 = 1699999999000 ∧
      single.free 0 1700000000000 = true ∧
      (single.execute (.claim "a" (q.expiry 1700000000000) 1700000000000)).2.free 0 1700000000000 = true := by
  decide

end LeaseQueue
end Cutover
