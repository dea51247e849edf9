import Mathlib.Algebra.Group.Nat.Defs
import Cutover.Event
import Cutover.Validation.Settings

/-! Delays that double. A message that failed and a scan that failed are both tried again after a delay that
is one length of time at first, doubles with each failure in a row, and stops growing at another. The factor
is kept in a word of 32 bits. -/
namespace Cutover.Doubling

/-- The delay after the `n`-th failure in a row, in nanoseconds, were there no bound on the factor. -/
def nanos (first last : Duration) (n : Nat) : Nat := min (first.nanos * 2 ^ (n - 1)) last.nanos

/-- Where a product is cut down to `last`, it does not matter that no duration is longer than some. -/
theorem nanos_times_lesser (first last : Duration) (factor : Nat) :
    ((first.times factor).lesser last).nanos = min (first.nanos * factor) last.nanos := by
  have bound := last.inRange
  rw [Duration.nanos_lesser, Duration.nanos_times]
  omega

theorem nanos_delay_backoff (b : Backoff) {k : Nat} (few : k ≤ 32) :
    (b.delay k).nanos = nanos b.min b.max k := by
  have fits : 2 ^ (k - 1) ≤ 2 ^ 31 := Nat.pow_le_pow_right (by omega) (by omega)
  have factor : Nat.min (2 ^ (k - 1)) 0xffffffff = 2 ^ (k - 1) := Nat.min_eq_left (by omega)
  rw [Backoff.delay, Nat.pow_eq, factor, nanos_times_lesser, nanos]

theorem nanos_delay_redelivery (r : Redelivery) (n : Nat) :
    (r.delay n).nanos = min (r.min.nanos * 2 ^ min (n - 1) 31) r.max.nanos :=
  nanos_times_lesser r.min r.max (Redelivery.factor n)

/-- The delay of a message that failed doubles up to its thirty-second delivery, and from then on stays what
it is. So it is as long as it should be unless the bound on it lies beyond the thirty-first doubling; then it
is too short for every delivery after that. -/
theorem delay_doubles_until (r : Redelivery) (n : Nat) :
    ((r.delay n).nanos = nanos r.min r.max n ↔
      n ≤ 32 ∨ r.min.nanos = 0 ∨ r.max.nanos ≤ r.min.nanos * 2 ^ 31) ∧
    (r.delay n).nanos ≤ nanos r.min r.max n ∧ (32 ≤ n → r.delay n = r.delay 32) := by
  rw [nanos_delay_redelivery, nanos]
  refine ⟨?_, ?_, fun late => ?_⟩
  · rcases Nat.lt_or_ge 32 n with late | early
    · have stopped : min (n - 1) 31 = 31 := by omega
      have doubled : 2 ^ 32 ≤ 2 ^ (n - 1) := Nat.pow_le_pow_right (by omega) (by omega)
      rw [stopped]
      rcases Nat.eq_zero_or_pos r.min.nanos with none | some
      · simp [none]
      · have longer : r.min.nanos * 2 ^ 31 < r.min.nanos * 2 ^ (n - 1) :=
          Nat.mul_lt_mul_of_pos_left (by omega) some
        omega
    · have going : min (n - 1) 31 = n - 1 := by omega
      rw [going]
      exact iff_of_true rfl (.inl early)
  · have fewer : 2 ^ min (n - 1) 31 ≤ 2 ^ (n - 1) := Nat.pow_le_pow_right (by omega) (by omega)
    have shorter := Nat.mul_le_mul_left r.min.nanos fewer
    omega
  · have stopped : Nat.min (n - 1) 31 = Nat.min (32 - 1) 31 := by
      show min (n - 1) 31 = 31
      omega
    rw [Redelivery.delay, Redelivery.delay, Redelivery.factor, Redelivery.factor, stopped]

/-- One nanosecond at first and five seconds at most: the thirty-third delay is half of what it should be. -/
theorem delay_cut_short : let r : Redelivery := ⟨.ofNanos 1, .ofSeconds 5⟩
    (r.delay 33).nanos = 2147483648 ∧ nanos r.min r.max 33 = 4294967296 := by
  decide

end Cutover.Doubling
