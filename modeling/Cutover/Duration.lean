/-! Lengths of time, exact to the nanosecond. A length is a whole number of seconds below `2 ^ 64`
and a part of a second; arithmetic that would leave this range stops at its end. -/
namespace Cutover

/-- The first number of nanoseconds that is no duration. -/
def Duration.limit : Nat := 0x10000000000000000 * 1000000000

structure Duration where
  nanos : Nat
  inRange : nanos < Duration.limit
  deriving DecidableEq

namespace Duration

def zero : Duration := ⟨0, by decide⟩

instance : Inhabited Duration := ⟨zero⟩

def max : Duration := ⟨limit - 1, by decide⟩

/-- The duration nearest to a number of nanoseconds. -/
def ofNanos (nanos : Nat) : Duration :=
  if inRange : nanos < limit then ⟨nanos, inRange⟩ else max

def ofMillis (millis : Nat) : Duration := ofNanos (millis * 1000000)

def ofSeconds (seconds : Nat) : Duration := ofNanos (seconds * 1000000000)

def seconds (d : Duration) : Nat := d.nanos / 1000000000

/-- The nanoseconds beyond the whole seconds. -/
def subsecond (d : Duration) : Nat := d.nanos % 1000000000

/-- Whole milliseconds, what is left of the last one dropped. -/
def millis (d : Duration) : Nat := d.nanos / 1000000

/-- The milliseconds that a timer of this length takes: a started one counts. -/
def ticks (d : Duration) : Nat := (d.nanos + 999999) / 1000000

/-- Whole milliseconds as a signed word, the high bits dropped. -/
def millisWord (d : Duration) : Int64 := Int64.ofNat d.millis

def times (d : Duration) (factor : Nat) : Duration := ofNanos (d.nanos * factor)

def lesser (a b : Duration) : Duration := if a.nanos ≤ b.nanos then a else b

theorem nanos_ofNanos (nanos : Nat) : (ofNanos nanos).nanos = min nanos (limit - 1) := by
  unfold ofNanos
  split
  · have : limit - 1 + 1 = limit := by decide
    simp; omega
  · have : limit - 1 + 1 = limit := by decide
    simp [max]; omega

theorem nanos_times (d : Duration) (factor : Nat) :
    (d.times factor).nanos = min (d.nanos * factor) (limit - 1) := nanos_ofNanos _

theorem nanos_lesser (a b : Duration) : (a.lesser b).nanos = min a.nanos b.nanos := by
  unfold lesser; split <;> omega

/-- A fraction of `scale` parts, written after a point without its closing zeros. -/
def fraction (places : Nat) (part : Nat) : String :=
  if part = 0 then "" else
    let digits := (toString part).toList
    let padded := List.replicate (places - digits.length) '0' ++ digits
    "." ++ String.ofList (padded.reverse.dropWhile (· == '0')).reverse

/-- A duration is written in the largest of seconds, milliseconds, microseconds and nanoseconds
that it fills once, with as many decimal places as it needs. -/
def text (d : Duration) : String :=
  if 0 < d.seconds then toString d.seconds ++ fraction 9 d.subsecond ++ "s"
  else if 1000000 ≤ d.nanos then toString (d.nanos / 1000000) ++ fraction 6 (d.nanos % 1000000) ++ "ms"
  else if 1000 ≤ d.nanos then toString (d.nanos / 1000) ++ fraction 3 (d.nanos % 1000) ++ "µs"
  else toString d.nanos ++ "ns"

end Duration
end Cutover
