import Cutover.Event
import Cutover.Metrics
import Cutover.Store.Request

/-! How a comparison of the two stores is to be run. -/
namespace Cutover

/-- Bounds on the delay between tries of a read that fails. -/
structure Backoff where
  min : Duration
  max : Duration
  /-- Percentage of a delay that may be added at random. -/
  jitter : Float

namespace Backoff

inductive Flaw where
  | maxBelowMin
  | maxZero
  | jitterNegative
  | jitterTooLarge
  | jitterNotFinite
  deriving DecidableEq

def Flaw.message : Flaw → String
  | .maxBelowMin => "maximum must not be less than minimum"
  | .maxZero => "maximum must be non-zero"
  | .jitterNegative => "jitter must not be negative"
  | .jitterTooLarge => "jitter must not be greater than 100"
  | .jitterNotFinite => "jitter must be finite"

/-- The first thing wrong with the bounds. -/
def flaw (b : Backoff) : Option Flaw :=
  if b.max.nanos < b.min.nanos then some .maxBelowMin
  else if b.max.nanos = 0 then some .maxZero
  else if b.jitter < 0 then some .jitterNegative
  else if 100 < b.jitter then some .jitterTooLarge
  else if !b.jitter.isFinite then some .jitterNotFinite
  else none

/-- The delay after the `k`-th failure in a row, counted from one, with nothing added at random. The
doubling stops where the factor would leave a word of 32 bits. -/
def delay (b : Backoff) (k : Nat) : Duration :=
  (b.min.times (Nat.min (Nat.pow 2 (k - 1)) (0xffffffff))).lesser b.max

def standard : Backoff := ⟨.ofMillis 100, .ofMillis 5000, 10⟩

end Backoff

namespace Validation

/-- Which records of the base are compared. -/
inductive Mode where
  | full
  /-- Those updated after a watermark. -/
  | incremental
  deriving DecidableEq

def Mode.name : Mode → String
  | .full => "full"
  | .incremental => "incr"

structure Settings where
  /-- The store taken for the truth. -/
  base : Side
  /-- The direction that events are marked with. -/
  direction : Side
  mode : Mode
  /-- The watermark. -/
  utime : Int64
  /-- The pause at the end of the data; without one the comparison ends there. -/
  interval : Duration
  batchSize : Nat
  batchTimeout : Duration
  publishTimeout : Duration
  backoff : Backoff

/-- What the operator may tune. -/
structure Tuning where
  batchSize : Nat
  batchTimeout : Duration
  publishTimeout : Duration
  backoffMin : Duration
  backoffMax : Duration

def Tuning.standard : Tuning :=
  ⟨100, .ofMillis 1000, .ofMillis 1000, Backoff.standard.min, Backoff.standard.max⟩

inductive Error where
  | backoff (flaw : Backoff.Flaw)
  | batchSize
  | read (store : String) (cause : StoreError)

def Error.message : Error → String
  | .backoff flaw => "Invalid backoff parameters: invalid backoff: " ++ flaw.message
  | .batchSize => "The batch size must be positive"
  | .read store cause => "Unrecoverable error reading " ++ store ++ ": " ++ cause.message

namespace Settings

def target (s : Settings) : Side := s.base.other

/-- A comparison of everything, once. -/
def whole (direction : Side) (t : Tuning) : Settings where
  base := direction
  direction := direction
  mode := .full
  utime := 0
  interval := .zero
  batchSize := t.batchSize
  batchTimeout := t.batchTimeout
  publishTimeout := t.publishTimeout
  backoff := ⟨t.backoffMin, t.backoffMax, Backoff.standard.jitter⟩

/-- What is wrong with the settings, before anything is read. -/
def flaw (s : Settings) : Option Error :=
  if s.batchSize = 0 then some .batchSize else s.backoff.flaw.map .backoff

end Settings
end Validation
end Cutover
