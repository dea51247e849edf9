import Cutover.Event

/-! Publication of the events of one batch. They are attempted in order, each once, and a bounded
number of attempts is under way at a time. -/
namespace Cutover.Validation

/-- How many attempts may be under way. -/
def width : Nat := 16

structure Burst where
  waiting : List Event
  outstanding : List Event
  deriving DecidableEq

namespace Burst

/-- Begins as many attempts as there is room for. -/
def fill (b : Burst) : Burst :=
  let room := width - b.outstanding.length
  ⟨b.waiting.drop room, b.outstanding ++ b.waiting.take room⟩

def start (events : List Event) : Burst := fill ⟨events, []⟩

/-- An attempt has ended, which makes room for the next. -/
def settle (b : Burst) (e : Event) : Burst := fill ⟨b.waiting, b.outstanding.erase e⟩

def finished (b : Burst) : Bool := b.waiting.isEmpty && b.outstanding.isEmpty

theorem outstanding_fill_le {b : Burst} (h : b.outstanding.length ≤ width) :
    b.fill.outstanding.length ≤ width := by
  simp only [fill, List.length_append, List.length_take]
  omega

end Burst
end Cutover.Validation
