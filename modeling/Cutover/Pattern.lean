/-! The routing modes of a migration. A migration walks through them in order: the source alone,
the source with the destination following, the destination with the source following, so that the
way back stays open, and the destination alone. -/
namespace Cutover

/-- One of the two databases. As the direction of a comparison it is the one taken for the truth. -/
inductive Side where
  | src
  | dst
  deriving DecidableEq, Inhabited

namespace Side

def other : Side → Side
  | .src => .dst
  | .dst => .src

def name : Side → String
  | .src => "src"
  | .dst => "dst"

/-- The direction that takes this side for the truth. -/
def label : Side → String
  | .src => "SRC"
  | .dst => "DST"

def all : List Side := [.src, .dst]

@[simp] theorem other_other (s : Side) : s.other.other = s := by cases s <;> rfl

theorem other_ne (s : Side) : s.other ≠ s := by cases s <;> decide

end Side

inductive Pattern where
  | srcOnly
  | srcFirst
  | dstFirst
  | dstOnly
  deriving DecidableEq, Inhabited

inductive PatternError where
  | unknownName (text : String)
  | unknownCode (value : UInt8)

def PatternError.message : PatternError → String
  | .unknownName text => text ++ " is not a dual-write pattern"
  | .unknownCode value => toString value.toNat ++ " does not encode a dual-write pattern"

namespace Pattern

def all : List Pattern := [.srcOnly, .srcFirst, .dstFirst, .dstOnly]

def name : Pattern → String
  | .srcOnly => "src_only"
  | .srcFirst => "src_first"
  | .dstFirst => "dst_first"
  | .dstOnly => "dst_only"

def code : Pattern → UInt8
  | .srcOnly => 0
  | .srcFirst => 1
  | .dstFirst => 2
  | .dstOnly => 3

/-- The side that serves reads and takes a write first. It is also the side that comparisons take
for the truth. -/
def primary : Pattern → Side
  | .srcOnly | .srcFirst => .src
  | .dstFirst | .dstOnly => .dst

def secondary (p : Pattern) : Side := p.primary.other

/-- Whether writes go to the secondary as well. -/
def dual : Pattern → Bool
  | .srcFirst | .dstFirst => true
  | .srcOnly | .dstOnly => false

def ofName? (text : String) : Option Pattern := all.find? (·.name == text)

def ofName (text : String) : Except PatternError Pattern :=
  match ofName? text with
  | some p => .ok p
  | none => .error (.unknownName text)

def ofCode (value : UInt8) : Except PatternError Pattern :=
  match all.find? (·.code == value) with
  | some p => .ok p
  | none => .error (.unknownCode value)

theorem ofName?_eq_some_iff (text : String) (p : Pattern) : ofName? text = some p ↔ p.name = text := by
  constructor
  · intro found
    simpa using List.find?_some found
  · rintro rfl
    cases p <;> decide

end Pattern
end Cutover
