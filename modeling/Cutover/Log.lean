import Cutover.Decimal.Reading

/-! Logs. A record has a level and comes from a target. Which records are kept is said by directives:
each one tells, for the targets that begin with its own, how far down the levels go. Of several
that apply the longest counts, and of equal ones the last. -/
namespace Cutover.Log

inductive Level where
  | error
  | warn
  | info
  | debug
  | trace
  deriving DecidableEq

namespace Level

def name : Level → String
  | .error => "ERROR"
  | .warn => "WARN"
  | .info => "INFO"
  | .debug => "DEBUG"
  | .trace => "TRACE"

/-- How far down a level is. -/
def depth : Level → Nat
  | .error => 1
  | .warn => 2
  | .info => 3
  | .debug => 4
  | .trace => 5

def all : List Level := [.error, .warn, .info, .debug, .trace]

end Level

structure Record where
  level : Level
  message : String
  deriving DecidableEq

/-- The variable of the environment that holds directives. -/
def variableName : String := "RUST_LOG"

structure Directive where
  /-- What the targets begin with. -/
  target : String
  /-- The depth down to which records are kept; nothing is kept at zero. -/
  depth : Nat
  deriving DecidableEq

namespace Directive

/-- A depth by its number or by the name of its level. -/
def depthOf (text : List Char) : Option Nat :=
  match text with
  | '-' :: _ => none
  | _ =>
    match Decimal.integerOfDigits text with
    | some n => if n.toNat ≤ 5 then some n.toNat else none
    | none =>
      let word := String.ofList (text.map Char.toUpper)
      if word == "OFF" then some 0 else (Level.all.find? (·.name == word)).map Level.depth

/-- A depth that is left out goes all the way. -/
def depthOrAll : List Char → Option Nat
  | [] => some Level.trace.depth
  | text => depthOf text

def mayBegin (c : Char) : Bool := c.isAlphanum || 128 ≤ c.toNat || c == '-' || c == ':' || c == '_'

/-- What follows the bracket of a directive about spans, up to its depth. -/
def afterSpan (text : List Char) : Option (List Char) :=
  match text.dropWhile fun c => c != ']' && c != '\x7b' with
  | ']' :: rest => some rest
  | '\x7b' :: rest =>
    match rest.dropWhile (· != '\x7d') with
    | '\x7d' :: ']' :: rest => some rest
    | _ => none
  | _ => none

/-- Whether a directive about spans is well formed. It keeps no record outside of them. -/
def spanFits (text : List Char) : Bool :=
  match afterSpan text with
  | some [] => true
  | some ('=' :: depth) => (depthOrAll depth).isSome
  | _ => false

/-- Reads a directive, if it is well formed; it may be one that is about spans alone. -/
def ofChars (text : List Char) : Option (Option Directive) :=
  match text with
  | [] => none
  | '[' :: rest => if spanFits rest then some none else none
  | first :: _ =>
    if !mayBegin first then none
    else
      let (name, rest) := text.span fun c => c != '=' && c != '['
      match rest with
      | '=' :: depth => (depthOrAll depth).map fun depth => some ⟨String.ofList name, depth⟩
      | '[' :: rest => if spanFits rest then some none else none
      | _ =>
        match depthOf name with
        | some depth => some (some ⟨"", depth⟩)
        | none => some (some ⟨String.ofList name, Level.trace.depth⟩)

/-- Whether the first directive gives way to the second for a target. -/
def yields (target : String) (best : Option Directive) (d : Directive) : Bool :=
  target.startsWith d.target && best.all fun b => b.target.length ≤ d.target.length

end Directive

abbrev Filter := List Directive

namespace Filter

def trim (text : List Char) : List Char :=
  ((text.dropWhile Char.isWhitespace).reverse.dropWhile Char.isWhitespace).reverse

/-- Reads directives with commas between them. Where there are none a standard level counts. -/
def ofText (standard : Level) (text : String) : Option Filter := do
  let found ← ((text.toList.splitOn ',').filter (!·.isEmpty)).mapM (Directive.ofChars ∘ trim)
  return if found.isEmpty then [⟨"", standard.depth⟩] else found.filterMap id

/-- The directive that counts for a target. -/
def directive? (f : Filter) (target : String) : Option Directive :=
  f.foldl (fun best d => if Directive.yields target best d then some d else best) none

def admits (f : Filter) (target : String) (level : Level) : Bool :=
  (f.directive? target).any fun d => level.depth ≤ d.depth

end Filter

end Cutover.Log
