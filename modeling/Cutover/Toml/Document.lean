import Cutover.Toml.Number

/-! TOML documents. A document is a table, written a line at a time: a key with its value, or the
header of a table that the lines after it belong to. No table is defined twice, and one that was
written out in one way is not added to in another. -/
namespace Cutover.Toml

/-- How a table came to be. -/
inductive Origin where
  /-- By a header of its own, or as the value of a key. -/
  | explicit
  /-- By the header of a table within it. -/
  | implicit
  /-- By a dotted key. -/
  | dotted
  deriving DecidableEq

mutual

inductive Node where
  | value (v : Toml)
  | table (t : Members)
  | tables (ts : List Members)

inductive Members where
  | mk (origin : Origin) (nodes : List (String × Node))

end

namespace Members

def origin : Members → Origin
  | .mk o _ => o

def nodes : Members → List (String × Node)
  | .mk _ ns => ns

def empty (o : Origin) : Members := .mk o []

def get? (t : Members) (key : String) : Option Node := t.nodes.lookup key

/-- Replaces a member, or adds it at the end. -/
def set (t : Members) (key : String) (n : Node) : Members :=
  if t.nodes.any (·.1 == key) then
    .mk t.origin (t.nodes.map fun (k, old) => (k, if k == key then n else old))
  else .mk t.origin (t.nodes ++ [(key, n)])

def erase (t : Members) (key : String) : Members := .mk t.origin (t.nodes.filter (·.1 != key))

/-- Changes the table at the end of a path; tables that are missing on the way are made. A dotted key
does not lead into a table that was written out. -/
def descend (dotted : Bool) (f : Members → Option Members) : List String → Members → Option Members
  | [], t => f t
  | key :: path, t =>
    match t.get? key with
    | none => do
      return t.set key (.table (← descend dotted f path (.empty (if dotted then .dotted else .implicit))))
    | some (.value _) => none
    | some (.tables ts) =>
      match ts.reverse with
      | [] => none
      | last :: others => do
        return t.set key (.tables (others.reverse ++ [← descend dotted f path last]))
    | some (.table inner) =>
      if dotted ∧ inner.origin = .explicit then none
      else do return t.set key (.table (← descend dotted f path inner))

/-- Adds a value under a key, which may be dotted. -/
def assign (t : Members) (path : List String) (key : String) (v : Toml) : Option Members :=
  t.descend true (fun inner =>
    if (inner.origin == .dotted) == path.isEmpty then none
    else if (inner.get? key).isSome then none
    else some (inner.set key (.value v))) path

end Members

mutual

def Node.toml : Node → Toml
  | .value v => v
  | .table t => t.toml
  | .tables ts => .array (tomlAll ts)

def Members.toml : Members → Toml
  | .mk _ nodes => .table (tomlMembers nodes)

def tomlAll : List Members → List Toml
  | [] => []
  | t :: rest => t.toml :: tomlAll rest

def tomlMembers : List (String × Node) → List (String × Toml)
  | [] => []
  | (key, n) :: rest => (key, n.toml) :: tomlMembers rest

end

def isBare (c : Char) : Bool := c.isAlphanum || c == '-' || c == '_'

/-- One part of a key. -/
def simpleKey (chars : List Char) : Option (String × List Char) :=
  match chars with
  | '"' :: rest => (basicBody chars.length rest).map fun (body, rest) => (String.ofList body, rest)
  | '\'' :: rest => (literalBody rest).map fun (body, rest) => (String.ofList body, rest)
  | chars =>
    match chars.takeWhile isBare with
    | [] => none
    | found => some (String.ofList found, chars.dropWhile isBare)

/-- A key: parts with points between them, and blanks around. -/
def keyOf : Nat → List Char → Option (List String × List Char)
  | 0, _ => none
  | fuel + 1, chars => do
    let (first, rest) ← simpleKey (skipBlanks chars)
    match skipBlanks rest with
    | '.' :: rest =>
      let (others, rest) ← keyOf fuel rest
      return (first :: others, rest)
    | rest => return ([first], rest)

/-- The parts of a key before the last, and the last. -/
def splitLast (key : List String) : List String × String := (key.dropLast, key.getLastD "")

/-- Values may be nested this deep, and keys may have as many parts. -/
def depthLimit : Nat := 79

def key (chars : List Char) : Option ((List String × String) × List Char) := do
  let (parts, rest) ← keyOf (chars.length + 1) chars
  if parts.length ≤ depthLimit then return (splitLast parts, rest) else none

mutual

/-- A value, nested no deeper than `depth`. -/
def value (depth : Nat) : Nat → List Char → Option (Toml × List Char)
  | 0, _ => none
  | fuel + 1, chars =>
    match chars with
    | '"' :: _ | '\'' :: _ => (stringOf chars).map fun (s, rest) => (.string s, rest)
    | '[' :: rest =>
      match depth with
      | 0 => none
      | depth + 1 => (items depth fuel rest).map fun (found, rest) => (.array found, rest)
    | '\x7b' :: rest =>
      match depth with
      | 0 => none
      | depth + 1 => (members depth fuel rest).map fun (found, rest) => (found.toml, rest)
    | 't' :: 'r' :: 'u' :: 'e' :: rest => some (.boolean true, rest)
    | 'f' :: 'a' :: 'l' :: 's' :: 'e' :: rest => some (.boolean false, rest)
    | chars => numberOf chars

/-- The values of an array up to its closing bracket; a comma may close the list. -/
def items (depth : Nat) : Nat → List Char → Option (List Toml × List Char)
  | 0, _ => none
  | fuel + 1, chars =>
    match skipSpace chars.length chars with
    | ']' :: rest => some ([], rest)
    | chars => do
      let (first, rest) ← value depth fuel chars
      match skipSpace rest.length rest with
      | ',' :: rest => (items depth fuel rest).map fun (found, rest) => (first :: found, rest)
      | ']' :: rest => some ([first], rest)
      | _ => none

/-- The members of a table on one line, up to its closing brace. -/
def members (depth : Nat) (fuel : Nat) (chars : List Char) : Option (Members × List Char) :=
  match fuel with
  | 0 => none
  | fuel + 1 =>
    match skipBlanks chars with
    | '\x7d' :: rest => some (.empty .explicit, rest)
    | chars => pairs depth fuel (.empty .explicit) chars

def pairs (depth : Nat) : Nat → Members → List Char → Option (Members × List Char)
  | 0, _, _ => none
  | fuel + 1, t, chars => do
    let ((path, name), rest) ← key chars
    let (v, rest) ← value depth fuel (skipBlanks (← expect '=' rest))
    let t ← t.assign path name v
    match skipBlanks rest with
    | ',' :: rest => pairs depth fuel t rest
    | '\x7d' :: rest => some (t, rest)
    | _ => none

end

/-- A document that is being read: what is complete, and the table that lines are added to. -/
structure Draft where
  root : Members
  /-- The table in hand; the whole document as long as no header was met. -/
  current : Members
  /-- Where it belongs, and whether it is one of several there. -/
  place : Option (List String × String × Bool)

namespace Draft

def start : Draft := ⟨.empty .explicit, .empty .explicit, none⟩

/-- Puts the table in hand where it belongs. -/
def finish (d : Draft) : Option Members :=
  match d.place with
  | none => some d.current
  | some (path, name, several) =>
    d.root.descend false (fun parent =>
      if several then
        match parent.get? name with
        | none => some (parent.set name (.tables [d.current]))
        | some (.tables ts) => some (parent.set name (.tables (ts ++ [d.current])))
        | some _ => none
      else some (parent.set name (.table d.current))) path

/-- The table that a header finds in its place: none, or one that is there only because of tables
within it. -/
def found (path : List String) (name : String) (root : Members) : Option (Option Members) :=
  match path with
  | [] =>
    match root.get? name with
    | none => some none
    | some (.table t) => if t.origin = .implicit then some (some t) else none
    | some _ => none
  | key :: path =>
    match root.get? key with
    | none => some none
    | some (.value _) => none
    | some (.table t) => found path name t
    | some (.tables ts) =>
      match ts.getLast? with
      | none => none
      | some t => found path name t

/-- A header: the table before it is complete. -/
def header (d : Draft) (path : List String) (name : String) (several : Bool) : Option Draft := do
  let root ← d.finish
  if several then
    let root ← root.descend false (fun parent =>
      match parent.get? name with
      | none => some parent
      | some (.tables _) => some parent
      | some _ => none) path
    return ⟨root, .empty .explicit, some (path, name, true)⟩
  else
    let inner ← found path name root
    let root ← root.descend false (fun parent => some (parent.erase name)) path
    return ⟨root, .mk .explicit ((inner.map (·.nodes)).getD []), some (path, name, false)⟩

end Draft

/-- One line, from its first character that is not a blank. -/
def line (d : Draft) (chars : List Char) : Option (Draft × List Char) :=
  match chars with
  | '#' :: _ => (afterLine chars).map (d, ·)
  | '\n' :: _ | '\r' :: _ => (afterNewline chars).map (d, ·)
  | '[' :: '[' :: rest => do
    let ((path, name), rest) ← key rest
    let rest ← afterLine (← expect ']' (← expect ']' rest))
    return (← d.header path name true, rest)
  | '[' :: rest => do
    let ((path, name), rest) ← key rest
    let rest ← afterLine (← expect ']' rest)
    return (← d.header path name false, rest)
  | chars => do
    let ((path, name), rest) ← key chars
    let rest := skipBlanks (← expect '=' rest)
    let (v, rest) ← value depthLimit (rest.length + 1) rest
    let rest ← afterLine rest
    return ({ d with current := ← d.current.assign path name v }, rest)

def lines : Nat → Draft → List Char → Option Draft
  | 0, _, _ => none
  | fuel + 1, d, chars =>
    match skipBlanks chars with
    | [] => some d
    | chars => do
      let (d, rest) ← line d chars
      lines fuel d rest

/-- A mark of the byte order at the front is passed over. -/
def dropMark : List Char → List Char
  | '\uFEFF' :: rest => rest
  | rest => rest

/-- The table that a text describes. -/
def read (text : String) : Option Toml := do
  let chars := dropMark text.toList
  return (← (← lines (chars.length + 1) .start chars).finish).toml

end Cutover.Toml
