import Cutover.Decimal.Shortest
import Cutover.Json.Spelling

/-! JSON values with their meaning, as answers carry them, and their text. The members of an object
that was read are sorted by name and each name occurs once, the last value given counting; one that
is built is written in the order of its list. -/
namespace Cutover

inductive Json where
  | null
  | bool (b : Bool)
  | int (n : Int)
  | float (x : Float)
  | string (s : String)
  | array (items : List Json)
  | object (members : List (String × Json))
  deriving Inhabited

namespace Json

/-- Puts a member in its place; one of the same name makes way. -/
def insert (name : String) (value : Json) : List (String × Json) → List (String × Json)
  | [] => [(name, value)]
  | (n, v) :: rest =>
    if name < n then (name, value) :: (n, v) :: rest
    else if name = n then (name, value) :: rest
    else (n, v) :: insert name value rest

/-- An integer that fits a word of 64 bits, signed or not, is kept exactly. -/
def ofNumber (spelling : Octets) : Option Json :=
  match intOf spelling with
  | some n =>
    if -0x8000000000000000 ≤ n ∧ n < 0x10000000000000000 then some (.int n) else (floatOf spelling).map .float
  | none => (floatOf spelling).map .float

mutual

/-- The value of a written form whose nesting stays within `depth`. -/
def ofRaw (depth : Nat) : Raw → Option Json
  | .null => some .null
  | .bool b => some (.bool b)
  | .number spelling => ofNumber spelling
  | .string body => (textOf body).map .string
  | .array items =>
    match depth with
    | 0 => none
    | depth + 1 => (ofItems depth items).map .array
  | .object members =>
    match depth with
    | 0 => none
    | depth + 1 => (ofMembers depth members []).map .object

def ofItems (depth : Nat) : List Raw → Option (List Json)
  | [] => some []
  | first :: rest => do return (← ofRaw depth first) :: (← ofItems depth rest)

def ofMembers (depth : Nat) : List (Octets × Raw) → List (String × Json) →
    Option (List (String × Json))
  | [], found => some found
  | (key, first) :: rest, found => do
    ofMembers depth rest (insert (← textOf key) (← ofRaw depth first) found)

end

/-- A character inside quotes. -/
def escape (c : Char) : List Char :=
  if c = '"' then ['\\', '"']
  else if c = '\\' then ['\\', '\\']
  else if c = '\x08' then ['\\', 'b']
  else if c = '\x0c' then ['\\', 'f']
  else if c = '\n' then ['\\', 'n']
  else if c = '\r' then ['\\', 'r']
  else if c = '\t' then ['\\', 't']
  else if c.toNat < 0x20 then ['\\', 'u', '0', '0', Hex.digit (c.toNat / 16), Hex.digit (c.toNat % 16)]
  else [c]

def quotedText (s : String) : List Char := '"' :: s.toList.flatMap escape ++ ['"']

/-- A float keeps a point or an exponent in its text, so that it reads back as one. From `1e16` on
and below `1e-5` it has an exponent. One that is no number is written as null. -/
def floatText (x : Float) : String :=
  match Decimal.Parts.of x with
  | .nan | .infinity _ => "null"
  | .zero negative => if negative then "-0.0" else "0.0"
  | .finite negative s =>
    let power : Int := (Decimal.digitText s).length - 1 + s.exponent
    (if negative then "-" else "") ++
      if -5 ≤ power ∧ power ≤ 15 then Decimal.positional s true else Decimal.exponential s

mutual

/-- The text without any space. -/
def compact : Json → List Char
  | .null => "null".toList
  | .bool b => (if b then "true" else "false").toList
  | .int n => (toString n).toList
  | .float x => (floatText x).toList
  | .string s => quotedText s
  | .array [] => ['[', ']']
  | .array (first :: rest) => '[' :: compact first ++ compactItems rest
  | .object [] => ['\x7b', '\x7d']
  | .object ((name, first) :: rest) =>
    '\x7b' :: quotedText name ++ ':' :: compact first ++ compactMembers rest

def compactItems : List Json → List Char
  | [] => [']']
  | item :: rest => ',' :: compact item ++ compactItems rest

def compactMembers : List (String × Json) → List Char
  | [] => ['\x7d']
  | (name, value) :: rest =>
    ',' :: quotedText name ++ ':' :: compact value ++ compactMembers rest

end

def text (j : Json) : String := String.ofList j.compact

/-- A new line at a depth, two blanks for each level. -/
def newline (depth : Nat) : List Char := '\n' :: List.replicate (2 * depth) ' '

mutual

/-- The text with a line for every item and every member. -/
def indented (depth : Nat) : Json → List Char
  | .array (first :: rest) =>
    '[' :: newline (depth + 1) ++ indented (depth + 1) first ++ indentedItems depth rest
  | .object ((name, first) :: rest) =>
    '\x7b' :: newline (depth + 1) ++ quotedText name ++ ':' :: ' ' :: indented (depth + 1) first ++
      indentedMembers depth rest
  | other => compact other

def indentedItems (depth : Nat) : List Json → List Char
  | [] => newline depth ++ [']']
  | item :: rest =>
    ',' :: newline (depth + 1) ++ indented (depth + 1) item ++ indentedItems depth rest

def indentedMembers (depth : Nat) : List (String × Json) → List Char
  | [] => newline depth ++ ['\x7d']
  | (name, value) :: rest =>
    ',' :: newline (depth + 1) ++ quotedText name ++ ':' :: ' ' :: indented (depth + 1) value ++
      indentedMembers depth rest

end

def prettyText (j : Json) : String := String.ofList (j.indented 0)

end Json
end Cutover
