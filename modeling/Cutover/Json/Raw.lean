import Cutover.Text.Hex

/-! The written form of a JSON value: its shape, with every number and every string left as it is
spelled. Reading this far asks only that the text is well formed. Whether a string is well-formed
Unicode and whether a number fits anywhere is for the one who wants its meaning, so a part that
nobody looks at may hold any spelling; nesting is not limited. -/
namespace Cutover.Json

abbrev Octets := List UInt8

namespace Octet

@[match_pattern] abbrev quote : UInt8 := 0x22
@[match_pattern] abbrev backslash : UInt8 := 0x5c
@[match_pattern] abbrev slash : UInt8 := 0x2f
@[match_pattern] abbrev comma : UInt8 := 0x2c
@[match_pattern] abbrev colon : UInt8 := 0x3a
@[match_pattern] abbrev openBracket : UInt8 := 0x5b
@[match_pattern] abbrev closeBracket : UInt8 := 0x5d
@[match_pattern] abbrev openBrace : UInt8 := 0x7b
@[match_pattern] abbrev closeBrace : UInt8 := 0x7d
@[match_pattern] abbrev minus : UInt8 := 0x2d
@[match_pattern] abbrev plus : UInt8 := 0x2b
@[match_pattern] abbrev point : UInt8 := 0x2e
@[match_pattern] abbrev zero : UInt8 := 0x30
@[match_pattern] abbrev letterF : UInt8 := 0x66
@[match_pattern] abbrev letterN : UInt8 := 0x6e
@[match_pattern] abbrev letterT : UInt8 := 0x74
@[match_pattern] abbrev letterU : UInt8 := 0x75

def isSpace (b : UInt8) : Bool := b == 0x20 || b == 0x0a || b == 0x09 || b == 0x0d

def isDigit (b : UInt8) : Bool := 0x30 ≤ b && b ≤ 0x39

/-- The letters that may follow a backslash on their own. -/
def isEscape (b : UInt8) : Bool :=
  b == quote || b == backslash || b == slash || b == 0x62 || b == 0x66 || b == 0x6e || b == 0x72 ||
    b == 0x74

end Octet

inductive Raw where
  | null
  | bool (b : Bool)
  | number (spelling : Octets)
  /-- What stands between the quotes. -/
  | string (body : Octets)
  | array (items : List Raw)
  | object (members : List (Octets × Raw))

namespace Raw

open Octet

def skipSpace (bytes : Octets) : Octets := bytes.dropWhile isSpace

/-- Four hexadecimal digits. -/
def hex4 (a b c d : UInt8) : Option Nat := do
  let a ← Hex.value? a
  let b ← Hex.value? b
  let c ← Hex.value? c
  let d ← Hex.value? d
  return ((a * 16 + b) * 16 + c) * 16 + d

/-- What stands before the closing quote, and what follows it. -/
def stringBody : Octets → Option (Octets × Octets)
  | [] => none
  | backslash :: letterU :: a :: b :: c :: d :: rest =>
    if (hex4 a b c d).isSome then
      (stringBody rest).map fun (body, rest) => (backslash :: letterU :: a :: b :: c :: d :: body, rest)
    else none
  | backslash :: e :: rest =>
    if isEscape e then (stringBody rest).map fun (body, rest) => (backslash :: e :: body, rest)
    else none
  | b :: rest =>
    if b == quote then some ([], rest)
    else if b == backslash || b < 0x20 then none
    else (stringBody rest).map fun (body, rest) => (b :: body, rest)

/-- One digit at least. -/
def digits (bytes : Octets) : Option (Octets × Octets) :=
  match bytes.span isDigit with
  | ([], _) => none
  | found => some found

/-- A whole number: a zero that stands alone, or digits that start with another. -/
def wholePart : Octets → Option (Octets × Octets)
  | zero :: rest => if (rest.head?.map isDigit).getD false then none else some ([zero], rest)
  | bytes => digits bytes

def fractionPart : Octets → Option (Octets × Octets)
  | point :: rest => (digits rest).map fun (found, rest) => (point :: found, rest)
  | bytes => some ([], bytes)

def exponentPart : Octets → Option (Octets × Octets)
  | e :: rest =>
    if e == 0x65 || e == 0x45 then
      match rest with
      | plus :: rest => (digits rest).map fun (found, rest) => (e :: plus :: found, rest)
      | minus :: rest => (digits rest).map fun (found, rest) => (e :: minus :: found, rest)
      | rest => (digits rest).map fun (found, rest) => (e :: found, rest)
    else some ([], e :: rest)
  | [] => some ([], [])

def unsigned (bytes : Octets) : Option (Octets × Octets) := do
  let (whole, bytes) ← wholePart bytes
  let (fraction, bytes) ← fractionPart bytes
  let (exponent, bytes) ← exponentPart bytes
  return (whole ++ fraction ++ exponent, bytes)

def spelling : Octets → Option (Octets × Octets)
  | minus :: rest => (unsigned rest).map fun (found, rest) => (minus :: found, rest)
  | bytes => unsigned bytes

/-- What follows `expected`, when the text starts with it. -/
def after (expected : Octets) (bytes : Octets) : Option Octets :=
  if expected.isPrefixOf bytes then some (bytes.drop expected.length) else none

mutual

/-- One value from the front of a text, leading space skipped. -/
def value : Nat → Octets → Option (Raw × Octets)
  | 0, _ => none
  | fuel + 1, bytes =>
    match skipSpace bytes with
    | quote :: rest => (stringBody rest).map fun (body, rest) => (.string body, rest)
    | openBracket :: rest =>
      match skipSpace rest with
      | closeBracket :: rest => some (.array [], rest)
      | rest => (items fuel rest).map fun (found, rest) => (.array found, rest)
    | openBrace :: rest =>
      match skipSpace rest with
      | closeBrace :: rest => some (.object [], rest)
      | rest => (members fuel rest).map fun (found, rest) => (.object found, rest)
    | letterN :: rest => (after [0x75, 0x6c, 0x6c] rest).map fun rest => (.null, rest)
    | letterT :: rest => (after [0x72, 0x75, 0x65] rest).map fun rest => (.bool true, rest)
    | letterF :: rest => (after [0x61, 0x6c, 0x73, 0x65] rest).map fun rest => (.bool false, rest)
    | rest => (spelling rest).map fun (found, rest) => (.number found, rest)

/-- The values of an array that has one, up to its closing bracket. -/
def items : Nat → Octets → Option (List Raw × Octets)
  | 0, _ => none
  | fuel + 1, bytes => do
    let (first, rest) ← value fuel bytes
    match skipSpace rest with
    | comma :: rest => (items fuel rest).map fun (found, rest) => (first :: found, rest)
    | closeBracket :: rest => some ([first], rest)
    | _ => none

/-- The members of an object that has one, up to its closing brace. -/
def members : Nat → Octets → Option (List (Octets × Raw) × Octets)
  | 0, _ => none
  | fuel + 1, bytes =>
    match skipSpace bytes with
    | quote :: rest => do
      let (key, rest) ← stringBody rest
      match skipSpace rest with
      | colon :: rest =>
        let (first, rest) ← value fuel rest
        match skipSpace rest with
        | comma :: rest => (members fuel rest).map fun (found, rest) => ((key, first) :: found, rest)
        | closeBrace :: rest => some ([(key, first)], rest)
        | _ => none
      | _ => none
    | _ => none

end

/-- A text that is one value, with space around it. Every step down takes an octet, so the length
of the text bounds the depth. -/
def read (bytes : Octets) : Option Raw :=
  match value (bytes.length + 1) bytes with
  | some (found, rest) => if (skipSpace rest).isEmpty then some found else none
  | none => none

end Raw
end Cutover.Json
