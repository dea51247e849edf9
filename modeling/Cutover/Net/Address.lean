import Cutover.Decimal.Reading

/-! Addresses to listen at: an address of four octets or of eight groups, and a port. The groups are
written in hexadecimal with the longest run of zeros left out, and the last two may be written as
four octets. -/
namespace Cutover.Net

inductive Address where
  | four (octets : List Nat) (port : Nat)
  | six (groups : List Nat) (scope port : Nat)
  deriving DecidableEq, Inhabited

namespace Address

abbrev Reader (α : Type) := List Char → Option (α × List Char)

def digitIn (base : Nat) (c : Char) : Option Nat :=
  let v :=
    if c.isDigit then c.toNat - '0'.toNat
    else if 'a' ≤ c ∧ c ≤ 'f' then c.toNat - 'a'.toNat + 10
    else if 'A' ≤ c ∧ c ≤ 'F' then c.toNat - 'A'.toNat + 10
    else base
  if v < base then some v else none

/-- A number below a bound. It takes all digits there are, of which there must not be too many. -/
def number (base : Nat) (places : Option Nat) (leadingZero : Bool) (bound : Nat) : Reader Nat := fun chars =>
  let digits := chars.takeWhile fun c => (digitIn base c).isSome
  let n := digits.foldl (fun n c => n * base + (digitIn base c).getD 0) 0
  if digits.isEmpty || places.any (· < digits.length) then none
  else if !leadingZero && digits.head? == some '0' && 1 < digits.length then none
  else if n < bound then some (n, chars.drop digits.length) else none

def expect (c : Char) : List Char → Option (List Char)
  | d :: rest => if c = d then some rest else none
  | [] => none

def octet : Reader Nat := number 10 (some 3) false 256

def octets (chars : List Char) : Option (List Nat × List Char) := do
  let (a, rest) ← octet chars
  let (b, rest) ← octet (← expect '.' rest)
  let (c, rest) ← octet (← expect '.' rest)
  let (d, rest) ← octet (← expect '.' rest)
  return ([a, b, c, d], rest)

def portOf (chars : List Char) : Option (Nat × List Char) := do
  number 10 none true 0x10000 (← expect ':' chars)

/-- Up to `room` groups with colons between them, and whether the last two were four octets. The
first group has no colon before it. -/
def groups : Nat → Bool → List Char → List Nat × Bool × List Char
  | 0, _, chars => ([], false, chars)
  | room + 1, first, chars =>
    match (if first then some chars else expect ':' chars) with
    | none => ([], false, chars)
    | some inner =>
      match (if room = 0 then none else octets inner) with
      | some ([a, b, c, d], rest) => ([a * 256 + b, c * 256 + d], true, rest)
      | _ =>
        match number 16 (some 4) true 0x10000 inner with
        | none => ([], false, chars)
        | some (g, rest) =>
          let (more, embedded, rest) := groups room false rest
          (g :: more, embedded, rest)

def groupsOf (chars : List Char) : Option (List Nat × List Char) :=
  match groups 8 true chars with
  | (head, embedded, rest) =>
    if head.length = 8 then some (head, rest)
    else if embedded then none
    else do
      let rest ← expect ':' (← expect ':' rest)
      let (tail, _, rest) := groups (7 - head.length) true rest
      return (head ++ List.replicate (8 - head.length - tail.length) 0 ++ tail, rest)

def scopeOf : List Char → Option (Nat × List Char)
  | '%' :: rest => number 10 none true 0x100000000 rest
  | rest => some (0, rest)

def sixOf (chars : List Char) : Option (Address × List Char) := do
  let (gs, rest) ← groupsOf (← expect '[' chars)
  let (scope, rest) ← scopeOf rest
  let (port, rest) ← portOf (← expect ']' rest)
  return (.six gs scope port, rest)

def fourOf (chars : List Char) : Option (Address × List Char) := do
  let (os, rest) ← octets chars
  let (port, rest) ← portOf rest
  return (.four os port, rest)

def ofText (text : String) : Option Address :=
  match (fourOf text.toList).orElse fun _ => sixOf text.toList with
  | some (a, []) => some a
  | _ => none

def dotted (octets : List Nat) : String := ".".intercalate (octets.map toString)

def hexText (n : Nat) : String := String.ofList (Nat.toDigits 16 n)

/-- The length of the run of zeros at the front. -/
def zeros (groups : List Nat) : Nat := (groups.takeWhile (· = 0)).length

/-- The first of the longest runs of zeros: where it starts and how long it is. -/
def longestZeros (groups : List Nat) : Nat × Nat :=
  (List.range groups.length).foldl (fun best i =>
    let n := zeros (groups.drop i)
    if best.2 < n then (i, n) else best) (0, 0)

def groupsText (groups : List Nat) : String :=
  match groups with
  | [0, 0, 0, 0, 0, 0xffff, a, b] => "::ffff:" ++ dotted [a / 256, a % 256, b / 256, b % 256]
  | groups =>
    let (start, length) := longestZeros groups
    let joined := fun (gs : List Nat) => ":".intercalate (gs.map hexText)
    if 1 < length then joined (groups.take start) ++ "::" ++ joined (groups.drop (start + length))
    else joined groups

def text : Address → String
  | .four octets port => dotted octets ++ ":" ++ toString port
  | .six groups scope port =>
    "[" ++ groupsText groups ++ (if scope = 0 then "" else "%" ++ toString scope) ++ "]:" ++ toString port

end Address
end Cutover.Net
