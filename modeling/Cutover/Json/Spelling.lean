import Cutover.Json.Raw
import Cutover.Text.Utf8

/-! What the spelling of a string or of a number means. -/
namespace Cutover.Json

open Octet

/-- The octets that a string body stands for. An escape of four hexadecimal digits names a
character; one beyond the first plane takes two escapes, a leading and a trailing half, and half a
pair means nothing. -/
def unescape : Octets → Option Octets
  | [] => some []
  | backslash :: letterU :: a :: b :: c :: d :: rest => do
    let first ← Raw.hex4 a b c d
    if first < 0xd800 ∨ 0xdfff < first then
      return String.utf8EncodeChar (Char.ofNat first) ++ (← unescape rest)
    else if 0xdc00 ≤ first then none
    else
      match rest with
      | backslash :: letterU :: a :: b :: c :: d :: rest => do
        let second ← Raw.hex4 a b c d
        if second < 0xdc00 ∨ 0xdfff < second then none
        else
          let code := 0x10000 + (first - 0xd800) * 0x400 + (second - 0xdc00)
          return String.utf8EncodeChar (Char.ofNat code) ++ (← unescape rest)
      | _ => none
  | backslash :: e :: rest => do
    let meant ← match e with
      | 0x62 => some 0x08
      | 0x66 => some 0x0c
      | 0x6e => some 0x0a
      | 0x72 => some 0x0d
      | 0x74 => some 0x09
      | e => if isEscape e then some e else none
    return meant :: (← unescape rest)
  | b :: rest => do return b :: (← unescape rest)

def textOf (body : Octets) : Option String := (unescape body).bind Utf8.decode

/-- The value of a run of digits. -/
def natOf (digits : Octets) : Nat := digits.foldl (fun n d => n * 10 + (d.toNat - 0x30)) 0

/-- A number by the parts of its spelling. -/
structure Number where
  negative : Bool
  whole : Octets
  /-- The digits after the point, when there is one. -/
  fraction : Option Octets
  exponent : Option (Bool × Octets)

def Number.of (spelling : Octets) : Number :=
  let (negative, rest) := match spelling with
    | minus :: rest => (true, rest)
    | rest => (false, rest)
  let (whole, rest) := rest.span isDigit
  let (fraction, rest) := match rest with
    | point :: rest => let (found, rest) := rest.span isDigit; (some found, rest)
    | rest => (none, rest)
  let exponent := match rest with
    | _ :: minus :: rest => some (true, rest)
    | _ :: plus :: rest => some (false, rest)
    | _ :: rest => some (false, rest)
    | [] => none
  ⟨negative, whole, fraction, exponent⟩

/-- The integer that a spelling names. With a fraction or an exponent it names none, and minus zero
is no integer either. -/
def intOf (spelling : Octets) : Option Int :=
  let n := Number.of spelling
  match n.fraction, n.exponent with
  | none, none =>
    if n.negative then (if natOf n.whole = 0 then none else some (-(natOf n.whole : Int)))
    else some (natOf n.whole)
  | _, _ => none

/-- Digits taken into a word of 64 bits until the next one would not fit, with the number of those
left over. -/
def fill (word : Nat) : Octets → Nat × Nat
  | [] => (word, 0)
  | d :: rest =>
    let next := word * 10 + (d.toNat - 0x30)
    if 0x10000000000000000 ≤ next then (word, rest.length + 1) else fill next rest

/-- A word times a power of ten, in one multiplication or division of floats as far as powers of ten
are floats. A result too large for one is none. -/
def scaled : Nat → Float → Int → Option Float
  | 0, x, _ => some x
  | fuel + 1, x, power =>
    if power.natAbs ≤ 308 then
      let factor := Float.ofScientific 1 false power.natAbs
      if 0 ≤ power then
        if (x * factor).isInf then none else some (x * factor)
      else some (x / factor)
    else if x == 0 then some x
    else if 0 ≤ power then none
    else scaled fuel (x / 1e308) (power + 308)

/-- The float that a spelling names. -/
def floatOf (spelling : Octets) : Option Float :=
  let n := Number.of spelling
  let (word, spilled) := fill 0 n.whole
  let fraction := n.fraction.getD []
  let (word, unused) := fill word fraction
  let written : Int := match n.exponent with
    | none => 0
    | some (true, digits) => -(natOf digits : Int)
    | some (false, digits) => natOf digits
  let power : Int := spilled - (fraction.length - unused : Nat) + written
  (scaled 4 (Float.ofNat word) power).map fun x => if n.negative then -x else x

end Cutover.Json
