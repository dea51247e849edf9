/-! The fewest decimal digits that identify a binary64 number, and the way they are laid out. A
number is taken apart into `mantissa * 2 ^ exponent`; a decimal identifies it when it lies in the
interval of reals that round to it. The grid of decimals is refined one digit at a time, and on
each grid only the two neighbours of the number need a test. -/
namespace Cutover.Decimal

/-- The value `digits * 10 ^ exponent`. -/
structure Scientific where
  digits : Nat
  exponent : Int
  deriving DecidableEq

/-- A positive rational `num / den` with the ends of the interval that rounds to it, as numerators
over the same denominator; the ends belong to it when `closed`. -/
structure Target where
  num : Nat
  den : Nat
  low : Nat
  high : Nat
  closed : Bool

namespace Target

/-- The target of `mantissa * 2 ^ exponent`. Below a power of two the neighbours are half as far
apart as above it, which `narrow` says. -/
def ofBinary (mantissa : Nat) (exponent : Int) (narrow : Bool) : Target :=
  let scale := if 2 ≤ exponent then Nat.pow 2 (exponent - 2).toNat else 1
  { num := 4 * mantissa * scale
    den := if 2 ≤ exponent then 1 else Nat.pow 2 (2 - exponent).toNat
    low := (4 * mantissa - (if narrow then 1 else 2)) * scale
    high := (4 * mantissa + 2) * scale
    closed := mantissa % 2 = 0 }

/-- The decimal exponent of the leading digit, for a target of at least one. -/
def leadingUp : Nat → Nat → Int
  | 0, _ => 0
  | fuel + 1, whole => if whole < 10 then 0 else leadingUp fuel (whole / 10) + 1

/-- The decimal exponent of the leading digit, for a target below one. -/
def leadingDown (den : Nat) : Nat → Nat → Int
  | 0, _ => 0
  | fuel + 1, num => if den ≤ num then 0 else leadingDown den fuel (num * 10) - 1

def leading (t : Target) : Int :=
  if t.den ≤ t.num then leadingUp 400 (t.num / t.den) else leadingDown t.den 400 t.num

/-- Whether `count * 10 ^ unit` identifies the target. -/
def admits (t : Target) (count : Nat) (unit : Int) : Bool :=
  let up := Nat.pow 10 unit.toNat
  let down := Nat.pow 10 (-unit).toNat
  let value := count * t.den * up
  let low := t.low * down
  let high := t.high * down
  if t.closed then low ≤ value ∧ value ≤ high else low < value ∧ value < high

/-- The decimal on the grid of `10 ^ unit` that identifies the target, the nearer one of two. -/
def onGrid (t : Target) (unit : Int) : Option Scientific :=
  let up := Nat.pow 10 unit.toNat
  let down := Nat.pow 10 (-unit).toNat
  let below := t.num * down / (t.den * up)
  let excess := t.num * down - below * (t.den * up)
  match t.admits below unit && below != 0, t.admits (below + 1) unit with
  | true, true =>
    if 2 * excess < t.den * up ∨ 2 * excess = t.den * up ∧ below % 2 = 0
    then some ⟨below, unit⟩ else some ⟨below + 1, unit⟩
  | true, false => some ⟨below, unit⟩
  | false, true => some ⟨below + 1, unit⟩
  | false, false => none

/-- Tries ever finer grids; seventeen digits always suffice. -/
def refine (t : Target) (leading : Int) : Nat → Nat → Scientific
  | 0, _ => ⟨0, 0⟩
  | fuel + 1, digits =>
    match t.onGrid (leading - digits) with
    | some s => s
    | none => refine t leading fuel (digits + 1)

end Target

/-- Closing zeros move into the exponent. -/
def Scientific.trim : Nat → Scientific → Scientific
  | 0, s => s
  | fuel + 1, s =>
    if s.digits % 10 = 0 ∧ s.digits ≠ 0 then trim fuel ⟨s.digits / 10, s.exponent + 1⟩ else s

/-- The fewest digits that identify `mantissa * 2 ^ exponent`, nearest to it. -/
def shortest (mantissa : Nat) (exponent : Int) (narrow : Bool) : Scientific :=
  let t := Target.ofBinary mantissa exponent narrow
  (t.refine t.leading 20 0).trim 20

/-- A binary64 number by its parts. -/
inductive Parts where
  | nan
  | infinity (negative : Bool)
  | zero (negative : Bool)
  | finite (negative : Bool) (digits : Scientific)

def Parts.of (x : Float) : Parts :=
  let bits := x.toBits.toNat
  let negative : Bool := bits / 0x8000000000000000 = 1
  let biased : Nat := bits / 0x10000000000000 % 0x800
  let fraction : Nat := bits % 0x10000000000000
  if biased = 2047 then (if fraction = 0 then .infinity negative else .nan)
  else if biased = 0 then
    if fraction = 0 then .zero negative else .finite negative (shortest fraction (-1074) false)
  else .finite negative
    (shortest (0x10000000000000 + fraction) ((biased : Int) - 1075) (fraction = 0 ∧ 1 < biased))

def digitText (s : Scientific) : List Char := Nat.toDigits 10 s.digits

/-- Digits with the point where the exponent puts it, and no exponent. A whole number has no
point unless `pointed`, which adds one with a zero. -/
def positional (s : Scientific) (pointed : Bool) : String :=
  let digits := digitText s
  let count := digits.length
  let point : Int := count + s.exponent
  if 0 ≤ s.exponent then
    String.ofList (digits ++ List.replicate s.exponent.toNat '0') ++ (if pointed then ".0" else "")
  else if 0 < point then
    String.ofList (digits.take point.toNat) ++ "." ++ String.ofList (digits.drop point.toNat)
  else "0." ++ String.ofList (List.replicate (-point).toNat '0' ++ digits)

/-- One digit before the point and the exponent with its sign. -/
def exponential (s : Scientific) : String :=
  let digits := digitText s
  let power : Int := digits.length - 1 + s.exponent
  String.ofList (digits.take 1) ++ (if digits.length = 1 then "" else ".") ++
    String.ofList (digits.drop 1) ++ "e" ++ (if power < 0 then "-" else "+") ++ toString power.natAbs

/-- The shortest text without an exponent. -/
def plain (x : Float) : String :=
  match Parts.of x with
  | .nan => "NaN"
  | .infinity negative => if negative then "-inf" else "inf"
  | .zero negative => if negative then "-0" else "0"
  | .finite negative s => (if negative then "-" else "") ++ positional s false

end Cutover.Decimal
