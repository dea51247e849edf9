/-! Decimals as text, and the float nearest to one. -/
namespace Cutover.Decimal

/-- A decimal `digits * 10 ^ exponent` with a sign. -/
structure Spelled where
  negative : Bool
  digits : Nat
  exponent : Int
  deriving DecidableEq

/-- The value of a run of decimal digits, most significant first. -/
def natOfDigits (digits : List Char) : Nat :=
  digits.foldl (fun n c => n * 10 + (c.toNat - '0'.toNat)) 0

def integerOfDigits : List Char → Option Int
  | '-' :: digits => if digits.isEmpty || !digits.all Char.isDigit then none else some (-(natOfDigits digits : Int))
  | '+' :: digits | digits =>
    if digits.isEmpty || !digits.all Char.isDigit then none else some (natOfDigits digits)

def takeSign : List Char → Bool × List Char
  | '-' :: rest => (true, rest)
  | '+' :: rest => (false, rest)
  | rest => (false, rest)

/-- Reads digits with a point among them or at an end, and an exponent. -/
def Spelled.ofChars (chars : List Char) : Option Spelled :=
  let (negative, chars) := takeSign chars
  let (mantissa, power) := chars.span fun c => c != 'e' && c != 'E'
  let (whole, fraction) := mantissa.span (· != '.')
  let fraction := fraction.drop 1
  let digits := whole ++ fraction
  if digits.isEmpty || !digits.all Char.isDigit then none
  else
    match power with
    | [] => some ⟨negative, natOfDigits digits, -(fraction.length : Int)⟩
    | _ :: power => (integerOfDigits power).map fun e => ⟨negative, natOfDigits digits, e - fraction.length⟩

/-- The number of digits of a positive number, and a little more for a large one. -/
def magnitude (n : Nat) : Nat := n.log2 * 3 / 10 + 1

/-- The float nearest to a decimal. One that is far out of range is not computed with. -/
def Spelled.toFloat (s : Spelled) : Float :=
  let size := s.exponent + magnitude s.digits
  let x : Float :=
    if s.digits = 0 then 0
    else if 400 < size then 1 / 0
    else if size < -400 then 0
    else Float.ofScientific s.digits (s.exponent < 0) s.exponent.natAbs
  if s.negative then -x else x

/-- The float that a text names: a decimal, an infinity or the absence of a number. -/
def floatOfText (text : String) : Option Float :=
  let (negative, chars) := takeSign text.toList
  let signed := fun (x : Float) => if negative then -x else x
  match String.ofList (chars.map Char.toLower) with
  | "inf" | "infinity" => some (signed (1 / 0))
  | "nan" => some (0 / 0)
  | _ => (Spelled.ofChars text.toList).map Spelled.toFloat

end Cutover.Decimal
