import Cutover.Decimal.Reading
import Cutover.Toml.Text
import Cutover.Toml.Value

/-! Numbers, dates and times of TOML. What starts like a date has to be one. -/
namespace Cutover.Toml

/-- Digits that underscores may stand between. -/
def digitsOf (isDigit : Char → Bool) : Nat → List Char → List Char × List Char
  | 0, rest => ([], rest)
  | fuel + 1, c :: rest =>
    if isDigit c then
      let (found, rest) := digitsOf isDigit fuel rest
      (c :: found, rest)
    else
      match c, rest with
      | '_', d :: after =>
        if isDigit d then
          let (found, rest) := digitsOf isDigit fuel after
          (d :: found, rest)
        else ([], c :: rest)
      | _, _ => ([], c :: rest)
  | _ + 1, [] => ([], [])

/-- At least one digit. -/
def someDigits (isDigit : Char → Bool) : Reader (List Char)
  | c :: rest =>
    if isDigit c then
      let (found, rest) := digitsOf isDigit rest.length rest
      some (c :: found, rest)
    else none
  | [] => none

/-- A whole number with its sign; a zero stands alone. -/
def decimalInteger (chars : List Char) : Option (List Char × List Char) :=
  let (sign, chars) := match chars with
    | '-' :: rest => (['-'], rest)
    | '+' :: rest => ([], rest)
    | rest => ([], rest)
  match chars with
  | '0' :: rest => some (sign ++ ['0'], rest)
  | chars => (someDigits Char.isDigit chars).map fun (digits, rest) => (sign ++ digits, rest)

def digitValue (c : Char) : Nat :=
  (Hex.value? (UInt8.ofNat c.toNat)).getD 0

def isHexDigit (c : Char) : Bool := c.isDigit || ('a' ≤ c && c ≤ 'f') || ('A' ≤ c && c ≤ 'F')

def inBase (base : Nat) (isDigit : Char → Bool) (chars : List Char) : Option (Int × List Char) :=
  (someDigits isDigit chars).map fun (digits, rest) =>
    ((digits.foldl (fun n c => n * base + digitValue c) 0 : Nat), rest)

def anyInteger : Reader Int
  | '0' :: 'x' :: rest => inBase 16 isHexDigit rest
  | '0' :: 'o' :: rest => inBase 8 (fun c => '0' ≤ c && c ≤ '7') rest
  | '0' :: 'b' :: rest => inBase 2 (fun c => c == '0' || c == '1') rest
  | chars => do
    let (digits, rest) ← decimalInteger chars
    return (← Decimal.integerOfDigits digits, rest)

/-- An integer has to fit a word of 64 bits. -/
def integerOf (chars : List Char) : Option (Toml × List Char) := do
  let (n, rest) ← anyInteger chars
  if -0x8000000000000000 ≤ n ∧ n < 0x8000000000000000 then return (.integer n, rest) else none

def exponentOf : Reader (List Char)
  | c :: rest =>
    if c == 'e' || c == 'E' then
      let (sign, rest) := match rest with
        | '-' :: rest => (['-'], rest)
        | '+' :: rest => ([], rest)
        | rest => ([], rest)
      (someDigits Char.isDigit rest).map fun (digits, rest) => ('e' :: sign ++ digits, rest)
    else none
  | [] => none

/-- The part of a float after its whole number: a fraction, an exponent or both. -/
def floatTail : Reader (List Char)
  | '.' :: rest => do
    let (fraction, rest) ← someDigits Char.isDigit rest
    match rest with
    | 'e' :: _ | 'E' :: _ => (exponentOf rest).map fun (power, rest) => ('.' :: fraction ++ power, rest)
    | _ => some ('.' :: fraction, rest)
  | rest => exponentOf rest

def specialFloat (negative : Bool) : List Char → Option (Toml × List Char)
  | 'i' :: 'n' :: 'f' :: rest => some (.float (if negative then -1 / 0 else 1 / 0), rest)
  | 'n' :: 'a' :: 'n' :: rest => some (.float (0 / 0), rest)
  | _ => none

/-- A float. One above all floats is none, though one below all is the negative infinity. -/
def floatOf (chars : List Char) : Option (Toml × List Char) :=
  let plain := do
    let (whole, rest) ← decimalInteger chars
    let (tail, rest) ← floatTail rest
    let x := (← Decimal.Spelled.ofChars (whole ++ tail)).toFloat
    if x.isInf ∧ 0 < x then none else return (Toml.float x, rest)
  plain.orElse fun _ =>
    let (negative, chars) := Decimal.takeSign chars
    specialFloat negative chars

/-- A number of exactly so many digits within bounds. -/
def fixed (count low high : Nat) (chars : List Char) : Option (Nat × List Char) :=
  let digits := chars.take count
  if digits.length = count && digits.all Char.isDigit then
    let n := Decimal.natOfDigits digits
    if low ≤ n && n ≤ high then some (n, chars.drop count) else none
  else none

def expect (c : Char) : List Char → Option (List Char)
  | d :: rest => if c = d then some rest else none
  | [] => none

def isLeap (year : Nat) : Bool := year % 4 == 0 && (year % 100 != 0 || year % 400 == 0)

def daysOf (year month : Nat) : Nat :=
  if month = 2 then (if isLeap year then 29 else 28)
  else if [4, 6, 9, 11].contains month then 30 else 31

/-- What begins like a date: four digits and a hyphen. -/
def beginsDate (chars : List Char) : Bool :=
  match fixed 4 0 9999 chars with
  | some (_, '-' :: _) => true
  | _ => false

def beginsTime (chars : List Char) : Bool :=
  match fixed 2 0 23 chars with
  | some (_, ':' :: _) => true
  | _ => false

def afterDate (chars : List Char) : Option (List Char) := do
  let (year, rest) ← fixed 4 0 9999 chars
  let (month, rest) ← fixed 2 1 12 (← expect '-' rest)
  let (_, rest) ← fixed 2 1 (daysOf year month) (← expect '-' rest)
  return rest

def afterTime (chars : List Char) : Option (List Char) := do
  let (_, rest) ← fixed 2 0 23 chars
  let (_, rest) ← fixed 2 0 59 (← expect ':' rest)
  let (_, rest) ← fixed 2 0 60 (← expect ':' rest)
  match rest with
  | '.' :: c :: after => return if c.isDigit then after.dropWhile Char.isDigit else rest
  | rest => return rest

def afterOffset : List Char → Option (List Char)
  | 'Z' :: rest | 'z' :: rest => some rest
  | c :: rest =>
    if c == '+' || c == '-' then do
      let (_, rest) ← fixed 2 0 23 rest
      let (_, rest) ← fixed 2 0 59 (← expect ':' rest)
      return rest
    else some (c :: rest)
  | [] => some []

/-- What follows a date, with the time of day if there is one. -/
def afterMoment (chars : List Char) : Option (List Char) := do
  if beginsDate chars then
    let rest ← afterDate chars
    match rest with
    | c :: after =>
      if (c == 'T' || c == 't' || c == ' ') && beginsTime after then afterOffset (← afterTime after)
      else return rest
    | [] => return rest
  else afterTime chars

def numberOf (chars : List Char) : Option (Toml × List Char) :=
  if beginsDate chars || beginsTime chars then
    (afterMoment chars).map fun rest =>
      (.moment (String.ofList (chars.take (chars.length - rest.length))), rest)
  else (floatOf chars).orElse fun _ => integerOf chars

end Cutover.Toml
