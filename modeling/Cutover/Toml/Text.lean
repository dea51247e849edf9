import Cutover.Text.Hex

/-! The letters of TOML: blanks, line ends, comments and strings. A reader takes what it reads from
the front of a text and leaves the rest. -/
namespace Cutover.Toml

abbrev Reader (α : Type) := List Char → Option (α × List Char)

def isBlank (c : Char) : Bool := c == ' ' || c == '\t'

def skipBlanks (chars : List Char) : List Char := chars.dropWhile isBlank

/-- Characters that need no escape where nothing else is said. -/
def isText (c : Char) : Bool := c == '\t' || (0x20 ≤ c.toNat && c.toNat != 0x7f)

/-- What follows a line end. -/
def afterNewline : List Char → Option (List Char)
  | '\n' :: rest => some rest
  | '\r' :: '\n' :: rest => some rest
  | _ => none

/-- A comment is passed over, up to the end of its line. -/
def skipComment : List Char → List Char
  | '#' :: rest => rest.dropWhile isText
  | rest => rest

/-- The end of a line: blanks, a comment and a line end or the end of the text. -/
def afterLine (chars : List Char) : Option (List Char) :=
  match skipComment (skipBlanks chars) with
  | [] => some []
  | rest => afterNewline rest

/-- Blanks, line ends and comments that end in one. -/
def skipSpace : Nat → List Char → List Char
  | 0, chars => chars
  | fuel + 1, chars =>
    let bare := skipBlanks chars
    match afterNewline (skipComment bare) with
    | some rest => skipSpace fuel rest
    | none => bare

def hexOfChars : Nat → List Char → Option (Nat × List Char)
  | 0, rest => some (0, rest)
  | count + 1, c :: rest =>
    match Hex.value? (UInt8.ofNat (if c.toNat < 128 then c.toNat else 0)) with
    | none => none
    | some d => (hexOfChars count rest).map fun (n, rest) => (d * Nat.pow 16 count + n, rest)
  | _ + 1, [] => none

/-- The character with a code, unless it is half of a pair or too large. -/
def charOf (code : Nat) : Option Char :=
  if h : code.isValidChar then some (Char.ofNatAux code h) else none

/-- What a backslash and the characters after it stand for. -/
def escape : Reader Char
  | 'b' :: rest => some ('\x08', rest)
  | 't' :: rest => some ('\t', rest)
  | 'n' :: rest => some ('\n', rest)
  | 'f' :: rest => some ('\x0c', rest)
  | 'r' :: rest => some ('\r', rest)
  | '"' :: rest => some ('"', rest)
  | '\\' :: rest => some ('\\', rest)
  | 'u' :: rest => do
    let (code, rest) ← hexOfChars 4 rest
    return (← charOf code, rest)
  | 'U' :: rest => do
    let (code, rest) ← hexOfChars 8 rest
    return (← charOf code, rest)
  | _ => none

/-- The inside of a string in quotes, on one line. -/
def basicBody : Nat → Reader (List Char)
  | 0, _ => none
  | _, [] => none
  | fuel + 1, c :: rest =>
    if c = '"' then some ([], rest)
    else if c = '\\' then do
      let (c, rest) ← escape rest
      (basicBody fuel rest).map fun (body, rest) => (c :: body, rest)
    else if isText c then (basicBody fuel rest).map fun (body, rest) => (c :: body, rest)
    else none

/-- The inside of a string in apostrophes, on one line. -/
def literalBody : Reader (List Char)
  | [] => none
  | c :: rest =>
    if c = '\'' then some ([], rest)
    else if isText c then (literalBody rest).map fun (body, rest) => (c :: body, rest)
    else none

/-- Marks in a row end a string over several lines if there are three or more; up to two of them
then belong to the string, and so do one or two that end nothing. -/
def closing (mark : Char) (chars : List Char) : Option (List Char × Bool × List Char) :=
  let run := chars.takeWhile (· == mark)
  let rest := chars.dropWhile (· == mark)
  if run.length < 3 then some (run, false, rest)
  else if run.length ≤ 5 then some (run.drop 3, true, rest)
  else none

/-- A backslash at the end of a line takes the line end and all space after it away. -/
def afterLineEscape (chars : List Char) : Option (List Char) :=
  (afterNewline (skipBlanks chars)).map fun rest =>
    rest.dropWhile fun c => isBlank c || c == '\n' || c == '\r'

/-- The inside of a string over several lines; one in apostrophes knows no escapes. -/
def multilineBody (mark : Char) : Nat → Reader (List Char)
  | 0, _ => none
  | _, [] => none
  | fuel + 1, c :: rest =>
    if c = mark then
      match closing mark (c :: rest) with
      | none => none
      | some (inner, true, rest) => some (inner, rest)
      | some (inner, false, rest) =>
        (multilineBody mark fuel rest).map fun (body, rest) => (inner ++ body, rest)
    else if c = '\\' ∧ mark = '"' then
      match afterLineEscape rest with
      | some rest => multilineBody mark fuel rest
      | none => do
        let (c, rest) ← escape rest
        (multilineBody mark fuel rest).map fun (body, rest) => (c :: body, rest)
    else
      match afterNewline (c :: rest) with
      | some rest => (multilineBody mark fuel rest).map fun (body, rest) => ('\n' :: body, rest)
      | none =>
        if isText c then (multilineBody mark fuel rest).map fun (body, rest) => (c :: body, rest)
        else none

/-- A line end right after the opening marks does not count. -/
def dropFirstNewline (chars : List Char) : List Char := (afterNewline chars).getD chars

/-- A string of any sort. -/
def stringOf (chars : List Char) : Option (String × List Char) :=
  let fuel := chars.length
  let found := match chars with
    | '"' :: '"' :: '"' :: rest => multilineBody '"' fuel (dropFirstNewline rest)
    | '\'' :: '\'' :: '\'' :: rest => multilineBody '\'' fuel (dropFirstNewline rest)
    | '"' :: rest => basicBody fuel rest
    | '\'' :: rest => literalBody rest
    | _ => none
  found.map fun (body, rest) => (String.ofList body, rest)

end Cutover.Toml
