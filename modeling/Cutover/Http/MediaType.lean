/-! Media types, as far as it takes to tell JSON. A type has a main part and a subtype, which may end
in a suffix after a plus sign, and parameters may follow. -/
namespace Cutover.Http

structure MediaType where
  main : String
  subtype : String
  /-- What follows the last plus sign of the subtype. -/
  suffix : Option String
  deriving DecidableEq

namespace MediaType

def isToken (c : Char) : Bool :=
  c.isAlphanum || "!#$%&'*+-.^_|~".toList.contains c || c.toNat == 0x60

def isPlain (c : Char) : Bool := 31 < c.toNat && c.toNat < 127

/-- Skips a quoted value up to its closing mark and the blanks after it. -/
def afterQuoted : List Char → Option (List Char)
  | [] => none
  | '"' :: rest =>
    match rest.dropWhile (· == ' ') with
    | [] => some []
    | ';' :: rest => some rest
    | _ => none
  | c :: rest => if isPlain c then afterQuoted rest else none

/-- What follows the value of a parameter. -/
def afterValue : List Char → Option (List Char)
  | '"' :: c :: rest => if isPlain c then afterQuoted rest else none
  | ['"'] => none
  | chars =>
    match chars.dropWhile isToken with
    | [] => some []
    | ';' :: rest => if (chars.takeWhile isToken).isEmpty then none else some rest
    | _ => none

/-- Whether parameters are well formed; every one takes at least one character. -/
def parametersFit : Nat → List Char → Bool
  | 0, _ => false
  | _ + 1, [] => true
  | fuel + 1, ' ' :: rest => parametersFit fuel rest
  | fuel + 1, chars =>
    match chars.takeWhile isToken, chars.dropWhile isToken with
    | _ :: _, '=' :: rest =>
      match afterValue rest with
      | some rest => parametersFit fuel rest
      | none => false
    | _, _ => false

/-- The subtype without its suffix, and the suffix. A plus sign that begins a subtype belongs to it. -/
def splitSuffix (subtype : List Char) : List Char × Option (List Char) :=
  match subtype.reverse.span (· != '+') with
  | (suffix, _ :: rest) => if rest.isEmpty then (subtype, none) else (rest.reverse, some suffix.reverse)
  | _ => (subtype, none)

def ofText (text : String) : Option MediaType :=
  let chars := text.toList
  match chars.takeWhile isToken, chars.dropWhile isToken with
  | main@(_ :: _), '/' :: rest =>
    match rest.takeWhile isToken, rest.dropWhile isToken with
    | subtype, after =>
      let fits := match after with
        | [] => true
        | ';' :: parameters => !subtype.isEmpty && parametersFit (parameters.length + 1) parameters
        | _ => false
      if fits then
        let (bare, suffix) := splitSuffix subtype
        let folded := fun (l : List Char) => String.ofList (l.map Char.toLower)
        some ⟨folded main, folded bare, suffix.map folded⟩
      else none
  | _, _ => none

def isJson (m : MediaType) : Bool :=
  m.main == "application" && (m.subtype == "json" || m.suffix == some "json")

end MediaType
end Cutover.Http
