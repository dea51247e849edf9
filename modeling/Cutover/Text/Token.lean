/-! Tokens of thirty-two hexadecimal digits, which are written in five groups. -/
namespace Cutover.Token

def groups (digits : List Char) : List (List Char) :=
  [digits.take 8, (digits.drop 8).take 4, (digits.drop 12).take 4, (digits.drop 16).take 4, digits.drop 20]

/-- The one way to write a token, of the many in which it may be given: without braces, in lower case. -/
def normalise (text : String) : String :=
  let digits := (text.toList.filter Char.isAlphanum).map Char.toLower
  "-".intercalate ((groups digits).map String.ofList)

end Cutover.Token
