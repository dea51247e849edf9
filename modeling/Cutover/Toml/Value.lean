/-! The values of a TOML document. -/
namespace Cutover

inductive Toml where
  | string (s : String)
  | integer (n : Int)
  | float (x : Float)
  | boolean (b : Bool)
  /-- A date, a time of day or both, as written. -/
  | moment (spelling : String)
  | array (items : List Toml)
  | table (members : List (String × Toml))
  deriving Inhabited

end Cutover
