import Cutover.Text.Utf8

/-! Hexadecimal digits, and octets as pairs of them. -/
namespace Cutover.Hex

def digit (n : Nat) : Char := (Nat.toDigits 16 n).headD '0'

/-- The value of a digit, which may be written in either case. -/
def value? (b : UInt8) : Option Nat :=
  if 0x30 ≤ b ∧ b ≤ 0x39 then some (b.toNat - 0x30)
  else if 0x41 ≤ b ∧ b ≤ 0x46 then some (b.toNat - 0x37)
  else if 0x61 ≤ b ∧ b ≤ 0x66 then some (b.toNat - 0x57)
  else none

def pair? (a b : UInt8) : Option UInt8 := do
  return UInt8.ofNat ((← value? a) * 16 + (← value? b))

def encode (octets : List UInt8) : String :=
  String.ofList (octets.flatMap fun x => [digit (x.toNat / 16), digit (x.toNat % 16)])

def ofPairs : List UInt8 → Option (List UInt8)
  | [] => some []
  | [_] => none
  | a :: b :: rest => do return (← pair? a b) :: (← ofPairs rest)

def decode (text : String) : Option (List UInt8) := ofPairs (Utf8.encode text)

end Cutover.Hex
