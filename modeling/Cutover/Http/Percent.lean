import Cutover.Text.Hex

/-! Percent signs in addresses. Two hexadecimal digits after one stand for an octet; a percent sign
without them stands for itself. -/
namespace Cutover.Http.Percent

abbrev Octets := List UInt8

def sign : UInt8 := 0x25

/-- The octets that a part of an address stands for. -/
def decode : Octets → Octets
  | [] => []
  | [a] => [a]
  | [a, b] => [a, b]
  | a :: b :: c :: rest =>
    if a = sign then
      match Hex.pair? b c with
      | some octet => octet :: decode rest
      | none => a :: decode (b :: c :: rest)
    else a :: decode (b :: c :: rest)

def hexDigit (n : Nat) : UInt8 := UInt8.ofNat (if n < 10 then 0x30 + n else 0x37 + n)

/-- An octet as a percent sign and two digits. -/
def escape (octet : UInt8) : Octets := [sign, hexDigit (octet.toNat / 16), hexDigit (octet.toNat % 16)]

/-- Writes the octets that are not to stand for themselves with percent signs. -/
def encode (literal : UInt8 → Bool) (octets : Octets) : Octets :=
  octets.flatMap fun octet => if literal octet then [octet] else escape octet

end Cutover.Http.Percent
