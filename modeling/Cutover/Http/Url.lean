import Cutover.Http.Percent
import Cutover.Http.Target

/-! Addresses on the web, as people write them. A scheme comes first, then a host with a port, then a
path and a query; what follows a number sign is dropped. Backslashes count as slashes, segments of
one or two dots lead along the path, and octets that may not stand in an address are written with
percent signs. -/
namespace Cutover.Http

/-- An address that is spoken to without encryption. -/
structure Url where
  /-- The host as it is written. -/
  name : List UInt8
  /-- The four octets of the host, when it is given by number. -/
  host : Option (List Nat)
  port : Nat
  target : Target
  deriving DecidableEq

namespace Url

abbrev Octets := List UInt8

def backslash : UInt8 := 0x5c
def dot : UInt8 := 0x2e

def isSlash (octet : UInt8) : Bool := octet == Target.slash || octet == backslash

def isBlank (octet : UInt8) : Bool := octet ≤ 0x20

/-- Blanks around an address do not count, nor do tabs and line ends within it. -/
def clean (octets : Octets) : Octets :=
  (((octets.dropWhile isBlank).reverse.dropWhile isBlank).reverse).filter fun octet =>
    !(octet == 0x09 || octet == 0x0a || octet == 0x0d)

/-- Octets that are written with percent signs wherever they stand. -/
def isControl (octet : UInt8) : Bool := octet < 0x20 || 0x7f ≤ octet

/-- Whether an octet stands for itself in a path. -/
def literalInPath (octet : UInt8) : Bool :=
  !(isControl octet || [0x20, 0x22, 0x23, 0x3c, 0x3e, 0x3f, 0x60, 0x7b, 0x7d].contains octet)

def literalInQuery (octet : UInt8) : Bool :=
  !(isControl octet || [0x20, 0x22, 0x23, 0x27, 0x3c, 0x3e].contains octet)

/-- A dot may be written with a percent sign here. -/
def isDots (n : Nat) (segment : Octets) : Bool :=
  segment.length ≤ 3 * n && Percent.decode segment == List.replicate n dot

/-- Goes one segment along a path, kept backwards; `last` tells that no slash follows. -/
def walk (path : List Octets) (segment : Octets) (last : Bool) : List Octets :=
  let stay := fun (path : List Octets) => if last then [] :: path else path
  if isDots 2 segment then stay path.tail
  else if isDots 1 segment then stay path
  else segment :: path

def walkAll (path : List Octets) : List Octets → List Octets
  | [] => path
  | [segment] => walk path segment true
  | segment :: rest => walkAll (walk path segment false) rest

/-- A path in its plain form. -/
def normalize (octets : Octets) : Octets :=
  let slashed := octets.map fun octet => if isSlash octet then Target.slash else octet
  let segments := (if slashed.head? == some Target.slash then slashed.tail else slashed).splitOn Target.slash
  (walkAll [] segments).reverse.flatMap fun segment =>
    Target.slash :: Percent.encode literalInPath segment

/-- A number in the notation that a leading zero or `0x` tells. -/
def looseNumber (octets : Octets) : Option Nat :=
  let digits := fun (base : Nat) (octets : Octets) => octets.foldlM (fun n octet => do
    let d ← Hex.value? octet
    if d < base then some (n * base + d) else none) 0
  match octets with
  | [] => none
  | 0x30 :: 0x78 :: rest | 0x30 :: 0x58 :: rest => digits 16 rest
  | 0x30 :: rest => digits 8 rest
  | rest => digits 10 rest

/-- A host that is given by number, of up to four parts; the last part covers what the others leave. -/
def looseHost (octets : Octets) : Option (List Nat) := do
  let parts := octets.splitOn dot
  let parts := if parts.getLast? == some [] then parts.dropLast else parts
  let numbers ← parts.mapM looseNumber
  let lead := numbers.dropLast
  let last ← numbers.getLast?
  if 4 < numbers.length || lead.any (256 ≤ ·) || Nat.pow 256 (4 - lead.length) ≤ last then none
  else
    let rest := (List.range (4 - lead.length)).reverse.map fun i => last / Nat.pow 256 i % 256
    return lead ++ rest

def portOf (digits : Octets) : Option Nat :=
  if digits.isEmpty then some 80
  else if digits.all fun d => 0x30 ≤ d && d ≤ 0x39 then
    let n := digits.foldl (fun n d => n * 10 + (d.toNat - 0x30)) 0
    if n < 0x10000 then some n else none
  else none

/-- What an authority says, any user's name left out: a host and its port. -/
def authority (octets : Octets) : Option (Octets × Nat) :=
  let place := (octets.reverse.takeWhile (· != 0x40)).reverse
  let (host, port) := place.span (· != Target.colon)
  if host.isEmpty then none else (portOf (port.drop 1)).map (Percent.decode host, ·)

/-- Reads an address with the scheme `http`; there is none in any other text. -/
def ofOctets (octets : Octets) : Option Url := do
  let octets := clean octets
  let (scheme, rest) := octets.span (· != Target.colon)
  if scheme.map Target.lower ≠ Utf8.encode "http" || rest.isEmpty then none
  else
    let rest := (rest.drop 1).dropWhile isSlash
    let (place, rest) := rest.span fun octet =>
      !(isSlash octet || octet == Target.question || octet == Target.hash)
    let (host, port) ← authority place
    let (path, query) := (Target.dropFragment rest).span (· != Target.question)
    return ⟨host, looseHost host, port, ⟨normalize path, match query with
      | [] => none
      | _ :: query => some (Percent.encode literalInQuery query)⟩⟩

def ofText (text : String) : Option Url := ofOctets (Utf8.encode text)

end Url
end Cutover.Http
