import Cutover.Text.Utf8

/-! The target of a request. It is a path, with a query or without, or a whole address with a scheme
and an authority before the path; an authority alone and a single star are targets too, though they
lead nowhere. What follows a number sign is dropped. -/
namespace Cutover.Http

structure Target where
  path : List UInt8
  query : Option (List UInt8)
  deriving DecidableEq

namespace Target

abbrev Octets := List UInt8

def slash : UInt8 := 0x2f
def question : UInt8 := 0x3f
def hash : UInt8 := 0x23
def colon : UInt8 := 0x3a
def star : UInt8 := 0x2a

def isBetween (low high octet : UInt8) : Bool := low ≤ octet && octet ≤ high

/-- Octets beyond ASCII, and the last one of it, are left to be checked as text. -/
def isHigh (octet : UInt8) : Bool := 0x7f ≤ octet

/-- What may stand in a path as it is. -/
def inPath (octet : UInt8) : Bool :=
  octet == 0x21 || isBetween 0x24 0x3b octet || octet == 0x3d || isBetween 0x40 0x5f octet ||
    isBetween 0x61 0x7a octet || octet == 0x7c || octet == 0x7e || octet == 0x22 || octet == 0x7b ||
    octet == 0x7d || isHigh octet

def inQuery (octet : UInt8) : Bool :=
  octet == 0x21 || isBetween 0x24 0x3b octet || octet == 0x3d || isBetween 0x3f 0x7e octet ||
    isHigh octet

def dropFragment (octets : Octets) : Octets := octets.takeWhile (· != hash)

/-- A path with its query; nothing at all is the root. -/
def ofPath (octets : Octets) : Option Target :=
  let octets := dropFragment octets
  let (path, query) := octets.span (· != question)
  if path.all inPath && (query.drop 1).all inQuery && (Utf8.decode octets).isSome then
    some ⟨if path.isEmpty then [slash] else path, match query with
      | [] => none
      | _ :: query => some query⟩
  else none

def isLetterOrDigit (octet : UInt8) : Bool :=
  isBetween 0x30 0x39 octet || isBetween 0x41 0x5a octet || isBetween 0x61 0x7a octet

def inScheme (octet : UInt8) : Bool :=
  isLetterOrDigit octet || octet == 0x2b || octet == 0x2d || octet == 0x2e || octet == 0x7e

def lower (octet : UInt8) : UInt8 := if isBetween 0x41 0x5a octet then octet + 0x20 else octet

/-- What follows a scheme and its separator. -/
def afterScheme (octets : Octets) : Option Octets :=
  let (scheme, rest) := octets.span inScheme
  match rest with
  | 0x3a :: 0x2f :: 0x2f :: rest => if scheme.length ≤ 64 then some rest else none
  | _ => none

def inAuthority (octet : UInt8) : Bool :=
  isLetterOrDigit octet || [0x21, 0x24, 0x26, 0x27, 0x28, 0x29, 0x2a, 0x2b, 0x2c, 0x2d, 0x2e, 0x3a,
    0x3b, 0x3d, 0x40, 0x5b, 0x5d, 0x5f, 0x7e, 0x25].contains octet

/-- A run through an authority: how many colons and whether a percent sign have been seen since the
last mark that makes up for them, which brackets were seen, and whether a user name has just ended. -/
structure Survey where
  colons : Nat
  percent : Bool
  opened : Bool
  closed : Bool
  atEnd : Bool

def Survey.note (s : Survey) (octet : UInt8) : Option Survey :=
  let s := { s with atEnd := false }
  if octet == colon then if 8 ≤ s.colons then none else some { s with colons := s.colons + 1 }
  else if octet == 0x5b then if s.percent || s.opened then none else some { s with opened := true }
  else if octet == 0x5d then
    if !s.opened || s.closed then none else some { s with closed := true, colons := 0, percent := false }
  else if octet == 0x40 then some { s with atEnd := true, colons := 0, percent := false }
  else if octet == 0x25 then some { s with percent := true }
  else some s

def isAuthority (octets : Octets) : Bool :=
  octets.all inAuthority &&
    match octets.foldlM Survey.note ⟨0, false, false, false, false⟩ with
    | none => false
    | some s => s.opened == s.closed && s.colons ≤ 1 && !s.atEnd && !s.percent

/-- Reads a target; what is none is refused. -/
def ofOctets (octets : Octets) : Option Target :=
  if octets.isEmpty || 65534 < octets.length then none
  else if octets = [star] then some ⟨octets, none⟩
  else if octets.head? = some slash then ofPath octets
  else
    match afterScheme octets with
    | none => if isAuthority octets then some ⟨[], none⟩ else none
    | some rest =>
      let (authority, path) := rest.span fun octet => !(octet == slash || octet == question || octet == hash)
      if authority.isEmpty || !isAuthority authority then none else ofPath path

/-- The parts of a path between its slashes. -/
def segments (t : Target) : List Octets := t.path.splitOn slash

end Target
end Cutover.Http
