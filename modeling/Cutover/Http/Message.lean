import Cutover.Http.Url

/-! A request and its response as they travel over a connection that carries nothing else. -/
namespace Cutover.Http

structure Call where
  method : String
  url : Url
  contentType : Option String
  body : List UInt8

namespace Call

/-- The path and the query of the address. -/
def targetOctets (c : Call) : List UInt8 :=
  c.url.target.path ++ match c.url.target.query with
    | none => []
    | some query => Target.question :: query

def headers (c : Call) : List String :=
  (c.contentType.map ("content-type: " ++ ·)).toList ++
    ["content-length: " ++ toString c.body.length, "connection: close"]

def toOctets (c : Call) : List UInt8 :=
  let line := fun (text : String) => Utf8.encode (text ++ "\r\n")
  Utf8.encode (c.method ++ " ") ++ c.targetOctets ++ line " HTTP/1.1" ++
    Utf8.encode "host: " ++ c.url.name ++ line (":" ++ toString c.url.port) ++
    c.headers.flatMap line ++ line "" ++ c.body

end Call

/-- What came back: the status, and the body. -/
structure Reply where
  status : Nat
  body : List UInt8

namespace Reply

/-- What follows the empty line after the headers. -/
def afterHeaders : List UInt8 → Option (List UInt8)
  | 0x0d :: 0x0a :: 0x0d :: 0x0a :: body => some body
  | _ :: rest => afterHeaders rest
  | [] => none

/-- The status is the second word of the first line. -/
def statusOf (octets : List UInt8) : Option Nat :=
  let word := ((octets.dropWhile (· != 0x20)).drop 1).takeWhile fun o => o != 0x20 && o != 0x0d
  (Utf8.decode word).bind String.toNat?

def ofOctets (octets : List UInt8) : Option Reply := do
  return ⟨← statusOf octets, ← afterHeaders octets⟩

end Reply
end Cutover.Http
