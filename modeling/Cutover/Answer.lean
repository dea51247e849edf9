import Cutover.Json.Record
import Cutover.Json.Value
import Cutover.Pattern

/-! What the control plane and its clients say to each other. Every answer has a code, zero meaning
success, a message and data. -/
namespace Cutover

def Pattern.ofJson (r : Json.Raw) : Option Pattern := (Json.string? r).bind Pattern.ofName?

structure Answer where
  code : Int32
  msg : String
  data : Json

namespace Answer

def plain (msg : String) : Answer := ⟨0, msg, .null⟩

def ok : Answer := plain "OK"

def okWith (data : Json) : Answer := ⟨0, "OK", data⟩

def notOk : Answer := plain "NOK"

def systemFail : Answer := plain "system fail"

/-- The request's body was of no use. -/
def systemError : Answer := ⟨501001, "system error", .null⟩

def unknownPattern (name : String) : Answer := ⟨400001, "unknown pattern", .string name⟩

def isOk (a : Answer) : Bool := a.code == 0 && a.msg == "OK"

def toJson (a : Answer) : Json :=
  .object [("code", .int a.code.toInt), ("msg", .string a.msg), ("data", a.data)]

/-- Nesting is limited to 127 levels, and the answer itself is one. -/
def ofJson (r : Json.Raw) : Option Answer := do
  match ← Json.record [⟨"code", .defaulted⟩, ⟨"msg", .required⟩, ⟨"data", .defaulted⟩] r with
  | [code, some msg, data] =>
    return {
      code := ← match code with
        | none => some 0
        | some r => Json.int32? r
      msg := ← Json.string? msg
      data := ← match data with
        | none => some .null
        | some r => Json.ofRaw 126 r }
  | _ => none

end Answer

/-- The body of a request to follow updates. -/
structure IncrementalStart where
  utime : Int64
  /-- Milliseconds. -/
  interval : Int64
  deriving DecidableEq

namespace IncrementalStart

def toJson (s : IncrementalStart) : Json :=
  .object [("utime", .int s.utime.toInt), ("interval", .int s.interval.toInt)]

def ofJson (r : Json.Raw) : Option IncrementalStart := do
  match ← Json.record [⟨"utime", .required⟩, ⟨"interval", .required⟩] r with
  | [some utime, some interval] => return ⟨← Json.int64? utime, ← Json.int64? interval⟩
  | _ => none

end IncrementalStart

structure SessionReport where
  session : UInt64
  direction : String
  /-- Seconds since the epoch. -/
  started : Int64
  running : Bool
  deriving DecidableEq

namespace SessionReport

def toJson (s : SessionReport) : Json :=
  .object [("session", .int s.session.toNat), ("direction", .string s.direction),
    ("started", .int s.started.toInt), ("running", .bool s.running)]

def ofJson (r : Json.Raw) : Option SessionReport := do
  match ← Json.record [⟨"session", .required⟩, ⟨"direction", .required⟩, ⟨"started", .required⟩,
      ⟨"running", .required⟩] r with
  | [some session, some direction, some started, some running] =>
    return ⟨← Json.uint64? session, ← Json.string? direction, ← Json.int64? started,
      ← Json.bool? running⟩
  | _ => none

end SessionReport

structure Status where
  pattern : Pattern
  full : Option SessionReport
  incr : Option SessionReport
  deriving DecidableEq

namespace Status

def optional : Option SessionReport → Json
  | none => .null
  | some s => s.toJson

def toJson (s : Status) : Json :=
  .object [("pattern", .string s.pattern.name), ("full", optional s.full), ("incr", optional s.incr)]

def ofJson (r : Json.Raw) : Option Status := do
  match ← Json.record [⟨"pattern", .required⟩, ⟨"full", .optional⟩, ⟨"incr", .optional⟩] r with
  | [some pattern, full, incr] =>
    return ⟨← Pattern.ofJson pattern, ← Json.option? SessionReport.ofJson full,
      ← Json.option? SessionReport.ofJson incr⟩
  | _ => none

end Status
end Cutover
