import Cutover.Answer
import Cutover.CommandLine
import Cutover.Http.Message
import Cutover.Log

/-! The operator's tool. It turns a command line into one request to the control plane, shows the
answer, and fails unless the answer says that all is well. -/
namespace Cutover.Operator

open CommandLine (Command Setting Environment Halt)
open Http (Call)

/-- The variable of the environment that says where the control plane is. -/
def planeVariable : String := "MIGCTL_API"

def standardPlane : String := "http://127.0.0.1:20690"

/-- Integers as they are given on the command line. -/
def int64Of (text : String) : Option Int64 := do
  let n ← Decimal.integerOfDigits text.toList
  if -0x8000000000000000 ≤ n ∧ n < 0x8000000000000000 then some (Int64.ofInt n) else none

def command (name : String) (settings : List Setting) (operand : Bool) (inner : List Command) : Command :=
  ⟨name, settings, false, operand, inner⟩

def commandLine : Command where
  name := "migctl"
  settings := [⟨'A', "api", some planeVariable, .value fun _ => true⟩, ⟨'v', "verbose", none, .switch⟩]
  versioned := true
  operand := false
  inner := [
    command "switch" [] true [],
    command "full" [] false [command "start" [] false [], command "stop" [] false []],
    command "incr" [] false [
      command "start" [
        ⟨'u', "utime", none, .value fun text => (int64Of text).isSome⟩,
        ⟨'i', "interval", none, .value fun text => (int64Of text).any (0 ≤ ·)⟩] false [],
      command "stop" [] false []],
    command "status" [] false []]

def versionText : String := "migctl 0.1.0"

inductive Operation where
  /-- The name need not be that of a pattern. -/
  | switch (name : String)
  | startFull
  | stopFull
  | startIncremental (start : IncrementalStart)
  | stopIncremental
  | status

namespace Operation

/-- Where the control plane has the operation. It knows a pattern by its name; what is no name of a
pattern goes to the place where it is refused. -/
def place : Operation → String
  | .switch name => if (Pattern.ofName? name).isSome then name else "pattern/" ++ name
  | .startFull => "full/start"
  | .stopFull => "full/stop"
  | .startIncremental _ => "incr/start"
  | .stopIncremental => "incr/stop"
  | .status => "status"

def method : Operation → String
  | .status => "GET"
  | _ => "POST"

def body : Operation → Option Json
  | .startIncremental start => some start.toJson
  | _ => none

def numberOr (r : CommandLine.Request) (word : String) (standard : Int64) : Int64 :=
  ((r.value? word).bind int64Of).getD standard

def ofRequest (r : CommandLine.Request) : Option Operation :=
  match r.path.tail with
  | ["switch"] => r.operand.map .switch
  | ["full", "start"] => some .startFull
  | ["full", "stop"] => some .stopFull
  | ["incr", "start"] => some (.startIncremental ⟨numberOr r "utime" 0, numberOr r "interval" 1000⟩)
  | ["incr", "stop"] => some .stopIncremental
  | ["status"] => some .status
  | _ => none

end Operation

/-- Why the tool fails. -/
inductive Failure where
  /-- The request was not made, or nothing of use came back. -/
  | request
  | refused (msg : String) (code : Int32)
  | logFilter

def Failure.message : Failure → String
  | .request => "The request failed"
  | .refused msg code =>
    "migratord refused the request: " ++ msg ++ " (code " ++ toString code.toInt ++ ")"
  | .logFilter => "Failed to parse RUST_LOG"

/-- The address of an operation, given where the control plane is said to be. -/
def address (plane : String) (o : Operation) : String :=
  String.ofList (plane.toList.reverse.dropWhile (· == '/')).reverse ++ "/migrator/" ++ o.place

def call (plane : String) (o : Operation) : Option Call :=
  (Http.Url.ofText (address plane o)).map fun url =>
    ⟨o.method, url, o.body.map fun _ => "application/json",
      match o.body with
      | none => []
      | some body => Utf8.encode body.text⟩

/-- What a command line comes to, before anything is sent. -/
inductive Plan where
  | halt (h : Halt)
  | fail (f : Failure)
  | send (c : Call)

def plan (environment : Environment) (arguments : List String) : Plan :=
  match commandLine.read environment arguments with
  | .error h => .halt h
  | .ok r =>
    if (Log.Filter.ofText .warn ((environment.lookup Log.variableName).getD "")).isNone then .fail .logFilter
    else match (Operation.ofRequest r).bind (call ((r.value? "api").getD standardPlane)) with
      | none => .fail .request
      | some c => .send c

/-- Whether responses with this status come without a body. -/
def bodiless (status : Nat) : Bool := status == 204 || status == 304

/-- What is shown of a response, and how the tool fails if it does. -/
def conclude (status : Nat) (body : List UInt8) : String × Option Failure :=
  let body := if bodiless status then [] else body
  if 400 ≤ status && status < 600 then ("", some .request)
  else match (Json.Raw.read body).bind Answer.ofJson with
    | none => ("", some .request)
    | some a => (a.toJson.prettyText ++ "\n", if a.isOk then none else some (.refused a.msg a.code))

/-- What comes of a run: the code it exits with, what it shows, what it sent and why it failed. -/
structure Outcome where
  code : Nat
  shown : String
  sent : List Call
  failure : Option Failure

def halted : Halt → Outcome
  | .wrong => ⟨2, "", [], none⟩
  | .help => ⟨0, "", [], none⟩
  | .version => ⟨0, versionText ++ "\n", [], none⟩

def failed (f : Failure) : Outcome := ⟨1, "", [], some f⟩

/-- The end of a run that got a response. -/
def concluded (c : Call) (status : Nat) (body : List UInt8) : Outcome :=
  let (shown, failure) := conclude status body
  ⟨if failure.isSome then 1 else 0, shown, [c], failure⟩

/-- A whole run. Each address that can be reached gives the same response. -/
def run (reachable : Http.Url → Bool) (status : Nat) (body : List UInt8) (environment : Environment)
    (arguments : List String) : Outcome :=
  match plan environment arguments with
  | .halt h => halted h
  | .fail f => failed f
  | .send c => if reachable c.url then concluded c status body else failed .request

end Cutover.Operator
