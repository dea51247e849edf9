import Cutover.Operator

/-! The operator's tool as a program. Standard input and output are the connection to the control
plane; what is meant for people goes to standard error. -/
namespace Cutover.Operator

/-- Reads to the end, or as many chunks as are allowed. -/
def readAll (input : IO.FS.Stream) (read : ByteArray) : Nat → IO ByteArray
  | 0 => return read
  | chunks + 1 => do
    let chunk ← input.read 65536
    if chunk.isEmpty then return read else readAll input (read ++ chunk) chunks

/-- Shows what there is to show; the answer is the code to exit with. -/
def finish (o : Outcome) : IO UInt32 := do
  IO.eprint o.shown
  match o.failure with
  | none => pure ()
  | some f => IO.eprintln f.message
  return UInt32.ofNat o.code

/-- Sends a request, and makes of the response what there is to it. -/
def converse (call : Http.Call) : IO Outcome := do
  let output ← IO.getStdout
  output.write ⟨call.toOctets.toArray⟩
  output.flush
  let received ← readAll (← IO.getStdin) .empty 65536
  return match Http.Reply.ofOctets received.data.toList with
    | none => failed .request
    | some reply => concluded call reply.status reply.body

/-- The variables of the environment that matter. -/
def readEnvironment : IO CommandLine.Environment :=
  [planeVariable, Log.variableName].filterMapM fun name => do
    return (← IO.getEnv name).map fun value => (name, value)

end Cutover.Operator

open Cutover in
def main (arguments : List String) : IO UInt32 := do
  match Operator.plan (← Operator.readEnvironment) arguments with
  | .halt h => Operator.finish (Operator.halted h)
  | .fail f => Operator.finish (Operator.failed f)
  | .send call => do Operator.finish (← Operator.converse call)
