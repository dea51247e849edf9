import Cutover.Sql.Connection

/-! A server that executes nothing. It answers each statement with what it was told to, notes what it
was sent, and refuses whatever contains a certain text. -/
namespace Cutover.Rehearsal

/-- What a server was sent. -/
inductive Receipt where
  | text (sql : String)
  | executed (statement : Sql.Statement)
  /-- A statement that it would not prepare. -/
  | refused (sql : String)

/-- Whether a text occurs in another. -/
def occurs (part : List Char) : List Char → Bool
  | [] => part.isEmpty
  | c :: rest => part.isPrefixOf (c :: rest) || occurs part rest

structure Responder where
  reachable : Bool
  /-- What is refused, and how. -/
  refusing : Option (String × Sql.Refusal)
  reply : Sql.Execution
  log : List Receipt

namespace Responder

def start (reachable : Bool) : Responder := ⟨reachable, none, .effect 0 0, []⟩

def note (r : Responder) (x : Receipt) : Responder := { r with log := r.log ++ [x] }

def refusal? (r : Responder) (sql : String) : Option Sql.Refusal :=
  match r.refusing with
  | none => none
  | some (part, refusal) => if occurs part.toList sql.toList then some refusal else none

/-- Does as told unless a text is refused. -/
def verdict (r : Responder) (sql : String) (a : α) : Except Sql.Refusal α :=
  match r.refusal? sql with
  | some refusal => .error refusal
  | none => .ok a

/-- A statement has a parameter wherever it has a question mark. -/
def shape (r : Responder) (sql : String) : Sql.Shape :=
  ⟨(sql.toList.filter (· = '?')).length, r.reply.resultSet.columns.map (·.1)⟩

/-- What makes a connection behave is not worth a note. -/
def noteText (r : Responder) (sql : String) : Responder :=
  if sql == Sql.Connection.setup then r else r.note (.text sql)

def answer : (q : Sql.server.Ask) → Responder → Sql.server.Reply q × Responder
  | (_, .connect), r => (r.reachable, r)
  | (_, .text sql), r => (r.verdict sql (), r.noteText sql)
  | (_, .prepare sql), r =>
    match r.refusal? sql with
    | some refusal => (.error refusal, r.note (.refused sql))
    | none => (.ok (r.shape sql), r)
  | (_, .execute s), r => (r.verdict ("EXECUTE " ++ s.text) r.reply, r.note (.executed s))

end Responder
end Cutover.Rehearsal
