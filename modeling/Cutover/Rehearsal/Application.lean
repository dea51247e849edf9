import Cutover.Sql.Pool

/-! An application at a pool. It keeps its open transactions under labels of its own. -/
namespace Cutover.Rehearsal

/-- The open transactions by their labels. -/
abbrev Labels := List (String × Sql.Handle)

/-- What an application does; `within` is the label of a transaction. -/
inductive Deed where
  | exec (within : Option String) (s : Sql.Statement)
  | query (within : Option String) (s : Sql.Statement)
  | queryRow (within : Option String) (s : Sql.Statement)
  | prepare (within : Option String) (query : String)
  /-- Another transaction of that label is given up. -/
  | begin (label : String) (o : Sql.TransactionOptions)
  | commit (label : String)
  | rollback (label : String)
  | abandon (label : String)
  /-- Loses sight of a transaction, which goes on. -/
  | forget (label : String)

/-- What comes of a deed. -/
inductive Gain where
  | effect (e : Sql.Effect)
  | rows (l : List Sql.Row)
  | row (r : Option Sql.Row)
  | prepared (p : Sql.Prepared)
  | begun
  | nothing

inductive Obstacle where
  /-- There is no transaction of the label. -/
  | unlabelled
  | failed (e : Sql.Error)

namespace Application

abbrev Doing := Dialogue Sql.pool (Except Obstacle Gain × Labels)

def without (label : String) (l : Labels) : Labels := l.filter (·.1 != label)

/-- The call that is made in a transaction, or outside of any. -/
def inside (within : Option String) (l : Labels)
    (call : Option Sql.Handle → Dialogue Sql.pool (Except Sql.Error Gain)) : Doing :=
  match within, within.bind fun label => l.lookup label with
  | some _, none => .done (.error .unlabelled, l)
  | _, h => (call h).bind fun r => .done (r.mapError .failed, l)

/-- Ends a transaction; its label is free, whatever comes of it. -/
def finish (label : String) (l : Labels)
    (call : Sql.Handle → Dialogue Sql.pool (Except Sql.Error Gain)) : Doing :=
  match l.lookup label with
  | none => .done (.error .unlabelled, l)
  | some h => (call h).bind fun r => .done (r.mapError .failed, without label l)

def askAbandon (h : Sql.Handle) : Dialogue Sql.pool (Except Sql.Error Gain) :=
  (Dialogue.call (I := Sql.pool) (.abandon h)).bind fun () => .done (.ok .nothing)

def ask (q : Sql.Call) (f : q.Reply → Except Sql.Error Gain) : Dialogue Sql.pool (Except Sql.Error Gain) :=
  (Dialogue.call (I := Sql.pool) q).bind fun r => .done (f r)

def act (l : Labels) : Deed → Doing
  | .exec w s => inside w l fun h => ask (.exec h s) fun r => r.map .effect
  | .query w s => inside w l fun h => ask (.query h s) fun r => r.map .rows
  | .queryRow w s => inside w l fun h => ask (.queryRow h s) fun r => r.map .row
  | .prepare w q => inside w l fun h => ask (.prepare h q) fun r => r.map .prepared
  | .begin label o => (Dialogue.call (I := Sql.pool) (.begin o)).bind fun
    | .error e => .done (.error (.failed e), l)
    | .ok h =>
      match l.lookup label with
      | none => .done (.ok .begun, (label, h) :: l)
      | some old => (askAbandon old).bind fun _ => .done (.ok .begun, (label, h) :: without label l)
  | .commit label => finish label l fun h => ask (.commit h) fun r => r.map fun () => .nothing
  | .rollback label => finish label l fun h => ask (.rollback h) fun r => r.map fun () => .nothing
  | .abandon label => finish label l askAbandon
  | .forget label => finish label l fun _ => .done (.ok .nothing)

end Application
end Cutover.Rehearsal
