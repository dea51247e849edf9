import Cutover.Metrics
import Cutover.Sql.Pool

/-! Routing of statements between the two databases. A statement goes to the primary of the pattern
in force, whose answer is the answer; if it changed something and the pattern is dual, the secondary
is sent the same afterwards, and what comes of that is counted but never told. A transaction keeps
the pattern it began under. -/
namespace Cutover.DualWrite

/-- The two pools below the router. -/
def pools : Interface := ⟨Side × Sql.Call, fun q => q.2.Reply⟩

/-- What the secondary failed to follow. -/
inductive Lapse where
  | begin
  | exec
  | commit
  | rollback
  deriving DecidableEq

def Lapse.name : Lapse → String
  | .begin => "begin"
  | .exec => "exec"
  | .commit => "commit"
  | .rollback => "rollback"

/-- An answer, with the lapse of the secondary if there was one. -/
structure Routed (α : Type) where
  answer : Except Sql.Error α
  lapse : Option Lapse

def name : String := "dual-write"

/-- Where statements outside of transactions go that change something. -/
def secondary? (p : Pattern) : Option Side := if p.dual then some p.secondary else none

/-- The secondary's part: it is asked if there is one, and only its failure matters. -/
def follow (lapse : Lapse) (answer : α) :
    Option (Dialogue pools (Except Sql.Error β)) → Dialogue pools (Routed α)
  | none => .done ⟨.ok answer, none⟩
  | some d => d.bind fun
    | .ok _ => .done ⟨.ok answer, none⟩
    | .error _ => .done ⟨.ok answer, some lapse⟩

/-- Runs the primary's part, and the secondary's if it succeeds. -/
def lead (lapse : Lapse) (primary : Dialogue pools (Except Sql.Error α))
    (secondary : Option (Dialogue pools (Except Sql.Error β))) : Dialogue pools (Routed α) :=
  primary.bind fun
    | .error e => .done ⟨.error e, none⟩
    | .ok answer => follow lapse answer secondary

def askExec (side : Side) (within : Option Sql.Handle) (s : Sql.Statement) :
    Dialogue pools (Except Sql.Error Sql.Effect) :=
  .call (I := pools) (side, .exec within s)

def exec (p : Pattern) (s : Sql.Statement) : Dialogue pools (Routed Sql.Effect) :=
  lead .exec (askExec p.primary none s) ((secondary? p).map (askExec · none s))

def query (p : Pattern) (s : Sql.Statement) : Dialogue pools (Except Sql.Error (List Sql.Row)) :=
  .call (I := pools) (p.primary, .query none s)

def queryRow (p : Pattern) (s : Sql.Statement) : Dialogue pools (Except Sql.Error (Option Sql.Row)) :=
  .call (I := pools) (p.primary, .queryRow none s)

/-- A prepared statement would be bound to one of the two databases. -/
def prepare : Except Sql.Error Sql.Prepared := .error (.prepareUnsupported name)

/-- A transaction on the primary, and on the secondary if it follows. -/
structure Transaction where
  pattern : Pattern
  primary : Sql.Handle
  secondary : Option Sql.Handle
  deriving DecidableEq

def askBegin (side : Side) (o : Sql.TransactionOptions) : Dialogue pools (Except Sql.Error Sql.Handle) :=
  .call (I := pools) (side, .begin o)

def begin (p : Pattern) (o : Sql.TransactionOptions) : Dialogue pools (Routed Transaction) :=
  (askBegin p.primary o).bind fun
    | .error e => .done ⟨.error e, none⟩
    | .ok primary =>
      match secondary? p with
      | none => .done ⟨.ok ⟨p, primary, none⟩, none⟩
      | some side => (askBegin side o).bind fun
        | .ok h => .done ⟨.ok ⟨p, primary, some h⟩, none⟩
        | .error _ => .done ⟨.ok ⟨p, primary, none⟩, some .begin⟩

namespace Transaction

def exec (t : Transaction) (s : Sql.Statement) : Dialogue pools (Routed Sql.Effect) :=
  lead .exec (askExec t.pattern.primary (some t.primary) s)
    (t.secondary.map fun h => askExec t.pattern.secondary (some h) s)

def query (t : Transaction) (s : Sql.Statement) : Dialogue pools (Except Sql.Error (List Sql.Row)) :=
  .call (I := pools) (t.pattern.primary, .query (some t.primary) s)

def queryRow (t : Transaction) (s : Sql.Statement) :
    Dialogue pools (Except Sql.Error (Option Sql.Row)) :=
  .call (I := pools) (t.pattern.primary, .queryRow (some t.primary) s)

def askCommit (side : Side) (h : Sql.Handle) : Dialogue pools (Except Sql.Error Unit) :=
  .call (I := pools) (side, .commit h)

def askRollback (side : Side) (h : Sql.Handle) : Dialogue pools (Except Sql.Error Unit) :=
  .call (I := pools) (side, .rollback h)

/-- Gives up the part of a side. -/
def giveUp (side : Side) (h : Sql.Handle) : Dialogue pools Unit := .call (I := pools) (side, .abandon h)

/-- Ends both parts, the primary's first; if that fails the secondary's is given up. -/
def finish (lapse : Lapse) (ask : Side → Sql.Handle → Dialogue pools (Except Sql.Error Unit))
    (t : Transaction) : Dialogue pools (Routed Unit) :=
  (ask t.pattern.primary t.primary).bind fun
    | .ok () => follow lapse () (t.secondary.map (ask t.pattern.secondary))
    | .error e =>
      match t.secondary with
      | none => .done ⟨.error e, none⟩
      | some h => (giveUp t.pattern.secondary h).bind fun () => .done ⟨.error e, none⟩

def commit (t : Transaction) : Dialogue pools (Routed Unit) := t.finish .commit askCommit

def rollback (t : Transaction) : Dialogue pools (Routed Unit) := t.finish .rollback askRollback

/-- Gives up both parts. -/
def abandon (t : Transaction) : Dialogue pools Unit :=
  (giveUp t.pattern.primary t.primary).bind fun () =>
    match t.secondary with
    | none => .done ()
    | some h => giveUp t.pattern.secondary h

end Transaction

def count (lapse : Option Lapse) (m : Metrics) : Metrics :=
  match lapse with
  | none => m
  | some l => m.add .secondaryFailures 1 [("op", l.name)]

/-- A switch by name; a name that is none leaves the pattern as it is. -/
def patternNamed (text : String) : Except Sql.Error Pattern := (Pattern.ofName text).mapError .pattern

end Cutover.DualWrite
