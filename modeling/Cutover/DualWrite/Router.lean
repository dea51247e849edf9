import Cutover.DualWrite

/-! The router as a pool of its own. It holds the pattern in force, the transactions that are open and
the count of lapses, and answers whatever a pool can be asked by asking the two below it. -/
namespace Cutover.DualWrite

structure Router where
  pattern : Pattern
  transactions : List (Sql.Handle × Transaction)
  /-- How many transactions were begun. -/
  begun : Nat
  metrics : Metrics

namespace Router

def start (pattern : Pattern) : Router := ⟨pattern, [], 0, []⟩

def transaction? (r : Router) (h : Sql.Handle) : Option Transaction :=
  (r.transactions.find? (·.1 == h)).map (·.2)

def close (r : Router) (h : Sql.Handle) : Router :=
  { r with transactions := r.transactions.filter (·.1 != h) }

/-- A switch by name. -/
def switchNamed (r : Router) (text : String) : Except Sql.Error Pattern × Router :=
  match patternNamed text with
  | .ok pattern => (.ok pattern, { r with pattern })
  | .error e => (.error e, r)

/-- The answer of a routed call, and what it leaves. -/
def routed (r : Router) (x : Routed α) : Except Sql.Error α × Router :=
  (x.answer, { r with metrics := count x.lapse r.metrics })

def done : Sql.Error := .transactionDone name

/-- Does a part of an open transaction. -/
def inside (r : Router) (h : Sql.Handle) (work : Transaction → Dialogue pools (Except Sql.Error α × Router)) :
    Dialogue pools (Except Sql.Error α × Router) :=
  match r.transaction? h with
  | none => .done (.error done, r)
  | some t => work t

/-- Answers a call under the pattern in force, or under that of its transaction. -/
def answer (r : Router) : (q : Sql.Call) → Dialogue pools (q.Reply × Router)
  | .begin o => (DualWrite.begin r.pattern o).bind fun x => .done <|
    match r.routed x with
    | (.error e, r) => (.error e, r)
    | (.ok t, r) =>
      (.ok r.begun, { r with transactions := (r.begun, t) :: r.transactions, begun := r.begun + 1 })
  | .exec none s => (DualWrite.exec r.pattern s).bind fun x => .done (r.routed x)
  | .exec (some h) s => r.inside h fun t => (t.exec s).bind fun x => .done (r.routed x)
  | .query none s => (DualWrite.query r.pattern s).bind fun a => .done (a, r)
  | .query (some h) s => r.inside h fun t => (t.query s).bind fun a => .done (a, r)
  | .queryRow none s => (DualWrite.queryRow r.pattern s).bind fun a => .done (a, r)
  | .queryRow (some h) s => r.inside h fun t => (t.queryRow s).bind fun a => .done (a, r)
  | .prepare none _ => .done (DualWrite.prepare, r)
  | .prepare (some h) _ => r.inside h fun _ => .done (DualWrite.prepare, r)
  | .commit h => r.inside h fun t => t.commit.bind fun x => .done ((r.close h).routed x)
  | .rollback h => r.inside h fun t => t.rollback.bind fun x => .done ((r.close h).routed x)
  | .abandon h =>
    match r.transaction? h with
    | none => .done ((), r)
    | some t => t.abandon.bind fun () => .done ((), r.close h)

/-- The same with two pools that keep a state. -/
def serve (below : (q : pools.Ask) → σ → pools.Reply q × σ) (q : Sql.Call) (s : Router × σ) :
    q.Reply × (Router × σ) :=
  let ((a, r), lower) := (s.1.answer q).run below s.2
  (a, (r, lower))

end Router
end Cutover.DualWrite
