import Cutover.DualWrite.Router
import Cutover.Proofs.Metrics

/-! The router at work. Each deed is put down with the calls that went to the two pools for its sake, in
their order and with what was answered, and with the router as it was before and after. The pools answer
as they like: they may go by everything that they were ever asked. -/
namespace Cutover.DualWrite

section Run

variable {σ α β : Type} (below : (q : pools.Ask) → σ → pools.Reply q × σ)

theorem run_askExec (side : Side) (within : Option Sql.Handle) (q : Sql.Statement) (s : σ) :
    (askExec side within q).run below s = below (side, .exec within q) s := rfl

theorem run_askBegin (side : Side) (o : Sql.TransactionOptions) (s : σ) :
    (askBegin side o).run below s = below (side, .begin o) s := rfl

theorem run_askCommit (side : Side) (h : Sql.Handle) (s : σ) :
    (Transaction.askCommit side h).run below s = below (side, .commit h) s := rfl

theorem run_askRollback (side : Side) (h : Sql.Handle) (s : σ) :
    (Transaction.askRollback side h).run below s = below (side, .rollback h) s := rfl

/-- The lapse that a follower's answer comes to. -/
def lapseOf (lapse : Lapse) : Except Sql.Error β → Option Lapse
  | .ok _ => none
  | .error _ => some lapse

theorem run_follow_some (lapse : Lapse) (a : α) (d : Dialogue pools (Except Sql.Error β)) (s : σ) :
    (follow lapse a (some d)).run below s =
      (⟨.ok a, lapseOf lapse (d.run below s).1⟩, (d.run below s).2) := by
  rw [follow, Dialogue.run_bind]
  cases (d.run below s).1 <;> rfl

/-- The follower is asked when the one in the lead has agreed, and its answer is counted at most. -/
theorem run_lead_eq (lapse : Lapse) (primary : Dialogue pools (Except Sql.Error α))
    (secondary : Option (Dialogue pools (Except Sql.Error β))) (s : σ) :
    (lead lapse primary secondary).run below s =
      match primary.run below s, secondary with
      | (.ok a, s), some d => (⟨.ok a, lapseOf lapse (d.run below s).1⟩, (d.run below s).2)
      | (reply, s), _ => (⟨reply, none⟩, s) := by
  rw [lead, Dialogue.run_bind]
  rcases primary.run below s with ⟨e | a, s⟩
  · rfl
  · cases secondary with
    | none => rfl
    | some d => exact run_follow_some below lapse a d s

end Run

/-- A call to one of the pools, and its answer. -/
structure Exchange where
  side : Side
  call : Sql.Call
  reply : call.Reply

/-- Pools that also keep what they were asked, and what they answered. -/
def recorded {σ : Type} (below : (q : pools.Ask) → σ → pools.Reply q × σ) (q : pools.Ask)
    (s : σ × List Exchange) : pools.Reply q × (σ × List Exchange) :=
  let (reply, lower) := below q s.1
  (reply, (lower, s.2 ++ [⟨q.1, q.2, reply⟩]))

/-- What may be done with the router. -/
inductive Deed where
  | call (q : Sql.Call)
  /-- The pattern is set, by the one who governs the router or in the cell that holds it. -/
  | set (p : Pattern)
  | switch (text : String)

@[reducible] def Deed.Outcome : Deed → Type
  | .call q => q.Reply
  | .set _ => Unit
  | .switch _ => Except Sql.Error Pattern

/-- A deed, what was asked of the pools for it, and what came of it. -/
structure Entry where
  deed : Deed
  exchanges : List Exchange
  outcome : deed.Outcome

/-- An entry with the router before and after the deed. -/
structure Turn extends Entry where
  before : Router
  after : Router

/-- What was asked of the pools in all. -/
def exchanged (turns : List Turn) : List Exchange := turns.flatMap (·.exchanges)

namespace Router

variable {σ : Type} (below : (q : pools.Ask) → σ → pools.Reply q × σ)

/-- The router does one thing. -/
def turn (r : Router) (s : σ) : Deed → Turn × σ
  | .call q =>
    let (reply, after, lower, exchanges) := serve (recorded below) q (r, s, [])
    (⟨⟨.call q, exchanges, reply⟩, r, after⟩, lower)
  | .set p => (⟨⟨.set p, [], ()⟩, r, { r with pattern := p }⟩, s)
  | .switch text =>
    let (outcome, after) := r.switchNamed text
    (⟨⟨.switch text, [], outcome⟩, r, after⟩, s)

/-- The router does one thing after the other. -/
def traffic : Router → σ → List Deed → List Turn × Router × σ
  | r, s, [] => ([], r, s)
  | r, s, d :: rest =>
    let (t, s) := r.turn below s d
    let (turns, last) := t.after.traffic s rest
    (t :: turns, last)

end Router

/-- How often the secondary is counted to have failed in a way. -/
def lapses (r : Router) (l : Lapse) : Nat :=
  r.metrics.value Counter.secondaryFailures.name [("op", l.name)]

theorem Lapse.name_inj {l k : Lapse} : l.name = k.name ↔ l = k := by
  cases l <;> cases k <;> decide

theorem value_count (lapse : Option Lapse) (m : Metrics) (l : Lapse) :
    (count lapse m).value Counter.secondaryFailures.name [("op", l.name)] =
      m.value Counter.secondaryFailures.name [("op", l.name)] + if lapse = some l then 1 else 0 := by
  cases lapse with
  | none => rfl
  | some k =>
    rw [count, Metrics.value_add]
    simp [Lapse.name_inj, eq_comm]

namespace Exchange

/-- How the secondary has failed if the call was put to it. -/
def lapse? : Exchange → Option Lapse
  | ⟨_, .begin _, .error _⟩ => some .begin
  | ⟨_, .exec .., .error _⟩ => some .exec
  | ⟨_, .commit _, .error _⟩ => some .commit
  | ⟨_, .rollback _, .error _⟩ => some .rollback
  | _ => none

end Exchange
end Cutover.DualWrite
