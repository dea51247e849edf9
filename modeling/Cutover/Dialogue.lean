/-! Computations that ask their surroundings. A dialogue is a finite tree: at each node it asks one
question and goes on with whatever is answered. What answers, and what else happens in between, is
left to those who run it, so that a statement about a dialogue covers every behaviour of the
databases behind it and every interleaving with others. -/
namespace Cutover

/-- Questions, each with the type of its answers. -/
structure Interface where
  Ask : Type
  Reply : Ask → Type

inductive Dialogue (I : Interface) (α : Type) where
  | done (result : α)
  | ask (question : I.Ask) (next : I.Reply question → Dialogue I α)

namespace Dialogue

variable {I J : Interface} {α β σ : Type}

protected def bind (f : α → Dialogue I β) : Dialogue I α → Dialogue I β
  | .done a => f a
  | .ask q next => .ask q fun r => (next r).bind f

instance : Monad (Dialogue I) where
  pure := .done
  bind d f := d.bind f

/-- One question, its answer being the result. -/
def call (question : I.Ask) : Dialogue I (I.Reply question) := .ask question .done

/-- Runs a dialogue alone, with surroundings that keep a state. -/
def run (answer : (q : I.Ask) → σ → I.Reply q × σ) : Dialogue I α → σ → α × σ
  | .done a, s => (a, s)
  | .ask q next, s =>
    let (r, s) := answer q s
    (next r).run answer s

/-- Lets each question be answered by a dialogue with others. -/
def via (handle : (q : I.Ask) → Dialogue J (I.Reply q)) : Dialogue I α → Dialogue J α
  | .done a => .done a
  | .ask q next => (handle q).bind fun r => (next r).via handle

@[simp] theorem run_done (answer : (q : I.Ask) → σ → I.Reply q × σ) (a : α) (s : σ) :
    (Dialogue.done a).run answer s = (a, s) := rfl

@[simp] theorem run_ask (answer : (q : I.Ask) → σ → I.Reply q × σ) (q : I.Ask)
    (next : I.Reply q → Dialogue I α) (s : σ) :
    (Dialogue.ask q next).run answer s = (next (answer q s).1).run answer (answer q s).2 := rfl

theorem run_bind (answer : (q : I.Ask) → σ → I.Reply q × σ) (d : Dialogue I α)
    (f : α → Dialogue I β) (s : σ) :
    (d.bind f).run answer s = (f (d.run answer s).1).run answer (d.run answer s).2 := by
  induction d generalizing s with
  | done a => rfl
  | ask q next ih => exact ih _ _

end Dialogue
end Cutover
