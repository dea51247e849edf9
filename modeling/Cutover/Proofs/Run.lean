/-! Runs of a machine: its steps, one after another, as long as each of them can be taken. What a step
keeps, a run keeps. -/
namespace Cutover

universe u v

variable {σ : Type u} {μ : Type v}

/-- A machine follows a list of moves by taking a step for each. -/
structure Follows (advance : σ → μ → Option σ) (follow : σ → List μ → Option σ) : Prop where
  nil : ∀ x, follow x [] = some x
  cons : ∀ x m rest, follow x (m :: rest) = (advance x m).bind fun y => follow y rest

namespace Follows

variable {advance : σ → μ → Option σ} {follow : σ → List μ → Option σ} {x y : σ} {moves : List μ}

theorem append (follows : Follows advance follow) (x : σ) (first second : List μ) :
    follow x (first ++ second) = (follow x first).bind fun y => follow y second := by
  induction first generalizing x with
  | nil => rw [List.nil_append, follows.nil, Option.bind_some]
  | cons m rest ih => simp only [List.cons_append, follows.cons, Option.bind_assoc, ih]

theorem invariant (follows : Follows advance follow) {P : σ → Prop}
    (keeps : ∀ m ∈ moves, ∀ {x y}, P x → advance x m = some y → P y) (start : P x)
    (run : follow x moves = some y) : P y := by
  induction moves generalizing x with
  | nil =>
    rw [follows.nil] at run
    cases run
    exact start
  | cons m rest ih =>
    rw [follows.cons] at run
    obtain ⟨next, step, run⟩ := Option.bind_eq_some_iff.1 run
    have first := keeps m List.mem_cons_self start step
    exact ih (fun m member => keeps m (List.mem_cons_of_mem _ member)) first run

end Follows
end Cutover
