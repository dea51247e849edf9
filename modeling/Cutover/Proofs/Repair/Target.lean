import Cutover.Proofs.Repair.Handling

/-! The store that a repair changes: the one opposite to the direction of its event, whatever the stores
answer. -/
namespace Cutover.Repair

/-- All that is left to do changes one store at most. -/
def Aims (target : Side) : Asking Done → Prop
  | .done _ => True
  | .ask q next => (q.2.reads = false → q.1 = target) ∧ ∀ reply, Aims target (next reply)

theorem aims_fix (base : Side) (columns : List String) (id : Int64) :
    Aims base.other (fix base columns id) := by
  refine ⟨by simp [Store.Request.reads], fun reply => ?_⟩
  rcases reply with cause | _ | record
  · trivial
  · refine ⟨fun _ => rfl, fun reply => ?_⟩
    cases reply <;> trivial
  · refine ⟨fun _ => rfl, fun reply => ?_⟩
    cases reply <;> trivial

/-- What holds of every handler from the beginning and survives every answer. -/
theorem Bench.forall_handlings {r : Repairer} {b d : Bench} {turn : Turn} {P : Event → Asking Done → Prop}
    (closed : ∀ e q next reply, P e (.ask q next) → P e (next reply))
    (fresh : ∀ e, turn = .begin e → P e (r.handle e)) (all : ∀ h ∈ b.handlings, P h.event h.rest)
    (step : b.advance r turn = some d) : ∀ h ∈ d.handlings, P h.event h.rest := by
  intro h member
  cases outcome_of_advance step with
  | begun e =>
    rcases List.mem_append.1 member with old | new
    · exact all h old
    · rw [List.mem_singleton.1 new]
      exact fresh e rfl
  | answered found | failed found =>
    rcases List.mem_or_eq_of_mem_set member with other | rfl
    · exact all h other
    · exact closed _ _ _ _ (all _ (List.mem_of_getElem? found))

end Cutover.Repair
