import Cutover.Proofs.Control.Operation

/-! What the log of a migration tells: which comparisons were started, where an event comes from, and
that a change was made for the sake of one. -/
namespace Cutover.Control

/-- An event was published by a comparison that took the primary of its time for the truth. -/
def Traced (log : List Entry) (e : Event) : Prop :=
  ∃ n p, [Entry.launched n p, .published n e].Sublist log ∧ p.primary = e.direction

theorem Traced.mono {log longer : List Entry} {e : Event} (traced : Traced log e)
    (more : log.Sublist longer) : Traced longer e := by
  obtain ⟨n, p, order, primary⟩ := traced
  exact ⟨n, p, order.trans more, primary⟩

/-- Changes that repairs make now go back to such events, and to the side opposite to them. -/
def Backed (log news : List Entry) : Prop :=
  ∀ side e p, .wrote side e p ∈ news → Traced log e ∧ side = e.direction.other

/-- So did all changes when they were made. -/
def Grounded (log : List Entry) : Prop :=
  ∀ before side e p after, log = before ++ .wrote side e p :: after →
    Traced before e ∧ side = e.direction.other

theorem Grounded.append {log news : List Entry} (grounded : Grounded log)
    (backed : Backed log news) : Grounded (log ++ news) := by
  intro before side e p after split
  rcases List.append_eq_append_iff.1 split with ⟨k, rfl, tail⟩ | ⟨k, rfl, tail⟩
  · obtain ⟨traced, target⟩ := backed side e p (by simp [tail])
    exact ⟨traced.mono (List.sublist_append_left _ _), target⟩
  · cases k with
    | nil =>
      rw [List.nil_append] at tail
      subst tail
      obtain ⟨traced, target⟩ := backed side e p List.mem_cons_self
      exact ⟨by simpa using traced, target⟩
    | cons first k =>
      rw [List.cons_append, List.cons.injEq] at tail
      obtain ⟨rfl, -⟩ := tail
      exact grounded before side e p k rfl

def Entry.launch? : Entry → Option (Nat × Pattern)
  | .launched n p => some (n, p)
  | _ => none

/-- The comparisons that were started, with the patterns in force by then. -/
def launches (log : List Entry) : List (Nat × Pattern) := log.filterMap Entry.launch?

theorem launches_append (log news : List Entry) :
    launches (log ++ news) = launches log ++ launches news := List.filterMap_append

theorem mem_launches {log : List Entry} {n : Nat} {p : Pattern} :
    (n, p) ∈ launches log ↔ .launched n p ∈ log := by
  rw [launches, List.mem_filterMap]
  constructor
  · rintro ⟨entry, member, same⟩
    cases entry <;> simp_all [Entry.launch?]
  · exact fun member => ⟨_, member, rfl⟩

/-- They are numbered from one on, in the order of their starts. -/
def Numbered (log : List Entry) (count : Nat) : Prop :=
  (launches log).map (·.1) = List.range' 1 count

theorem Numbered.append {log news : List Entry} {count : Nat} (numbered : Numbered log count)
    (none : launches news = []) : Numbered (log ++ news) count := by
  rw [Numbered, launches_append, none, List.append_nil]
  exact numbered

theorem Numbered.launch {log : List Entry} {count : Nat} (numbered : Numbered log count)
    (pattern : Pattern) : Numbered (log ++ [.launched (count + 1) pattern]) (count + 1) := by
  rw [Numbered, launches_append, List.map_append, numbered, List.range'_concat]
  simp [launches, Entry.launch?, Nat.add_comm]

theorem Numbered.unique {log : List Entry} {count n : Nat} {p q : Pattern}
    (numbered : Numbered log count) (first : .launched n p ∈ log) (second : .launched n q ∈ log) :
    p = q := by
  have distinct : ((launches log).map (·.1)).Nodup := by
    rw [numbered]
    exact List.nodup_range'
  have same := List.inj_on_of_nodup_map distinct (mem_launches.2 first) (mem_launches.2 second) rfl
  exact congrArg Prod.snd same

end Cutover.Control
