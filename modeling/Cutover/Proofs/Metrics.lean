import Cutover.Metrics

/-! What an instrument shows after it was counted on: one series grows, and every other is as it was. Over all
its attributes it shows all that it was counted. -/
namespace Cutover.Metrics

theorem value_alter (name other : String) (attributes others : Attributes) (f : Nat → Nat) (m : Metrics) :
    value other others (alter name attributes f m) =
      if other = name ∧ others = attributes then f (value name attributes m)
      else value other others m := by
  induction m with
  | nil =>
    by_cases same : other = name ∧ others = attributes
    · obtain ⟨rfl, rfl⟩ := same
      simp [alter, value]
    · have apart : ¬(name = other ∧ attributes = others) :=
        fun h => same ⟨h.1.symm, h.2.symm⟩
      simp [alter, value, same, apart]
  | cons s rest ih =>
    by_cases here : s.name = name ∧ s.attributes = attributes
    · by_cases same : other = name ∧ others = attributes
      · simp [alter, value, here, same]
      · have apart : ¬(name = other ∧ attributes = others) :=
          fun h => same ⟨h.1.symm, h.2.symm⟩
        simp [alter, value, here, same, apart]
    · by_cases there : s.name = other ∧ s.attributes = others
      · have apart : ¬(other = name ∧ others = attributes) :=
          fun h => here ⟨there.1.trans h.1, there.2.trans h.2⟩
        simp [alter, value, there, apart]
      · simp [alter, value, here, there, ih]

theorem value_add (m : Metrics) (counter : Counter) (n : Nat) (attributes others : Attributes) :
    (m.add counter n attributes).value counter.name others =
      m.value counter.name others + if others = attributes then n else 0 := by
  rw [add, value_alter]
  by_cases same : others = attributes
  · simp [same]
  · simp [same]

theorem value_add_of_ne {name : String} {counter : Counter} (other : name ≠ counter.name) (m : Metrics)
    (n : Nat) (attributes others : Attributes) :
    (m.add counter n attributes).value name others = m.value name others := by
  rw [add, value_alter, if_neg fun same => other same.1]

/-- What all series of an instrument show together. -/
def total (name : String) : Metrics → Nat
  | [] => 0
  | s :: rest => (if s.name = name then s.value else 0) + total name rest

theorem total_alter_of_ne {name other : String} (apart : other ≠ name) (attributes : Attributes) (f : Nat → Nat)
    (m : Metrics) : total other (alter name attributes f m) = total other m := by
  induction m with
  | nil => simp [alter, total, apart.symm]
  | cons s rest ih =>
    rw [alter]
    split
    next here => simp [total, here.1, apart.symm]
    next => rw [total, total, ih]

theorem total_alter_add (name : String) (attributes : Attributes) (n : Nat) (m : Metrics) :
    total name (alter name attributes (· + n) m) = total name m + n := by
  induction m with
  | nil => simp [alter, total]
  | cons s rest ih =>
    rw [alter]
    split
    next here =>
      simp only [total, here.1, if_true]
      omega
    next => rw [total, total, ih, Nat.add_assoc]

theorem total_add (m : Metrics) (counter : Counter) (n : Nat) (attributes : Attributes) :
    (m.add counter n attributes).total counter.name = m.total counter.name + n :=
  total_alter_add ..

theorem total_add_of_ne {name : String} {counter : Counter} (other : name ≠ counter.name) (m : Metrics)
    (n : Nat) (attributes : Attributes) : (m.add counter n attributes).total name = m.total name :=
  total_alter_of_ne other ..

end Cutover.Metrics
