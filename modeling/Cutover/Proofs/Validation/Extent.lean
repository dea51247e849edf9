import Mathlib.Data.List.Sort
import Cutover.Proofs.Store.View
import Cutover.Validation.Pass

/-! What a pass walks through. The records that a comparison covers have one order, and cut into
pages of a size they are met once each: reading on from an offset yields the next page, and no two
pages share a record. -/
namespace Cutover.Validation

variable {α β : Type}

/-- A list cut into consecutive pieces of a size, of which the last may be shorter. -/
def pages (size : Nat) (l : List α) : List (List α) :=
  if 0 < size ∧ l ≠ [] then l.take size :: pages size (l.drop size) else []
termination_by l.length
decreasing_by
  next h =>
    have := List.length_pos_iff.2 h.2
    simp only [List.length_drop]
    omega

@[simp] theorem pages_nil (size : Nat) : pages size ([] : List α) = [] := by
  unfold pages
  simp

theorem pages_of_ne_nil {size : Nat} (positive : 1 ≤ size) {l : List α} (h : l ≠ []) :
    pages size l = l.take size :: pages size (l.drop size) := by
  rw [pages, if_pos ⟨positive, h⟩]

theorem flatten_pages {size : Nat} (positive : 1 ≤ size) (l : List α) :
    (pages size l).flatten = l := by
  fun_induction pages size l with
  | case1 l h ih => rw [List.flatten_cons, ih, List.take_append_drop]
  | case2 l h =>
    have empty : l = [] := by
      by_contra some
      exact h ⟨positive, some⟩
    rw [empty, List.flatten_nil]

/-- What is picked record by record does not depend on the size of the pages. -/
theorem flatMap_filterMap_pages {size : Nat} (positive : 1 ≤ size) (f : α → Option β) (l : List α) :
    (pages size l).flatMap (·.filterMap f) = l.filterMap f := by
  rw [List.flatMap_def, ← List.filterMap_flatten, flatten_pages positive]

namespace Settings

/-- Whether a record of the base is compared. -/
def covers (s : Settings) (r : Interactive) : Bool :=
  match s.mode with
  | .full => true
  | .incremental => s.utime < r.utime

/-- The order in which the records of the base are compared. -/
def Precedes (s : Settings) (a b : Interactive) : Prop :=
  match s.mode with
  | .full => a.id < b.id
  | .incremental => a.utime < b.utime ∨ a.utime = b.utime ∧ a.id < b.id

/-- The records of a base that are compared, in the order of the comparison. -/
structure InOrder (s : Settings) (base : Table) (l : List Interactive) : Prop where
  members : l.Perm (base.rows.filter s.covers)
  sorted : l.Pairwise s.Precedes

theorem precedes_asymm (s : Settings) {a b : Interactive} (ab : s.Precedes a b) : ¬s.Precedes b a := by
  cases h : s.mode <;> simp only [Precedes, h] at * <;> grind

/-- There is one such order. -/
theorem InOrder.unique {s : Settings} {base : Table} {l k : List Interactive}
    (hl : s.InOrder base l) (hk : s.InOrder base k) : l = k :=
  (hl.members.trans hk.members.symm).eq_of_pairwise
    (fun _ _ _ _ ab ba => absurd ba (s.precedes_asymm ab)) hl.sorted hk.sorted

/-- The records that a pass walks through, in its order. -/
def extent (s : Settings) (t : Side → Table) : Kind → List Interactive
  | .baseToTarget =>
    match s.mode with
    | .full => (t s.base).rows
    | .incremental => (t s.base).newer s.utime
  | .targetToBase => (t s.target).rows

/-- What the pass from the base walks through is what is to be compared, in its order. -/
theorem inOrder_extent (s : Settings) (t : Side → Table) :
    s.InOrder (t s.base) (s.extent t .baseToTarget) := by
  cases h : s.mode with
  | full =>
    constructor
    · have all : s.covers = fun _ => true := by funext r; simp [covers, h]
      simp [extent, h, all]
    · have byKey : s.Precedes = fun a b => a.id < b.id := by funext a b; simp [Precedes, h]
      simpa [extent, h, byKey] using (t s.base).ordered
  | incremental =>
    constructor
    · have newer : s.covers = fun r => decide (s.utime < r.utime) := by funext r; simp [covers, h]
      simpa [extent, h, newer] using (t s.base).newer_perm s.utime
    · have byUpdate : s.Precedes = fun a b =>
          a.utime < b.utime ∨ a.utime = b.utime ∧ a.id < b.id := by funext a b; simp [Precedes, h]
      simpa [extent, h, byUpdate] using (t s.base).newer_sorted s.utime

theorem mem_extent_forward (s : Settings) (t : Side → Table) (r : Interactive) :
    r ∈ s.extent t .baseToTarget ↔ r ∈ (t s.base).rows ∧ s.covers r = true := by
  rw [(s.inOrder_extent t).members.mem_iff, List.mem_filter]

theorem nodup_ids_extent_forward (s : Settings) (t : Side → Table) :
    ((s.extent t .baseToTarget).map (·.id)).Nodup := by
  rw [((s.inOrder_extent t).members.map (·.id)).nodup_iff]
  exact (t s.base).nodup_ids.sublist (List.filter_sublist.map _)

end Settings

end Cutover.Validation
