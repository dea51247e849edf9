import Mathlib.Data.List.Pairwise
import Mathlib.Data.List.Sort
import Mathlib.Logic.Function.Basic
import Cutover.Store.Table

/-! A table seen as a map from keys to records. The map determines the table, every operation is one
equation about it, and an upsert over all of the mapped columns is a plain replacement. The two tables
of a migration answer the requests of a dialogue one at a time. -/
namespace Cutover

namespace Interactive

/-- A record survives the way through a row. -/
@[simp] theorem ofRow_toRow (e : Interactive) : ofRow e.toRow = .ok e := by
  simp [ofRow, toRow, Sql.Row.int64, Sql.Row.string, Sql.Row.require, Sql.Row.get?, Name.same,
    Name.fold]
  rfl

end Interactive

namespace Table

theorem ids_distinct (t : Table) : t.rows.Pairwise (·.id ≠ ·.id) :=
  t.ordered.imp Int64.ne_of_lt

theorem nodup_ids (t : Table) : (t.rows.map (·.id)).Nodup :=
  List.pairwise_map.2 t.ids_distinct

theorem nodup_rows (t : Table) : t.rows.Nodup := t.nodup_ids.of_map _

theorem eq_of_id_eq (t : Table) {x y : Interactive} (hx : x ∈ t.rows) (hy : y ∈ t.rows)
    (same : x.id = y.id) : x = y :=
  List.inj_on_of_nodup_map t.nodup_ids hx hy same

theorem get?_eq_some_iff (t : Table) (id : Int64) (r : Interactive) :
    t.get? id = some r ↔ r ∈ t.rows ∧ r.id = id := by
  constructor
  · intro found
    exact ⟨List.mem_of_find?_eq_some found, by simpa using List.find?_some found⟩
  · rintro ⟨member, rfl⟩
    obtain ⟨x, found⟩ := Option.isSome_iff_exists.1
      (List.find?_isSome (p := fun y : Interactive => y.id == r.id).2 ⟨r, member, by simp⟩)
    have same : x.id = r.id := by simpa using List.find?_some found
    rw [get?, found, t.eq_of_id_eq (List.mem_of_find?_eq_some found) member same]

theorem get?_of_mem (t : Table) {r : Interactive} (member : r ∈ t.rows) : t.get? r.id = some r :=
  (t.get?_eq_some_iff _ _).2 ⟨member, rfl⟩

theorem id_of_get? {t : Table} {id : Int64} {r : Interactive} (found : t.get? id = some r) :
    r.id = id := ((t.get?_eq_some_iff _ _).1 found).2

/-- Looking distinct keys up finds the rows that have them. -/
theorem perm_filterMap_get? (t : Table) {ids : List Int64} (distinct : ids.Nodup) :
    (t.rows.filter fun e => ids.contains e.id).Perm (ids.filterMap t.get?) := by
  have found : (ids.filterMap t.get?).Nodup :=
    distinct.filterMap fun k l r hk hl => (id_of_get? hk).symm.trans (id_of_get? hl)
  refine (List.perm_ext_iff_of_nodup (t.nodup_rows.filter _) found).mpr fun r => ?_
  simp only [List.mem_filter, List.mem_filterMap, List.contains_iff_mem, get?_eq_some_iff]
  constructor
  · rintro ⟨there, wanted⟩
    exact ⟨r.id, wanted, there, rfl⟩
  · rintro ⟨id, wanted, there, rfl⟩
    exact ⟨there, wanted⟩

theorem map_id_filterMap_get? (t : Table) (ids : List Int64) :
    (ids.filterMap t.get?).map (·.id) = ids.filter fun id => (t.get? id).isSome := by
  induction ids with
  | nil => rfl
  | cons id rest ih =>
    cases found : t.get? id with
    | none => simp [found, ih]
    | some r => simp [found, ih, id_of_get? found]

/-- Two tables that answer every look-up alike are one. -/
theorem ext_get? {t u : Table} (same : ∀ id, t.get? id = u.get? id) : t = u := by
  have members : ∀ r, r ∈ t.rows ↔ r ∈ u.rows := by
    intro r
    constructor
    · intro h
      exact ((u.get?_eq_some_iff _ _).1 (same r.id ▸ t.get?_of_mem h)).1
    · intro h
      exact ((t.get?_eq_some_iff _ _).1 (same r.id ▸ u.get?_of_mem h)).1
  have perm : t.rows.Perm u.rows :=
    (List.perm_ext_iff_of_nodup t.nodup_rows u.nodup_rows).2 members
  have rows : t.rows = u.rows := perm.eq_of_pairwise
    (fun a b _ _ below above => absurd (Int64.lt_trans below above) Int64.lt_irrefl)
    t.ordered u.ordered
  cases t
  cases u
  cases rows
  rfl

@[simp] theorem get?_put (t : Table) (e : Interactive) (id : Int64) :
    (t.put e).get? id = if e.id = id then some e else t.get? id := by
  have placed : ∀ rows : List Interactive, (place e rows).find? (·.id == id) =
      if e.id = id then some e else rows.find? (·.id == id) := by
    intro rows
    induction rows with
    | nil => by_cases h : e.id = id <;> simp [place, h]
    | cons r rest ih =>
      simp only [place]
      split
      · by_cases h : e.id = id <;> simp [h]
      · split
        next same => by_cases h : e.id = id <;> simp [h, ← same]
        next differ =>
          rw [List.find?_cons, List.find?_cons, ih]
          by_cases h : e.id = id
          · have other : (r.id == id) = false := by simp [← h, Ne.symm differ]
            simp [h, other]
          · simp [h]
  exact placed t.rows

@[simp] theorem get?_erase (t : Table) (k id : Int64) :
    (t.erase k).get? id = if k = id then none else t.get? id := by
  rw [get?, erase, List.find?_filter]
  by_cases h : k = id
  · simp [h]
  · have apart : ∀ r : Interactive,
        decide ((r.id != k) = true ∧ (r.id == id) = true) = (r.id == id) := by grind
    simp only [apart, if_neg h, get?]

/-- The row of a record goes when the record is erased, and no other does. -/
theorem length_erase (t : Table) (id : Int64) :
    t.rows.length = (t.erase id).rows.length + if (t.get? id).isSome then 1 else 0 := by
  have once : t.rows.countP (·.id == id) = if (t.get? id).isSome then 1 else 0 := by
    rw [show t.rows.countP (·.id == id) = (t.rows.map (·.id)).count id by
      simp [List.count, List.countP_map, Function.comp_def], t.nodup_ids.count]
    simp [get?, List.mem_map]
  rw [← once, erase, ← List.countP_eq_length_filter, Nat.add_comm,
    List.length_eq_countP_add_countP (fun r : Interactive => r.id == id)]
  simp only [bne, Bool.not_eq_true, Bool.decide_eq_false]

theorem newer_perm (t : Table) (utime : Int64) :
    (t.newer utime).Perm (t.rows.filter (utime < ·.utime)) := List.mergeSort_perm ..

theorem newer_sorted (t : Table) (utime : Int64) :
    (t.newer utime).Pairwise fun a b => a.utime < b.utime ∨ a.utime = b.utime ∧ a.id < b.id := by
  have weakly : (t.newer utime).Pairwise fun a b => updatedBefore a b = true := by
    apply List.pairwise_mergeSort
    · intro a b c
      simp only [updatedBefore]
      grind
    · intro a b
      simp only [updatedBefore]
      grind
  have apart : (t.newer utime).Pairwise fun a b => a.id ≠ b.id := by
    have : (t.rows.filter (utime < ·.utime)).Pairwise fun a b => a.id ≠ b.id :=
      t.ids_distinct.filter _
    exact (t.newer_perm utime).symm.pairwise this fun h => h.symm
  refine (weakly.and apart).imp ?_
  rintro a b ⟨before, differ⟩
  simp only [updatedBefore] at before
  grind

theorem mem_put (t : Table) (e r : Interactive) :
    r ∈ (t.put e).rows ↔ r = e ∨ r ∈ t.rows ∧ r.id ≠ e.id := by
  have found : (t.put e).get? r.id = some r ↔ r ∈ (t.put e).rows :=
    ((t.put e).get?_eq_some_iff _ _).trans (and_iff_left rfl)
  rw [← found, get?_put]
  split
  next same => grind
  next differ => grind [get?_eq_some_iff]

/-- Writing every mapped column leaves nothing of the row that was there. -/
@[simp] theorem merged_columns (current incoming : Interactive) :
    merged Interactive.columns current.toRow incoming.toRow = incoming.toRow := by
  simp [merged, Interactive.columns, Interactive.toRow, Sql.Row.get?, Name.same, Name.fold]

@[simp] theorem upsert_columns (t : Table) (e : Interactive) :
    t.upsert e Interactive.columns = .ok (t.put e) := by
  have current : ((t.get? e.id).map (·.toRow)).getD e.toRow = ((t.get? e.id).getD e).toRow := by
    cases t.get? e.id <;> rfl
  simp [upsert, current]

end Table

/-- The tables behind the two stores of a migration. -/
abbrev Tables := Side → Table

namespace Tables

/-- Answers a request to one of the stores, at one instant. -/
def answer (q : stores.Ask) (t : Tables) : stores.Reply q × Tables :=
  let (r, table) := (t q.1).perform q.2
  (r, Function.update t q.1 table)

theorem answer_reads {q : stores.Ask} (t : Tables) (reads : q.2.reads = true) :
    (answer q t).2 = t := by
  obtain ⟨side, request⟩ := q
  cases request <;> simp_all [answer, Table.perform, Store.Request.reads]

end Tables
end Cutover
