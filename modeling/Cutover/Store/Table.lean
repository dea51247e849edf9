import Cutover.Store.Request

/-! A table of records held in memory: one record for each key, in the order of the keys. -/
namespace Cutover

structure Table where
  rows : List Interactive
  ordered : rows.Pairwise (·.id < ·.id) := by exact List.Pairwise.nil

namespace Table

instance : Inhabited Table := ⟨⟨[], .nil⟩⟩

def empty : Table := ⟨[], .nil⟩

/-- Puts a record in its place; one with the same key makes way. -/
def place (e : Interactive) : List Interactive → List Interactive
  | [] => [e]
  | r :: rest =>
    if e.id < r.id then e :: r :: rest
    else if e.id = r.id then e :: rest
    else r :: place e rest

theorem mem_place {e x : Interactive} {rows : List Interactive} (h : x ∈ place e rows) :
    x = e ∨ x ∈ rows := by
  induction rows with
  | nil => simpa [place] using h
  | cons r rest ih =>
    simp only [place] at h
    split at h
    · simpa using h
    · split at h
      · rcases List.mem_cons.1 h with h | h
        · exact .inl h
        · exact .inr (List.mem_cons_of_mem _ h)
      · rcases List.mem_cons.1 h with h | h
        · exact .inr (h ▸ List.mem_cons_self)
        · exact (ih h).imp_right (List.mem_cons_of_mem _)

theorem ordered_place (e : Interactive) {rows : List Interactive}
    (h : rows.Pairwise (·.id < ·.id)) : (place e rows).Pairwise (·.id < ·.id) := by
  induction rows with
  | nil => simp [place]
  | cons r rest ih =>
    have ⟨above, rest_ordered⟩ := List.pairwise_cons.1 h
    simp only [place]
    split
    next below =>
      refine List.pairwise_cons.2 ⟨fun x hx => ?_, h⟩
      rcases List.mem_cons.1 hx with rfl | hx
      · exact below
      · exact Int64.lt_trans below (above x hx)
    next notBelow =>
      split
      next same => exact List.pairwise_cons.2 ⟨fun x hx => same ▸ above x hx, rest_ordered⟩
      next differ =>
        refine List.pairwise_cons.2 ⟨fun x hx => ?_, ih rest_ordered⟩
        rcases mem_place hx with rfl | hx
        · exact Int64.lt_of_le_of_ne (Int64.not_lt.1 notBelow) (Ne.symm differ)
        · exact above x hx

def get? (t : Table) (id : Int64) : Option Interactive := t.rows.find? (·.id == id)

def put (t : Table) (e : Interactive) : Table := ⟨place e t.rows, ordered_place e t.ordered⟩

def erase (t : Table) (id : Int64) : Table := ⟨t.rows.filter (·.id != id), t.ordered.filter _⟩

def ofList (rows : List Interactive) : Table := rows.foldl put empty

/-- Whether one record comes before another in the order of updates. -/
def updatedBefore (a b : Interactive) : Bool :=
  a.utime < b.utime || a.utime == b.utime && a.id ≤ b.id

/-- The columns that are named take the incoming values and the others keep the current ones. -/
def merged (columns : List String) (current incoming : Sql.Row) : Sql.Row :=
  current.map fun c =>
    if columns.any (Name.same · c.name) then ⟨c.name, (Sql.Row.get? incoming c.name).getD .null⟩ else c

def upsert (t : Table) (e : Interactive) (columns : List String) : Except StoreError Table :=
  let incoming := e.toRow
  let current := ((t.get? e.id).map (·.toRow)).getD incoming
  match Interactive.ofRow (merged columns current incoming) with
  | .ok record => .ok (t.put record)
  | .error cause => .error (.decode Interactive.table cause)

/-- The records updated strictly after `utime`. -/
def newer (t : Table) (utime : Int64) : List Interactive :=
  (t.rows.filter (utime < ·.utime)).mergeSort updatedBefore

/-- Answers a request. -/
def perform (t : Table) : (q : Store.Request) → Store.Result q × Table
  | .columns => (.ok Interactive.columns, t)
  | .orderedById offset limit => (.ok ((t.rows.drop offset).take limit), t)
  | .updatedSince utime offset limit => (.ok (((t.newer utime).drop offset).take limit), t)
  | .byIds ids => (.ok (ids.filterMap t.get?), t)
  | .presentIds ids => (.ok (ids.filter fun id => (t.get? id).isSome), t)
  | .byId id => (.ok (t.get? id), t)
  | .upsert e columns =>
    match t.upsert e columns with
    | .ok t => (.ok (), t)
    | .error cause => (.error cause, t)
  | .delete id => (.ok (if (t.get? id).isSome then 1 else 0), t.erase id)

end Table
end Cutover
