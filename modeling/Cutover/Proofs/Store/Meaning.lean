import Cutover.Proofs.Sql.Reading
import Cutover.Proofs.Store.View
import Cutover.Store.Execution
import Cutover.Store.Sql

/-! What the statements about records mean for the table. A selection finds the rows that pass its filter, in
any order that its columns allow, and takes its window of them. An insertion adds a row, or overwrites the one
that has its key. A deletion takes away the row with a key. -/
namespace Cutover

namespace Interactive

/-- The value in a column, which is null if there is no such column. -/
def cell (e : Interactive) (column : String) : Sql.Value := (Sql.Row.get? e.toRow column).getD .null

theorem cell_id (e : Interactive) : e.cell "id" = .int e.id := by
  simp [cell, toRow, Sql.Row.get?, Name.same, Name.fold]

theorem toRow_eq (e : Interactive) : e.toRow = columns.map fun m => ⟨m, e.cell m⟩ := by
  simp [columns, cell, toRow, Sql.Row.get?, Name.same, Name.fold]

/-- A record is what is in its columns. -/
theorem ext_cell {a b : Interactive} (same : ∀ m ∈ columns, a.cell m = b.cell m) : a = b := by
  have rows : a.toRow = b.toRow := by
    rw [toRow_eq, toRow_eq]
    exact List.map_congr_left fun m there => by rw [same m there]
  have read := ofRow_toRow a
  rw [rows, ofRow_toRow] at read
  exact (Except.ok.inj read).symm

/-- Takes the columns that are picked from one record and the others from another. -/
def mix (pick : String → Bool) (a b : Interactive) : Interactive where
  id := if pick "id" then a.id else b.id
  bizId := if pick "biz_id" then a.bizId else b.bizId
  biz := if pick "biz" then a.biz else b.biz
  readCnt := if pick "read_cnt" then a.readCnt else b.readCnt
  likeCnt := if pick "like_cnt" then a.likeCnt else b.likeCnt
  collectCnt := if pick "collect_cnt" then a.collectCnt else b.collectCnt
  utime := if pick "utime" then a.utime else b.utime
  ctime := if pick "ctime" then a.ctime else b.ctime

section Mix

variable {p q : String → Bool} {a b : Interactive} {m : String}

theorem cell_mix (there : m ∈ columns) : (mix p a b).cell m = if p m then a.cell m else b.cell m := by
  simp only [columns, List.mem_cons, List.not_mem_nil, or_false] at there
  cases pick : p m <;> rcases there with rfl | rfl | rfl | rfl | rfl | rfl | rfl | rfl <;>
    simp [cell, mix, pick, toRow, Sql.Row.get?, Name.same, Name.fold]

theorem mix_mix : mix p a (mix q a b) = mix (fun m => p m || q m) a b := by
  refine ext_cell fun m there => ?_
  rw [cell_mix there, cell_mix there, cell_mix there]
  cases p m <;> rfl

theorem mix_congr (same : ∀ m ∈ columns, p m = q m ∨ a.cell m = b.cell m) : mix p a b = mix q a b := by
  refine ext_cell fun m there => ?_
  rw [cell_mix there, cell_mix there]
  rcases same m there with same | same
  · rw [same]
  · rw [same, ite_self, ite_self]

/-- What was put in columns that are not picked makes no difference. -/
theorem mix_picked {c : Interactive} (picked : ∀ m, p m = true → q m = true) :
    mix p (mix q a b) c = mix p a c := by
  refine ext_cell fun m there => ?_
  rw [cell_mix there, cell_mix there, cell_mix there]
  cases pick : p m with
  | false => rfl
  | true => simp [picked m pick]

theorem mix_all (all : ∀ m ∈ columns, p m = true) : mix p a b = a := by
  refine ext_cell fun m there => ?_
  rw [cell_mix there, all m there, if_pos rfl]

theorem mix_none (none : ∀ m ∈ columns, p m = false) : mix p a b = b := by
  refine ext_cell fun m there => ?_
  rw [cell_mix there, none m there, if_neg Bool.false_ne_true]

@[simp] theorem mix_self : mix p a a = a := by
  refine ext_cell fun m there => ?_
  rw [cell_mix there, ite_self]

end Mix
end Interactive

namespace Table

open Sql (Row Select Insertion Command Source)

/-- The name of a column of the table, in any spelling. -/
def Mapped (column : String) : Prop := ∃ m ∈ Interactive.columns, Name.same column m = true

theorem get?_congr {c m : String} (same : Name.same c m = true) (row : Row) :
    Sql.Row.get? row c = Sql.Row.get? row m := by
  simp only [Sql.Row.get?, Name.same, (Name.same_iff c m).mp same]

/-- A column takes the value that another record has there. -/
theorem assign_cell (a b : Interactive) (c : String) :
    assign [⟨c, a.cell c⟩] b.toRow = (Interactive.mix (Name.same c) a b).toRow := by
  rw [assign, List.foldl_cons, List.foldl_nil, Interactive.toRow_eq, Interactive.toRow_eq, List.map_map]
  refine List.map_congr_left fun m there => ?_
  rw [Interactive.cell_mix there]
  cases same : Name.same c m with
  | false => simp [same]
  | true => simp [same, Interactive.cell, get?_congr same]

/-- Columns take the values that another record has there, one after the other. -/
theorem assign_cells (a b : Interactive) (names : List String) :
    names.foldl (fun row c => assign [⟨c, a.cell c⟩] row) b.toRow =
      (Interactive.mix (fun m => names.any (Name.same · m)) a b).toRow := by
  induction names generalizing b with
  | nil => exact congrArg Interactive.toRow (Interactive.mix_none fun _ _ => rfl).symm
  | cons c rest ih =>
    rw [List.foldl_cons, assign_cell, ih, Interactive.mix_mix]
    simp only [List.any_cons, Bool.or_comm]

/-- A selection of columns that there are, from the table. -/
structure Answerable (s : Select) : Prop where
  table : s.table = Interactive.table
  columns : ∀ c ∈ s.columns ++ s.order, Mapped c
  filter : ∀ c b, s.filter = .above c b → Mapped c

/-- What a selection may find. -/
def Finds (t : Table) (s : Select) (found : List Row) : Prop :=
  ∃ arranged : List Interactive, arranged.Perm (t.rows.filter (passes ·.toRow s.filter)) ∧
    arranged.Pairwise (before s.order ·.toRow ·.toRow) ∧
    found = window s.page (arranged.map fun e => project s.columns e.toRow)

/-- An insertion into columns that there are, none of them twice. -/
structure Insertable (i : Insertion) : Prop where
  table : i.table = Interactive.table
  columns : ∀ c ∈ i.given, Mapped c.name
  distinct : i.given.Pairwise fun c d => ¬Name.same c.name d.name = true

def sourceValue (new row : Row) : Source → Sql.Value
  | .inserted c => (Sql.Row.get? new c).getD .null
  | .present c => (Sql.Row.get? row c).getD .null

/-- What an insertion leaves, if its values fit the columns. A column that it does not name has the value that
`blank` has there. -/
def inserted? (blank : Interactive) (t : Table) (i : Insertion) : Option Table := do
  let new ← (Interactive.ofRow (assign i.given blank.toRow)).toOption
  match t.get? new.id with
  | none => return t.put new
  | some current =>
    let row := i.updates.foldl (fun row (c, source) => assign [⟨c, sourceValue new.toRow row source⟩] row)
      current.toRow
    let updated ← (Interactive.ofRow row).toOption
    return (t.erase current.id).put updated

/-- What may be answered to a call, and what is in the table then, if the call is a statement about records and
runs outside of transactions. Of other calls nothing is said. -/
def Obeys (blank : Interactive) (t : Table) : (q : Sql.Call) → q.Reply → Table → Prop
  | .query none s, reply, after => ∀ sel, s.read = some (.select sel) → Answerable sel →
    after = t ∧ ∃ found, reply = .ok found ∧ t.Finds sel found
  | .queryRow none s, reply, after => ∀ sel, s.read = some (.select sel) → Answerable sel →
    after = t ∧ ∃ found, reply = .ok found.head? ∧ t.Finds sel found
  | .exec none s, reply, after =>
    (∀ i new, s.read = some (.insert i) → Insertable i → inserted? blank t i = some new →
      after = new ∧ ∃ effect, reply = .ok effect) ∧
    ∀ id, s.read = some (.delete Interactive.table id) →
      after = t.erase id ∧ ∃ effect, reply = .ok effect ∧ effect.affected = if (t.get? id).isSome then 1 else 0
  | _, _, _ => True

section Found

variable {t : Table} {found : List Row}

@[simp] theorem project_columns (e : Interactive) : project Interactive.columns e.toRow = e.toRow := by
  simp [project, Interactive.columns, Interactive.toRow, Sql.Row.get?, Name.same, Name.fold]

@[simp] theorem keyOf_id (e : Interactive) : keyOf e.toRow "id" = some e.id := by
  simp [keyOf, Interactive.toRow, Sql.Row.get?, Name.same, Name.fold]

@[simp] theorem keyOf_utime (e : Interactive) : keyOf e.toRow Interactive.utimeColumn = some e.utime := by
  simp [keyOf, Interactive.utimeColumn, Interactive.toRow, Sql.Row.get?, Name.same, Name.fold]

theorem window_map {α : Type} (f : α → Row) (l : List α) (limit offset : Nat) :
    window (some ⟨limit, offset⟩) (l.map f) = ((l.drop offset).take limit).map f := by
  rw [window, List.map_take, List.map_drop]

/-- No two rows have one key, so where the columns of an order end in it nothing is left open. -/
theorem arranged_strictly {pick : Interactive → Bool} {le lt : Interactive → Interactive → Prop}
    {arranged : List Interactive} (perm : arranged.Perm (t.rows.filter pick)) (sorted : arranged.Pairwise le)
    (strict : ∀ a b, le a b → a.id ≠ b.id → lt a b) : arranged.Pairwise lt := by
  have apart : arranged.Pairwise (·.id ≠ ·.id) := perm.symm.pairwise (t.ids_distinct.filter _) fun h => h.symm
  exact (sorted.and apart).imp fun both => strict _ _ both.1 both.2

theorem found_ordered {limit offset : Nat}
    (finds : t.Finds (Store.Sql.select .all ["id"] (some ⟨limit, offset⟩)) found) :
    found = ((t.rows.drop offset).take limit).map (·.toRow) := by
  obtain ⟨arranged, perm, sorted, rfl⟩ := finds
  have all : t.rows.filter (fun e => passes e.toRow .all) = t.rows := by simp [passes]
  have strictly : arranged.Pairwise (·.id < ·.id) := arranged_strictly perm sorted fun a b le apart => by
    simp only [Store.Sql.select, before, keyOf_id] at le
    grind
  have order : arranged = t.rows := (all ▸ perm).eq_of_pairwise
    (fun a b _ _ below above => absurd (Int64.lt_trans below above) Int64.lt_irrefl) strictly t.ordered
  simp only [Store.Sql.select, project_columns]
  rw [order, window_map]

theorem found_newer {utime : Int64} {limit offset : Nat}
    (finds : t.Finds (Store.Sql.select (.above Interactive.utimeColumn utime) [Interactive.utimeColumn, "id"]
      (some ⟨limit, offset⟩)) found) :
    found = (((t.newer utime).drop offset).take limit).map (·.toRow) := by
  obtain ⟨arranged, perm, sorted, rfl⟩ := finds
  have newer : t.rows.filter (fun e => passes e.toRow (.above Interactive.utimeColumn utime)) =
      t.rows.filter (utime < ·.utime) := by simp [passes]
  have strictly : arranged.Pairwise fun a b => a.utime < b.utime ∨ a.utime = b.utime ∧ a.id < b.id :=
    arranged_strictly perm sorted fun a b le apart => by
      simp only [Store.Sql.select, before, keyOf_id, keyOf_utime] at le
      grind
  have order : arranged = t.newer utime := ((newer ▸ perm).trans (t.newer_perm utime).symm).eq_of_pairwise
    (fun a b _ _ below above => by grind) strictly (t.newer_sorted utime)
  simp only [Store.Sql.select, project_columns]
  rw [order, window_map]

theorem found_among {columns : List String} {ids : List Int64}
    (finds : t.Finds ⟨columns, Interactive.table, .among ids, [], none⟩ found) :
    ∃ among : List Interactive, among.Perm (t.rows.filter fun e => ids.contains e.id) ∧
      found = among.map fun e => project columns e.toRow := by
  obtain ⟨arranged, perm, -, rfl⟩ := finds
  exact ⟨arranged, by simpa [passes] using perm, rfl⟩

theorem found_only {id : Int64} (finds : t.Finds (Store.Sql.select (.only id) [] none) found) :
    found.head? = (t.get? id).map (·.toRow) := by
  obtain ⟨arranged, perm, -, rfl⟩ := finds
  have only : arranged.Perm (t.get? id).toList := by
    have once : (t.get? id).toList.Nodup := by cases t.get? id <;> simp
    refine perm.trans ((List.perm_ext_iff_of_nodup (t.nodup_rows.filter _) once).mpr fun e => ?_)
    rw [List.mem_filter, Option.mem_toList, t.get?_eq_some_iff]
    simp [passes, Store.Sql.select]
  have order : arranged = (t.get? id).toList := by
    cases there : t.get? id <;> simpa [there] using only
  rw [order]
  cases t.get? id <;> simp [window, Store.Sql.select]

end Found

section Execution

theorem isSome_get?_toRow (e : Interactive) (c : String) : (Sql.Row.get? e.toRow c).isSome = true ↔ Mapped c := by
  rw [Sql.Row.get?, Option.isSome_map, List.find?_isSome, Interactive.toRow_eq]
  constructor
  · rintro ⟨_, there, same⟩
    obtain ⟨m, mapped, rfl⟩ := List.mem_map.mp there
    exact ⟨m, mapped, Name.same_symm same⟩
  · rintro ⟨m, mapped, same⟩
    exact ⟨_, List.mem_map_of_mem mapped, Name.same_symm same⟩

theorem isSome_keyOf (a b : Interactive) (column : String) :
    (keyOf a.toRow column).isSome = (keyOf b.toRow column).isSome := by
  by_cases mapped : Mapped column
  · obtain ⟨m, there, same⟩ := mapped
    simp only [Interactive.columns, List.mem_cons, List.not_mem_nil, or_false] at there
    simp only [keyOf, get?_congr same]
    rcases there with rfl | rfl | rfl | rfl | rfl | rfl | rfl | rfl <;>
      simp [Interactive.toRow, Sql.Row.get?, Name.same, Name.fold]
  · have none (e : Interactive) : Sql.Row.get? e.toRow column = none := by
      simpa using mt (isSome_get?_toRow e column).mp mapped
    simp [keyOf, none]

theorem before_total (order : List String) (a b : Interactive) :
    (before order a.toRow b.toRow || before order b.toRow a.toRow) = true := by
  induction order with
  | nil => rfl
  | cons c rest ih =>
    have alike := isSome_keyOf a b c
    simp only [before]
    cases ha : keyOf a.toRow c <;> cases hb : keyOf b.toRow c <;> grind

theorem before_trans (order : List String) (a b c : Interactive) (ab : before order a.toRow b.toRow = true)
    (bc : before order b.toRow c.toRow = true) : before order a.toRow c.toRow = true := by
  induction order with
  | nil => rfl
  | cons column rest ih =>
    have alike := isSome_keyOf a b column
    have alike' := isSome_keyOf b c column
    simp only [before] at ab bc ⊢
    cases ha : keyOf a.toRow column <;> cases hb : keyOf b.toRow column <;>
      cases hc : keyOf c.toRow column <;> grind

/-- What a selection is executed to is what it may find. -/
theorem finds_select (t : Table) (s : Select) : t.Finds s (t.select s) := by
  have rows : t.toRows.filter (passes · s.filter) =
      (t.rows.filter fun e => passes e.toRow s.filter).map (·.toRow) := by
    rw [toRows, List.filter_map]
    rfl
  have windowed (arranged : List Interactive) : (window s.page (arranged.map (·.toRow))).map (project s.columns) =
      window s.page (arranged.map fun e => project s.columns e.toRow) := by
    have projected : (arranged.map (·.toRow)).map (project s.columns) =
        arranged.map fun e => project s.columns e.toRow := List.map_map
    rw [← projected]
    cases s.page with
    | none => rfl
    | some p => rw [window, window, List.map_take, List.map_drop]
  rw [select, rows]
  by_cases unordered : s.order = []
  · refine ⟨_, List.Perm.refl _, List.pairwise_of_forall fun _ _ => by rw [unordered, before], ?_⟩
    simpa [unordered] using windowed _
  · refine ⟨(t.rows.filter fun e => passes e.toRow s.filter).mergeSort fun a b => before s.order a.toRow b.toRow,
      List.mergeSort_perm _ _, List.pairwise_mergeSort (before_trans s.order) (before_total s.order) _, ?_⟩
    have ordered : s.order.isEmpty = false := by simpa using unordered
    have sorted : ((t.rows.filter fun e => passes e.toRow s.filter).map (·.toRow)).mergeSort (before s.order) =
        ((t.rows.filter fun e => passes e.toRow s.filter).mergeSort
          fun a b => before s.order a.toRow b.toRow).map (·.toRow) := by
      symm
      apply List.map_mergeSort
      exact fun _ _ _ _ => rfl
    rw [← windowed, ← sorted]
    simp only [ordered, Bool.false_eq_true, if_false]

end Execution

section Written

variable {record blank current : Interactive} {columns : List String}

/-- Whether a column is among some, in any spelling. -/
def named (columns : List String) (m : String) : Bool := columns.any (Name.same · m)

/-- The columns that an upsert writes. -/
def written (record : Interactive) (columns : List String) : List String :=
  columns.filter fun c => (Sql.Row.get? record.toRow c).isSome

theorem upsertOf_columns : (Store.Sql.upsertOf record columns).columns =
    (written record columns).map fun c => ⟨c, record.cell c⟩ := by
  simp only [Store.Sql.upsertOf, written, Interactive.cell]
  induction columns with
  | nil => rfl
  | cons c rest ih => cases value : Sql.Row.get? record.toRow c <;> simp [value, ih]

theorem named_written {m : String} (mapped : m ∈ Interactive.columns) :
    named (written record columns) m = named columns m := by
  rw [Bool.eq_iff_iff, named, named, List.any_eq_true, List.any_eq_true]
  constructor
  · rintro ⟨c, there, same⟩
    exact ⟨c, (List.mem_filter.mp there).1, same⟩
  · rintro ⟨c, there, same⟩
    exact ⟨c, List.mem_filter.mpr ⟨there, (isSome_get?_toRow record c).mpr ⟨m, mapped, same⟩⟩, same⟩

/-- The row that is to be inserted. -/
theorem assign_written : assign (Store.Sql.upsertOf record columns).columns blank.toRow =
    (Interactive.mix (named columns) record blank).toRow := by
  have each := assign_cells record blank (written record columns)
  rw [upsertOf_columns, assign, List.foldl_map]
  refine each.trans (congrArg _ (Interactive.mix_congr fun m mapped => .inl ?_))
  exact named_written mapped

/-- The row that is left where the key is taken. -/
theorem foldl_sources (u : Sql.Upsert) (new current : Interactive) :
    u.sources.foldl (fun row (c, source) => assign [⟨c, sourceValue new.toRow row source⟩] row) current.toRow =
      (Interactive.mix (named u.updates) new current).toRow := by
  rw [Sql.Upsert.sources]
  cases names : u.updates with
  | nil =>
    have none : Interactive.mix (named []) new current = current := Interactive.mix_none fun _ _ => rfl
    rw [none]
    have same := assign_cell current current "id"
    rwa [Interactive.mix_self] at same
  | cons first rest =>
    rw [List.foldl_map]
    exact assign_cells new current (first :: rest)

theorem merged_toRow : merged columns current.toRow record.toRow =
    (Interactive.mix (named columns) record current).toRow := by
  rw [merged, Interactive.toRow_eq current, Interactive.toRow_eq (Interactive.mix _ _ _), List.map_map]
  refine List.map_congr_left fun m there => ?_
  rw [Interactive.cell_mix there]
  simp only [Function.comp_apply, named, Interactive.cell]
  exact (apply_ite (Sql.Column.mk m) _ _ _).symm

theorem only_key : ∀ m ∈ Interactive.columns, Name.same m "id" = true → m = "id" := by decide

theorem updates_upsertOf : (Store.Sql.upsertOf record columns).updates =
    (written record columns).filter (!Name.same · "id") := by
  rw [Sql.Upsert.updates, upsertOf_columns, List.map_map]
  exact congrArg (List.filter _) (List.map_id _)

theorem named_of_updates {m : String} (updated : named (Store.Sql.upsertOf record columns).updates m = true) :
    named columns m = true := by
  obtain ⟨c, there, same⟩ := List.any_eq_true.mp updated
  rw [updates_upsertOf] at there
  exact List.any_eq_true.mpr ⟨c, (List.mem_filter.mp (List.mem_filter.mp there).1).1, same⟩

/-- In a row with the key of the record it makes no difference whether the key is written. -/
theorem mix_updates (same : current.id = record.id) :
    Interactive.mix (named (Store.Sql.upsertOf record columns).updates) record current =
      Interactive.mix (named columns) record current := by
  refine Interactive.mix_congr fun m mapped => ?_
  by_cases key : m = "id"
  · subst key
    exact .inr (by rw [Interactive.cell_id, Interactive.cell_id, same])
  · have other (c : String) (here : Name.same c m = true) : Name.same c "id" = false := by
      by_contra both
      have keyed := Name.same_trans (Name.same_symm here) (Bool.not_eq_false _ ▸ both)
      exact key (only_key m mapped keyed)
    have all : named columns m = named (written record columns) m := (named_written mapped).symm
    rw [updates_upsertOf, all, named, named, List.any_filter]
    refine .inl (congrArg (List.any _) (funext fun c => ?_))
    cases here : Name.same c m with
    | false => simp
    | true => simp [other c here]

end Written

section Insertion

variable {t : Table} {record : Interactive} {columns : List String}

/-- The column lists that are written: every column of the table, or the key alone at least if it is taken. -/
structure Covering (t : Table) (record : Interactive) (columns : List String) : Prop where
  distinct : columns.Pairwise fun c d => ¬Name.same c d = true
  covers : (∀ m ∈ Interactive.columns, named columns m = true) ∨
    (t.get? record.id).isSome ∧ named columns "id" = true

theorem Covering.key (covering : Covering t record columns) : named columns "id" = true := by
  rcases covering.covers with all | ⟨-, key⟩
  · exact all "id" List.mem_cons_self
  · exact key

theorem inserted_upsert (blank : Interactive) (covering : Covering t record columns) :
    ∃ t', t.upsert record columns = .ok t' ∧ inserted? blank t ⟨Interactive.table,
      (Store.Sql.upsertOf record columns).columns, (Store.Sql.upsertOf record columns).sources⟩ = some t' := by
  have key : (Interactive.mix (named columns) record blank).id = record.id := by
    simp [Interactive.mix, covering.key]
  have incoming : Interactive.ofRow (assign (Store.Sql.upsertOf record columns).columns blank.toRow) =
      .ok (Interactive.mix (named columns) record blank) := by rw [assign_written, Interactive.ofRow_toRow]
  cases taken : t.get? record.id with
  | none =>
    -- A row that is new shows what `blank` had in the columns left out, so none may be left out.
    have all : ∀ m ∈ Interactive.columns, named columns m = true := by
      rcases covering.covers with all | ⟨there, -⟩
      · exact all
      · rw [taken] at there
        cases there
    refine ⟨t.put record, ?_, ?_⟩
    · simp [upsert, taken, merged_toRow]
    · simp [inserted?, incoming, Except.toOption, Interactive.mix_all all, taken]
  | some current =>
    have same : current.id = record.id := id_of_get? taken
    -- Here only columns that were named are overwritten, and `blank` shows nowhere.
    have updated := foldl_sources (Store.Sql.upsertOf record columns)
      (Interactive.mix (named columns) record blank) current
    rw [Interactive.mix_picked fun m => named_of_updates, mix_updates same] at updated
    have kept : (Interactive.mix (named columns) record current).id = current.id := by
      simp [Interactive.mix, covering.key, same]
    have placed : (t.erase current.id).put (Interactive.mix (named columns) record current) =
        t.put (Interactive.mix (named columns) record current) := by
      refine ext_get? fun id => ?_
      rw [get?_put, get?_put, get?_erase, kept]
      split <;> rfl
    refine ⟨t.put (Interactive.mix (named columns) record current), ?_, ?_⟩
    · simp [upsert, taken, merged_toRow]
    · simp [inserted?, incoming, Except.toOption, key, taken, updated, placed]

end Insertion

end Table
end Cutover
