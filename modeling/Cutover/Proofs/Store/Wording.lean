import Cutover.Proofs.Store.Equivalence

/-! The statements about records, word by word. Whatever columns an upsert is asked to write, its text falls into
the tokens of an insertion that names those of them which the record has, with a placeholder and an argument for
each. A selection by keys has a placeholder and an argument for each key, and for no keys there is no call. -/
namespace Cutover.Sql

namespace Token

/-- A text that falls into some tokens, with no name and no word left open. -/
def Scans (text : String) (tokens : List Token) : Prop := scan .outside text.toList = (tokens, .outside)

/-- An argument gives its place back to the question mark. -/
def vacate : Token → Token
  | .value _ => .question
  | t => t

theorem map_vacate_enter (c : Char) : (enter c).1.map vacate = (enter c).1 := by
  have marked : vacate (sign c) = sign c := by
    unfold sign
    split <;> rfl
  rw [enter]
  split_ifs <;> simp [marked]

/-- No argument is in a text. -/
theorem map_vacate_scan (m : Mode) (cs : List Char) : (scan m cs).1.map vacate = (scan m cs).1 := by
  induction cs generalizing m with
  | nil => rfl
  | cons c rest ih =>
    have stepped : (step m c).1.map vacate = (step m c).1 := by
      cases m with
      | outside => exact map_vacate_enter c
      | name part =>
        rw [step]
        split <;> rfl
      | word part =>
        rw [step]
        split
        · rfl
        · rw [List.map_cons, map_vacate_enter]
          rfl
    simp only [scan, List.map_append, stepped, ih]

theorem map_vacate_fill {ts parts : List Token} {args : List Value} (filled : fill ts args = some parts) :
    parts.map vacate = ts.map vacate := by
  fun_induction fill ts args generalizing parts with
  | case1 =>
    cases filled
    rfl
  | case2 | case3 => cases filled
  | case4 rest v args ih =>
    obtain ⟨others, found, rfl⟩ := Option.map_eq_some_iff.mp filled
    rw [List.map_cons, List.map_cons, ih found]
    rfl
  | case5 t rest args _ _ ih =>
    obtain ⟨others, found, rfl⟩ := Option.map_eq_some_iff.mp filled
    rw [List.map_cons, List.map_cons, ih found]

/-- The tokens of a text are those of its reading, with question marks where it has arguments. -/
theorem Reads.scans {text : String} {args : List Value} {parts : List Token} (reads : Reads text args parts) :
    Scans text (parts.map vacate) := by
  obtain ⟨tokens, scanned, filled⟩ := reads
  have found := map_vacate_scan .outside text.toList
  rw [scanned] at found
  rw [map_vacate_fill filled, found]
  exact scanned

theorem map_vacate_listed (parts : List (List Token)) :
    (listed parts).map vacate = listed (parts.map (·.map vacate)) := by
  induction parts with
  | nil => rfl
  | cons x rest ih =>
    cases rest with
    | nil => rfl
    | cons y rest =>
      simp only [List.map_cons] at ih
      simp [listed, ih, vacate]

end Token

open Cutover.Sql.Token (Scans listed vacate map_vacate_listed)

/-- The tokens of an insertion into some columns with some placeholders, and of what is overwritten if the key is
taken. Where that is nothing, the key takes its own value. -/
def insertion (table : String) (names : List String) (marks : Nat) (updates : List String) : List Token :=
  .word "INSERT" :: .word "INTO" :: .name table :: .opening ::
    (listed (names.map fun c => [.name c]) ++ .closing :: .word "VALUES" :: .opening ::
      (listed (List.replicate marks [.question]) ++ .closing :: .word "ON" :: .word "DUPLICATE" :: .word "KEY" ::
        .word "UPDATE" :: match updates with
          | [] => [.name "id", .equal, .name "id"]
          | names => listed (names.map fun c => [.name c, .equal, .word "VALUES", .opening, .name c, .closing])))

/-- The tokens of a selection of some columns by keys, with a placeholder for each key. -/
def selection (columns : List String) (table : String) (marks : Nat) : List Token :=
  .word "SELECT" :: (listed (columns.map fun c => [.name c]) ++ .word "FROM" :: .name table :: .word "WHERE" ::
    .name "id" :: .word "IN" :: .opening :: (listed (List.replicate marks [.question]) ++ [.closing]))

theorem Upsert.scans_statement {u : Upsert} (quotable : ∀ n ∈ u.table :: u.columns.map (·.name), Unquoted n) :
    Scans u.statement.text (insertion u.table (u.columns.map (·.name)) u.columns.length u.updates) := by
  have scans := (reads_statement quotable).scans
  have overwritten : (updateTokens u.sources).map vacate = match u.updates with
      | [] => [.name "id", .equal, .name "id"]
      | names => listed (names.map fun c => [.name c, .equal, .word "VALUES", .opening, .name c, .closing]) := by
    rw [sources]
    cases u.updates with
    | nil => rfl
    | cons first rest => simp [updateTokens, map_vacate_listed, Function.comp_def, vacate]
  simpa [tokens, insertion, overwritten, map_vacate_listed, Function.comp_def, vacate, List.map_const'] using scans

theorem Select.scans_among {columns : List String} {table : String} {ids : List Int64}
    (sayable : Sayable ⟨columns, table, .among ids, [], none⟩) :
    Scans (Select.statement ⟨columns, table, .among ids, [], none⟩).text (selection columns table ids.length) := by
  have scans := (reads_statement sayable).scans
  simpa [tokens, selection, filterTokens, orderTokens, pageTokens, map_vacate_listed, Function.comp_def, vacate,
    List.map_const'] using scans

end Cutover.Sql

namespace Cutover.Store.Sql

open Cutover.Sql (Statement insertion selection)
open Cutover.Sql.Token (Scans)
open Table (Mapped)

/-- Whether a record has a column of the name, in any spelling. -/
def known (column : String) : Bool := Interactive.columns.any (Name.same column)

/-- All that a request comes to is one call. -/
def Calls {α : Type} (d : Dialogue Cutover.Sql.pool α) (q : Cutover.Sql.Call) : Prop :=
  ∃ read : q.Reply → α, d = .ask q fun r => .done (read r)

/-- A statement that inserts the columns which the record has, in the order and spelling they were asked for, with
as many placeholders as arguments, and overwrites all of them but the key. Each argument is what the record has in
its column. -/
structure Inserts (record : Interactive) (columns : List String) (s : Statement) : Prop where
  text : Scans s.text (insertion Interactive.table (columns.filter known) s.args.length
    ((columns.filter known).filter (!Name.same · "id")))
  args : List.Forall₂ (fun c v => ∃ m ∈ record.toRow, Name.same c m.name = true ∧ v = m.value)
    (columns.filter known) s.args

/-- A statement that selects columns by keys, which are its arguments, with a placeholder for each. -/
structure Inquires (columns : List String) (ids : List Int64) (s : Statement) : Prop where
  text : Scans s.text (selection columns Interactive.table ids.length)
  args : s.args = ids.map .int

theorem known_iff (c : String) : known c = true ↔ Mapped c := List.any_eq_true

theorem written_eq (record : Interactive) (columns : List String) :
    Table.written record columns = columns.filter known := by
  refine List.filter_congr fun c _ => ?_
  rw [Bool.eq_iff_iff, Table.isSome_get?_toRow, known_iff]

theorem cell_of_known (record : Interactive) {c : String} (there : known c = true) :
    ∃ m ∈ record.toRow, Name.same c m.name = true ∧ record.cell c = m.value := by
  obtain ⟨v, held⟩ := Option.isSome_iff_exists.mp
    ((Table.isSome_get?_toRow record c).mpr ((known_iff c).mp there))
  obtain ⟨m, found, rfl⟩ := Option.map_eq_some_iff.mp held
  have same : Name.same m.name c = true := by simpa using List.find?_some found
  refine ⟨m, List.mem_of_find?_eq_some found, Name.same_symm same, ?_⟩
  rw [Interactive.cell, held, Option.getD_some]

theorem inserts_upsertOf (record : Interactive) (columns : List String) :
    Inserts record columns (upsertOf record columns).statement := by
  have cells : (upsertOf record columns).columns = (columns.filter known).map fun c => ⟨c, record.cell c⟩ := by
    rw [Table.upsertOf_columns, written_eq]
  have names : (upsertOf record columns).columns.map (·.name) = columns.filter known := by
    rw [cells, List.map_map]
    exact List.map_id _
  have args : (upsertOf record columns).statement.args = (columns.filter known).map record.cell := by
    show (upsertOf record columns).columns.map (·.value) = _
    rw [cells, List.map_map]
    exact List.map_congr_left fun _ _ => rfl
  have quotable : ∀ n ∈ Interactive.table :: columns.filter known, Cutover.Sql.Unquoted n := by
    intro n there
    rcases List.mem_cons.mp there with rfl | there
    · exact unquoted_table
    · exact unquoted_of_mapped ((known_iff n).mp (List.mem_filter.mp there).2)
  constructor
  · have scans := Cutover.Sql.Upsert.scans_statement (u := upsertOf record columns) (names ▸ quotable)
    rw [names, cells, List.length_map, Table.updates_upsertOf, written_eq] at scans
    rw [args, List.length_map]
    exact scans
  · rw [args, List.forall₂_map_right_iff, List.forall₂_same]
    exact fun c there => cell_of_known record (List.mem_filter.mp there).2

theorem upsertOf_filter (record : Interactive) (columns : List String) :
    upsertOf record (columns.filter known) = upsertOf record columns := by
  have same : (upsertOf record (columns.filter known)).columns = (upsertOf record columns).columns := by
    rw [Table.upsertOf_columns, Table.upsertOf_columns, written_eq, written_eq, List.filter_filter]
    simp only [Bool.and_self]
  exact congrArg (Cutover.Sql.Upsert.mk Interactive.table) same

theorem inquires_among {columns : List String} (any : columns ≠ [])
    (mapped : ∀ c ∈ columns, c ∈ Interactive.columns) (id : Int64) (rest : List Int64) :
    Inquires columns (id :: rest)
      (Cutover.Sql.Select.statement ⟨columns, Interactive.table, .among (id :: rest), [], none⟩) := by
  obtain ⟨sayable, -⟩ := sayable_select columns (.among (id :: rest)) [] none any (by simpa using mapped)
    nofun nofun nofun
  exact ⟨Cutover.Sql.Select.scans_among sayable, List.append_nil _⟩

/-- Every upsert is one statement, in which columns, placeholders and arguments go together and no name stands that
the record has not; names that it has not may as well be left out. Keys are looked up with one query that has a
placeholder and an argument for each, and with none if there is no key. -/
theorem statements_aligned (store : String) (record : Interactive) (columns : List String) (id : Int64)
    (rest : List Int64) :
    (∃ s, Calls (performOn store (.upsert record columns)) (.exec none s) ∧ Inserts record columns s) ∧
      performOn store (.upsert record (columns.filter known)) = performOn store (.upsert record columns) ∧
      performOn store (.byIds []) = .done (.ok []) ∧ performOn store (.presentIds []) = .done (.ok []) ∧
      (∃ s, Calls (performOn store (.byIds (id :: rest))) (.query none s) ∧
        Inquires Interactive.columns (id :: rest) s) ∧
      ∃ s, Calls (performOn store (.presentIds (id :: rest))) (.query none s) ∧ Inquires ["id"] (id :: rest) s := by
  refine ⟨⟨_, ⟨_, rfl⟩, inserts_upsertOf record columns⟩, ?_, rfl, rfl, ?_, ?_⟩
  · exact congrArg (fun u => (Dialogue.ask (I := Cutover.Sql.records) (.upsert u) fun r =>
      .done (reading store (fun _ => .ok ()) r)).via Cutover.Sql.Query.send) (upsertOf_filter record columns)
  · exact ⟨_, ⟨_, rfl⟩, inquires_among (by decide) (fun _ there => there) id rest⟩
  · exact ⟨_, ⟨_, rfl⟩, inquires_among (by decide) (by decide) id rest⟩

example : (upsertOf default ["ID", "a`b", "like_cnt", "?", "Like_Cnt"]).statement.text =
    "INSERT INTO `interactives` (`ID`, `like_cnt`, `Like_Cnt`) VALUES (?, ?, ?) ON DUPLICATE KEY UPDATE " ++
      "`like_cnt` = VALUES(`like_cnt`), `Like_Cnt` = VALUES(`Like_Cnt`)" := by rfl

end Cutover.Store.Sql
