import Cutover.Proofs.Store.Meaning

/-! A store in a database and one in memory answer alike. All that is known of the database is what its
statements mean; how it answers beyond that, and in which order where none is asked for, is left open. -/
namespace Cutover.Store

open Table (Covering Mapped)

/-- A request whose numbers fit a machine word and whose keys are distinct; what is written covers the columns. -/
def Fair (t : Table) : Request → Prop
  | .columns => False
  | .orderedById offset limit | .updatedSince _ offset limit => offset < UInt64.size ∧ limit < UInt64.size
  | .byIds ids | .presentIds ids => ids.Nodup
  | .byId _ | .delete _ => True
  | .upsert record columns => Covering t record columns

/-- The same answer, in any order if the request asks for none. -/
def Alike : (q : Request) → Result q → Result q → Prop
  | .byIds _, a, b => ∃ x y, a = .ok x ∧ b = .ok y ∧ x.Perm y
  | .presentIds _, a, b => ∃ x y, a = .ok x ∧ b = .ok y ∧ x.Perm y
  | _, a, b => a = b

namespace Sql

/-- A pool whose server holds the table and keeps to the meaning of the statements. -/
def Database {σ : Type} (blank : Interactive) (content : σ → Table)
    (below : (q : Cutover.Sql.pool.Ask) → σ → Cutover.Sql.pool.Reply q × σ) : Prop :=
  ∀ q s, (content s).Obeys blank q (below q s).1 (content (below q s).2)

theorem unquoted_of_mapped {c : String} (mapped : Mapped c) : Cutover.Sql.Unquoted c := by
  obtain ⟨m, there, same⟩ := mapped
  intro quote
  have folded : Char.toLower '`' ∈ Name.fold c := List.mem_map_of_mem quote
  rw [(Name.same_iff c m).mp same] at folded
  exact absurd folded ((by decide : ∀ m ∈ Interactive.columns, Char.toLower '`' ∉ Name.fold m) m there)

theorem unquoted_table : Cutover.Sql.Unquoted Interactive.table := by
  rw [Cutover.Sql.Unquoted]
  decide

theorem mapped_of_mem {m : String} (there : m ∈ Interactive.columns) : Mapped m := ⟨m, there, Name.same_refl m⟩

theorem mapM_ok {α β γ ε : Type} {f : α → Except ε β} {row : γ → α} {value : γ → β}
    (each : ∀ x, f (row x) = .ok (value x)) (xs : List γ) : (xs.map row).mapM f = .ok (xs.map value) := by
  induction xs with
  | nil => rfl
  | cons x rest ih => simp [List.mapM_cons, each x, ih, bind, Except.bind, pure, Except.pure]

theorem entities_toRow (es : List Interactive) : entities (es.map (·.toRow)) = .ok es := by
  have read (e : Interactive) : decode Interactive.ofRow e.toRow = .ok e := by
    rw [decode, Interactive.ofRow_toRow, Except.mapError]
  have all : entities (es.map (·.toRow)) = .ok (es.map fun e => e) := mapM_ok read es
  rwa [List.map_id'] at all

theorem keys_project (es : List Interactive) :
    keys (es.map fun e => Table.project ["id"] e.toRow) = .ok (es.map (·.id)) := by
  refine mapM_ok (fun e => ?_) es
  have key : Table.project ["id"] e.toRow = [⟨"id", .int e.id⟩] := by
    simp [Table.project, Interactive.toRow, Cutover.Sql.Row.get?, Name.same, Name.fold]
  simp [key, decode, Except.mapError, Cutover.Sql.Row.int64, Cutover.Sql.Row.require, Cutover.Sql.Row.get?,
    Name.same_refl]

/-- A selection of columns of the table, by columns of the table. -/
theorem sayable_select (columns : List String) (filter : Cutover.Sql.Filter) (order : List String)
    (page : Option Cutover.Sql.Page) (any : columns ≠ [])
    (mapped : ∀ c ∈ columns ++ order, c ∈ Interactive.columns)
    (above : ∀ c b, filter = .above c b → c ∈ Interactive.columns) (among : filter ≠ .among [])
    (fits : ∀ p ∈ page, p.limit < UInt64.size ∧ p.offset < UInt64.size) :
    Cutover.Sql.Select.Sayable ⟨columns, Interactive.table, filter, order, page⟩ ∧
      Table.Answerable ⟨columns, Interactive.table, filter, order, page⟩ := by
  have quotable {c : String} (there : c ∈ Interactive.columns) : Cutover.Sql.Unquoted c :=
    unquoted_of_mapped (mapped_of_mem there)
  refine ⟨⟨any, fun n there => ?_, ?_, fits⟩, rfl, fun c there => mapped_of_mem (mapped c there),
    fun c b same => mapped_of_mem (above c b same)⟩
  · rcases List.mem_cons.mp there with rfl | there
    · exact unquoted_table
    · exact quotable (mapped n there)
  · cases filter with
    | all | only => trivial
    | above c b => exact quotable (above c b rfl)
    | among ids => exact fun none => among (none ▸ rfl)

/-- What is written to columns of the table, to each of them once, can be said and inserted. -/
theorem sayable_upsert {t : Table} {record : Interactive} {columns : List String}
    (covering : Covering t record columns) : (upsertOf record columns).Sayable ∧
      Table.Insertable
        ⟨Interactive.table, (upsertOf record columns).columns, (upsertOf record columns).sources⟩ := by
  have mapped : ∀ c ∈ (upsertOf record columns).columns, Mapped c.name := by
    intro c there
    rw [Table.upsertOf_columns] at there
    obtain ⟨name, written, rfl⟩ := List.mem_map.mp there
    exact (Table.isSome_get?_toRow record name).mp (List.mem_filter.mp written).2
  have any : (upsertOf record columns).columns ≠ [] := by
    obtain ⟨c, there, same⟩ := List.any_eq_true.mp covering.key
    rw [Table.upsertOf_columns]
    refine List.ne_nil_of_mem (List.mem_map_of_mem (List.mem_filter.mpr ⟨there, ?_⟩))
    exact (Table.isSome_get?_toRow record c).mpr ⟨"id", by decide, same⟩
  refine ⟨⟨any, fun n there => ?_⟩, rfl, mapped, ?_⟩
  · rcases List.mem_cons.mp there with rfl | there
    · exact unquoted_table
    · obtain ⟨c, given, rfl⟩ := List.mem_map.mp there
      exact unquoted_of_mapped (mapped c given)
  · simp only [Table.upsertOf_columns]
    exact List.pairwise_map.mpr (covering.distinct.filter _)

/-- A pool over a table that does what its statements say and refuses everything else. -/
def serve : (q : Cutover.Sql.Call) → Table → q.Reply × Table
  | .query none s, t =>
    match s.read with
    | some (.select sel) => (.ok (t.select sel), t)
    | _ => (.error refusal, t)
  | .queryRow none s, t =>
    match s.read with
    | some (.select sel) => (.ok (t.select sel).head?, t)
    | _ => (.error refusal, t)
  | .exec none s, t =>
    match s.read with
    | some (.insert i) =>
      match Table.inserted? Table.blank t i with
      | some t' => (.ok ⟨1, none⟩, t')
      | none => (.error refusal, t)
    | some (.delete _ id) => (.ok ⟨if (t.get? id).isSome then 1 else 0, none⟩, t.erase id)
    | _ => (.error refusal, t)
  | .begin _, t | .exec (some _) _, t | .query (some _) _, t | .queryRow (some _) _, t | .prepare .., t
  | .commit _, t | .rollback _, t => (.error refusal, t)
  | .abandon _, t => ((), t)
where
  refusal : Cutover.Sql.Error := .backend "memory" "no statement about records"

theorem database_serve : Database Table.blank id serve := by
  intro q t
  cases q with
  | query within s =>
    cases within with
    | some h => trivial
    | none =>
      intro sel read _
      simp only [serve, read]
      exact ⟨trivial, _, rfl, t.finds_select sel⟩
  | queryRow within s =>
    cases within with
    | some h => trivial
    | none =>
      intro sel read _
      simp only [serve, read]
      exact ⟨trivial, _, rfl, t.finds_select sel⟩
  | exec within s =>
    cases within with
    | some h => trivial
    | none =>
      constructor
      · intro i new read _ inserted
        have inserted : Table.inserted? Table.blank t i = some new := inserted
        simp only [serve, read, inserted]
        exact ⟨rfl, _, rfl⟩
      · intro id read
        simp only [serve, read]
        exact ⟨rfl, _, rfl, rfl⟩
  | begin | prepare | commit | rollback | abandon => trivial

/-- A selection whose first row alone is wanted, and what is made of the answer. -/
theorem run_selectFirst {σ β : Type} (below : (q : Cutover.Sql.pool.Ask) → σ → Cutover.Sql.pool.Reply q × σ)
    (sel : Cutover.Sql.Select) (f : Except Cutover.Sql.Error (Option Cutover.Sql.Row) → β) (s : σ) :
    ((Dialogue.ask (I := Cutover.Sql.records) (.selectFirst sel) fun r => .done (f r)).via
        Cutover.Sql.Query.send).run below s =
      (f (below (.queryRow none sel.statement) s).1, (below (.queryRow none sel.statement) s).2) := rfl

section Answers

variable {σ : Type} {blank : Interactive} {content : σ → Table}
  {below : (q : Cutover.Sql.pool.Ask) → σ → Cutover.Sql.pool.Reply q × σ} (database : Database blank content below)

include database

/-- What a selection is answered with. -/
theorem answered {sel : Cutover.Sql.Select} (sayable : sel.Sayable) (answerable : Table.Answerable sel) (s : σ) :
    content (below (.query none sel.statement) s).2 = content s ∧
      ∃ found, (below (.query none sel.statement) s).1 = .ok found ∧ (content s).Finds sel found :=
  database (.query none sel.statement) s sel (Cutover.Sql.Select.read_statement sayable) answerable

theorem run_load {β : Type} (store : String) {sel : Cutover.Sql.Select} (sayable : sel.Sayable)
    (answerable : Table.Answerable sel) (read : List Cutover.Sql.Row → Except StoreError β) (s : σ) :
    ∃ found, (content s).Finds sel found ∧
      (((load store sel read).via Cutover.Sql.Query.send).run below s).1 = read found ∧
      content (((load store sel read).via Cutover.Sql.Query.send).run below s).2 = content s := by
  obtain ⟨same, found, reply, finds⟩ := answered database sayable answerable s
  have run : ((load store sel read).via Cutover.Sql.Query.send).run below s =
      (reading store read (below (.query none sel.statement) s).1, (below (.query none sel.statement) s).2) := rfl
  rw [run, reply]
  exact ⟨found, finds, rfl, same⟩

theorem orderedById_agrees (store : String) {offset limit : Nat}
    (fits : offset < UInt64.size ∧ limit < UInt64.size) (s : σ) :
    ((performOn store (.orderedById offset limit)).run below s).1 =
        ((content s).perform (.orderedById offset limit)).1 ∧
      content ((performOn store (.orderedById offset limit)).run below s).2 = content s := by
  obtain ⟨sayable, answerable⟩ := sayable_select Interactive.columns .all ["id"] (some ⟨limit, offset⟩)
    (by decide) (by decide) nofun nofun fun p same => by cases same; exact fits.symm
  obtain ⟨found, finds, answer, kept⟩ := run_load database store sayable answerable entities s
  refine ⟨answer.trans ?_, kept⟩
  rw [Table.found_ordered finds, entities_toRow]
  rfl

theorem updatedSince_agrees (store : String) (utime : Int64) {offset limit : Nat}
    (fits : offset < UInt64.size ∧ limit < UInt64.size) (s : σ) :
    ((performOn store (.updatedSince utime offset limit)).run below s).1 =
        ((content s).perform (.updatedSince utime offset limit)).1 ∧
      content ((performOn store (.updatedSince utime offset limit)).run below s).2 = content s := by
  obtain ⟨sayable, answerable⟩ := sayable_select Interactive.columns (.above Interactive.utimeColumn utime)
    [Interactive.utimeColumn, "id"] (some ⟨limit, offset⟩) (by decide) (by decide)
    (fun c b same => by cases same; decide) nofun fun p same => by cases same; exact fits.symm
  obtain ⟨found, finds, answer, kept⟩ := run_load database store sayable answerable entities s
  refine ⟨answer.trans ?_, kept⟩
  rw [Table.found_newer finds, entities_toRow]
  rfl

/-- The rows with the given keys, in any order. -/
theorem byIds_agrees (store : String) {ids : List Int64} (s : σ) :
    ∃ found : List Interactive, found.Perm ((content s).rows.filter fun e => ids.contains e.id) ∧
      ((performOn store (.byIds ids)).run below s).1 = .ok found ∧
      content ((performOn store (.byIds ids)).run below s).2 = content s := by
  -- For no keys there is no statement: an empty list cannot be said.
  cases ids with
  | nil => exact ⟨[], by simp, rfl, rfl⟩
  | cons id rest =>
    obtain ⟨sayable, answerable⟩ := sayable_select Interactive.columns (.among (id :: rest)) [] none (by decide)
      (by decide) nofun nofun nofun
    obtain ⟨found, finds, answer, kept⟩ := run_load database store sayable answerable entities s
    obtain ⟨among, perm, rfl⟩ := Table.found_among finds
    refine ⟨among, perm, answer.trans ?_, kept⟩
    simp only [Table.project_columns, entities_toRow]

theorem presentIds_agrees (store : String) {ids : List Int64} (s : σ) :
    ∃ found : List Interactive, found.Perm ((content s).rows.filter fun e => ids.contains e.id) ∧
      ((performOn store (.presentIds ids)).run below s).1 = .ok (found.map (·.id)) ∧
      content ((performOn store (.presentIds ids)).run below s).2 = content s := by
  cases ids with
  | nil => exact ⟨[], by simp, rfl, rfl⟩
  | cons id rest =>
    obtain ⟨sayable, answerable⟩ := sayable_select ["id"] (.among (id :: rest)) [] none (by decide) (by decide)
      nofun nofun nofun
    obtain ⟨found, finds, answer, kept⟩ := run_load database store sayable answerable keys s
    obtain ⟨among, perm, rfl⟩ := Table.found_among finds
    exact ⟨among, perm, answer.trans (keys_project among), kept⟩

theorem byId_agrees (store : String) (id : Int64) (s : σ) :
    ((performOn store (.byId id)).run below s).1 = .ok ((content s).get? id) ∧
      content ((performOn store (.byId id)).run below s).2 = content s := by
  obtain ⟨sayable, answerable⟩ := sayable_select Interactive.columns (.only id) [] none (by decide) (by decide)
    nofun nofun nofun
  obtain ⟨kept, found, reply, finds⟩ := database (.queryRow none (select (.only id) [] none).statement) s _
    (Cutover.Sql.Select.read_statement sayable) answerable
  refine ⟨?_, kept⟩
  refine (congrArg Prod.fst (run_selectFirst below _ _ s)).trans ?_
  rw [reply, Table.found_only finds]
  cases (content s).get? id with
  | none => rfl
  | some e => simp [reading, decode, Except.mapError, Except.map]

theorem delete_agrees (store : String) (id : Int64) (s : σ) :
    ((performOn store (.delete id)).run below s).1 = .ok (if ((content s).get? id).isSome then 1 else 0) ∧
      content ((performOn store (.delete id)).run below s).2 = (content s).erase id := by
  obtain ⟨erased, effect, reply, affected⟩ := (database
    (.exec none (Cutover.Sql.Query.delete Interactive.table id).statement) s).2 id
    (Cutover.Sql.read_delete unquoted_table id)
  refine ⟨?_, erased⟩
  have run : (performOn store (.delete id)).run below s = (reading store (.ok ·.affected.toNat)
      (below (.exec none (Cutover.Sql.Query.delete Interactive.table id).statement) s).1,
      (below (.exec none (Cutover.Sql.Query.delete Interactive.table id).statement) s).2) := rfl
  rw [run, reply]
  simp only [reading, affected]
  split <;> rfl

theorem upsert_agrees (store : String) {record : Interactive} {columns : List String} (s : σ)
    (covering : Covering (content s) record columns) :
    ∃ t, (content s).upsert record columns = .ok t ∧
      ((performOn store (.upsert record columns)).run below s).1 = .ok () ∧
      content ((performOn store (.upsert record columns)).run below s).2 = t := by
  obtain ⟨t, written, inserted⟩ := Table.inserted_upsert blank covering
  obtain ⟨sayable, insertable⟩ := sayable_upsert covering
  obtain ⟨kept, effect, reply⟩ := (database (.exec none (upsertOf record columns).statement) s).1 _ t
    (Cutover.Sql.Upsert.read_statement sayable) insertable inserted
  have run : (performOn store (.upsert record columns)).run below s = (reading store (fun _ => .ok ())
      (below (.exec none (upsertOf record columns).statement) s).1,
      (below (.exec none (upsertOf record columns).statement) s).2) := rfl
  refine ⟨t, written, ?_, kept⟩
  rw [run, reply]
  rfl

/-- Over a database that holds the rows of a table, every request is answered as it is over the table itself,
and leaves the same rows. The keys that are found are those of the records that are found. -/
theorem agrees_with_memory (store : String) :
    (∀ q s, Fair (content s) q →
      Alike q ((performOn store q).run below s).1 ((content s).perform q).1 ∧
      content ((performOn store q).run below s).2 = ((content s).perform q).2) ∧
    ∀ ids s s', ids.Nodup → content s = content s' → ∃ keys records,
      ((performOn store (.presentIds ids)).run below s).1 = .ok keys ∧
      ((performOn store (.byIds ids)).run below s').1 = .ok records ∧ keys.Perm (records.map (·.id)) := by
  constructor
  · intro q s fair
    cases q with
    | columns => exact fair.elim
    | orderedById offset limit => exact orderedById_agrees database store fair s
    | updatedSince utime offset limit => exact updatedSince_agrees database store utime fair s
    | byIds ids =>
      obtain ⟨found, perm, answer, kept⟩ := byIds_agrees database store s
      exact ⟨⟨found, _, answer, rfl, perm.trans ((content s).perm_filterMap_get? fair)⟩, kept⟩
    | presentIds ids =>
      obtain ⟨found, perm, answer, kept⟩ := presentIds_agrees database store s
      refine ⟨⟨_, _, answer, rfl, ?_⟩, kept⟩
      rw [← Table.map_id_filterMap_get?]
      exact (perm.trans ((content s).perm_filterMap_get? fair)).map _
    | byId id => exact byId_agrees database store id s
    | upsert record columns =>
      obtain ⟨t, written, answer, kept⟩ := upsert_agrees database store s fair
      simp [Alike, Table.perform, written, answer, kept]
    | delete id => exact delete_agrees database store id s
  · intro ids s s' distinct same
    obtain ⟨found, perm, answer, -⟩ := presentIds_agrees database store s
    obtain ⟨found', perm', answer', -⟩ := byIds_agrees database store s'
    refine ⟨_, _, answer, answer', (perm.trans ?_).map _⟩
    rw [same]
    exact perm'.symm

end Answers

/-- An upsert of two columns of a row that is there, in a spelling of their own. -/
theorem agrees_with_memory_respelled :
    let t := Table.ofList [⟨1, 10, "article", 5, 1, 0, 90, 20⟩, ⟨2, 11, "video", 0, 0, 0, 30, 30⟩]
    let q : Request := .upsert ⟨2, 12, "image", 7, 8, 0, 60, 40⟩ ["Id", "extra", "LIKE_CNT"]
    Database Table.blank id serve ∧ Fair t q ∧
      Alike q ((performOn "src" q).run serve t).1 (t.perform q).1 ∧
      ((performOn "src" q).run serve t).2.rows =
        [⟨1, 10, "article", 5, 1, 0, 90, 20⟩, ⟨2, 11, "video", 0, 8, 0, 30, 30⟩] := by
  intro t q
  have fair : Fair t q := ⟨by decide, .inr ⟨by decide, by decide⟩⟩
  obtain ⟨alike, same⟩ := (agrees_with_memory database_serve "src").1 q t fair
  refine ⟨database_serve, fair, alike, ?_⟩
  rw [id] at same
  rw [same]
  decide

end Sql
end Cutover.Store
