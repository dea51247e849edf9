import Mathlib.Algebra.Group.Int.Defs
import Mathlib.Algebra.Group.Nat.Defs
import Mathlib.Data.List.Nodup
import Mathlib.Data.List.Range
import Cutover.Proofs.Bus.Carrier
import Cutover.Proofs.Bus.Leasehold
import Cutover.Proofs.Bus.Reading
import Cutover.Store.Execution

/-! What the statements about messages mean for a table of a database, by the standard meaning of their parts, and
that the table of messages makes just that of them. Nothing is compared with what is null, and texts are the same
character by character; a change falls on all rows that pass the tests, or on the first of them by a column; a new row
is numbered after the greatest number, and its columns take what is given, or what was declared for them. A value that
a column cannot hold is refused. -/
namespace Cutover.Sql

theorem forall₂_iff_map {α β : Type} {R : α → β → Prop} {g : α → β} {l : List α} {m : List β}
    (same : ∀ a ∈ l, ∀ b, R a b ↔ g a = b) : List.Forall₂ R l m ↔ l.map g = m := by
  induction l generalizing m with
  | nil => simp [eq_comm]
  | cons a l ih =>
    obtain ⟨here, there⟩ := List.forall_mem_cons.1 same
    simp only [List.forall₂_cons_left_iff, here, ih there, List.map_cons]
    constructor
    · rintro ⟨_, _, rfl, rfl, rfl⟩
      rfl
    · rintro rfl
      exact ⟨_, _, rfl, rfl, rfl⟩

theorem mapM_eq_some {α β : Type} {f : α → Option β} {l : List α} {m : List β}
    (each : List.Forall₂ (fun a b => f a = some b) l m) : l.mapM f = some m := by
  induction each with
  | nil => rfl
  | cons here _ ih => simp [here, ih]

def Capacity.holds : Capacity → Value → Bool
  | .integer bits, .int n => -2 ^ (bits - 1) ≤ n.toInt && n.toInt < 2 ^ (bits - 1)
  | .octets most, .bytes b => b.length ≤ most
  | .characters most, .text s => s.length ≤ most
  | _, _ => false

namespace Declaration

def admits (c : Declaration) : Value → Bool
  | .null => c.nullable
  | v => c.capacity.holds v

/-- What the column has in a new row, if it can be had. -/
def initial (given : Row) (number : Int) (c : Declaration) : Option Value :=
  let v :=
    match Row.get? given c.name with
    | some v => some v
    | none =>
      if c.counted then if number < 2 ^ 63 then some (.int (Int64.ofInt number)) else none
      else if c.nullable then some (c.preset.getD .null) else c.preset
  v.filter c.admits

variable {given : Row} {number : Int} {c : Declaration} {v : Value}

theorem admits_long (name : String) (n : Int64) (counted : Bool) (preset : Option Value) :
    admits ⟨name, .integer 64, false, counted, preset⟩ (.int n) = true := by
  have low : -2 ^ (64 - 1) ≤ n.toInt := n.le_toInt
  have high : n.toInt < 2 ^ (64 - 1) := n.toInt_lt
  simp only [admits, Capacity.holds, low, high, decide_true, Bool.and_self]

theorem initial_given (found : Row.get? given c.name = some v) (fit : c.admits v = true) :
    c.initial given number = some v := by
  simp [initial, found, fit]

theorem initial_counted (absent : Row.get? given c.name = none) (counted : c.counted = true) (within : number < 2 ^ 63)
    (fit : c.admits (.int (Int64.ofInt number)) = true) :
    c.initial given number = some (.int (Int64.ofInt number)) := by
  simp only [initial, absent, counted, within, if_true, Option.filter_some, fit]

theorem initial_preset (absent : Row.get? given c.name = none) (uncounted : c.counted = false)
    (preset : (if c.nullable then some (c.preset.getD .null) else c.preset) = some v) (fit : c.admits v = true) :
    c.initial given number = some v := by
  simp only [initial, absent, uncounted, preset, Bool.false_eq_true, if_false, Option.filter_some, fit, if_true]

theorem cell_of (initial : c.initial given number = some v) :
    ((c.initial given number).map (⟨c.name, ·⟩) : Option Column) = some ⟨c.name, v⟩ := by
  rw [initial, Option.map_some]

end Declaration

/-- A table of a database, with its rows in the order they came. -/
structure Sheet where
  columns : List Declaration
  key : String
  rows : List Row

def Test.passes (row : Row) : Test → Bool
  | .is column v =>
    match Row.get? row column, v with
    | some (.int a), .int b => a == b
    | some (.text a), .text b => a == b
    | some (.bytes a), .bytes b => a == b
    | _, _ => false
  | .below column v =>
    match Row.get? row column, v with
    | some (.int a), .int b => a < b
    | _, _ => false

def Setting.value (row : Row) : Setting → Option Value
  | .to v => some v
  | .plus column n =>
    match Row.get? row column with
    | some (.int a) => if (a + n).toInt = a.toInt + n.toInt then some (.int (a + n)) else none
    | some .null => some .null
    | _ => none

namespace Sheet

def passing (s : Sheet) (tests : List Test) : List Row := s.rows.filter fun row => tests.all (·.passes row)

/-- The number of the next row. -/
def next (s : Sheet) : Int :=
  (s.rows.filterMap (Table.keyOf · s.key)).foldl (fun most n => max most n.toInt) 0 + 1

/-- The row that comes of what is given. Its key is a number, and not given. -/
def made (s : Sheet) (given : Row) : Option Row :=
  if given.all fun g => s.columns.any (Name.same g.name ·.name) && !Name.same g.name s.key then
    s.columns.mapM fun c => (c.initial given s.next).map (⟨c.name, ·⟩)
  else none

/-- Columns are set one after the other. The key is not for setting. -/
def changed (s : Sheet) : List (String × Setting) → Row → Option Row
  | [], row => some row
  | (column, setting) :: rest, row => do
    let c ← s.columns.find? (Name.same ·.name column)
    let v ← setting.value row
    if c.admits v && !Name.same c.name s.key then s.changed rest (Table.assign [⟨c.name, v⟩] row) else none

/-- The rows that a change falls on. Of rows that a column does not tell apart any may be the first. -/
def Falls (s : Sheet) (tests : List Test) (chosen : List Row) : Option (String × Nat) → Prop
  | none => chosen = s.passing tests
  | some (column, n) => ∃ arranged : List Row, arranged.Perm (s.passing tests) ∧
    arranged.Pairwise (Table.before [column] · ·) ∧ chosen = arranged.take n

end Sheet

namespace Directive

def table : Directive → String
  | .create table .. | .insert table .. | .update table .. | .select table .. | .count table .. => table

/-- What may come of a directive: the effect, the rows that are answered, and what has become of the table that it
names, which need not be there before it is created. -/
inductive Means : Directive → Option Sheet → Effect × List Row → Option Sheet → Prop where
  | create {table : String} {columns : List Declaration} {key : String} {before : Option Sheet} :
    Means (.create table columns key) before (⟨0, none⟩, []) (some (before.getD ⟨columns, key, []⟩))
  | insert {table : String} {given row : Row} {s : Sheet} (made : s.made given = some row) :
    Means (.insert table given) (some s) (⟨1, some (UInt64.ofNat s.next.toNat)⟩, [])
      (some { s with rows := s.rows ++ [row] })
  | update {table : String} {settings : List (String × Setting)} {tests : List Test} {first : Option (String × Nat)}
    {s : Sheet} {chosen rows : List Row} (falls : s.Falls tests chosen first)
    (changed : List.Forall₂ (fun row row' => (row ∈ chosen → s.changed settings row = some row') ∧
      (row ∉ chosen → row' = row)) s.rows rows) :
    Means (.update table settings tests first) (some s) (⟨UInt64.ofNat chosen.length, none⟩, [])
      (some { s with rows })
  | select {table : String} {columns : List String} {tests : List Test} {s : Sheet} {found : List Row}
    (perm : found.Perm (s.passing tests)) :
    Means (.select table columns tests) (some s) (⟨0, none⟩, found.map (Table.project columns)) (some s)
  | count {table name : String} {tests : List Test} {s : Sheet} :
    Means (.count table name tests) (some s)
      (⟨0, none⟩, [[⟨name, .int (Int64.ofNat (s.passing tests).length)⟩]]) (some s)

end Directive

/-- If a statement about a table can be done, that it was done, and that what came of it was told. -/
def Statement.Done (s : Statement) (table : String) (before after : Option Sheet) (told : Effect × List Row → Prop) :
    Prop :=
  ∀ d, s.directive = some d → d.table = table → (∃ out after, d.Means before out after) →
    ∃ out, d.Means before out after ∧ told out

/-- What may be answered to a call, and what has become of a table then, if the call is a statement about it that
runs outside of transactions. Of other calls nothing is said. -/
def Conforms (table : String) (before : Option Sheet) : (q : pool.Ask) → pool.Reply q → Option Sheet → Prop
  | .exec none s, reply, after => s.Done table before after (reply = .ok ·.1)
  | .queryRow none s, reply, after => s.Done table before after (reply = .ok ·.2.head?)
  | _, _, _ => True

/-- A database that does what it reads about one of its tables. -/
def Standard (table : String) (below : (q : pool.Ask) → Option Sheet → pool.Reply q × Option Sheet) : Prop :=
  ∀ q before, Conforms table before q (below q before).1 (below q before).2

section Standard

variable {table : String} {below : (q : pool.Ask) → Option Sheet → pool.Reply q × Option Sheet} {s : Statement}
  {d : Directive} {before after last : Option Sheet} {out : Effect × List Row}

theorem Statement.Done.told {told : Effect × List Row → Prop} (done : s.Done table before last told)
    (asks : s.directive = some d) (about : d.table = table)
    (means : ∀ out' after', d.Means before out' after' ↔ out' = out ∧ after' = after) : told out ∧ last = after := by
  obtain ⟨out', happened, told⟩ := done d asks about ⟨out, after, (means _ _).2 ⟨rfl, rfl⟩⟩
  obtain ⟨rfl, there⟩ := (means _ _).1 happened
  exact ⟨told, there⟩

theorem Standard.exec (standard : Standard table below) (asks : s.directive = some d) (about : d.table = table)
    (means : ∀ out' after', d.Means before out' after' ↔ out' = out ∧ after' = after) :
    below (.exec none s) before = (.ok out.1, after) := by
  obtain ⟨reply, there⟩ := (standard (.exec none s) before).told asks about means
  exact Prod.ext reply there

theorem Standard.queryRow (standard : Standard table below) (asks : s.directive = some d) (about : d.table = table)
    (means : ∀ out' after', d.Means before out' after' ↔ out' = out ∧ after' = after) :
    below (.queryRow none s) before = (.ok out.2.head?, after) := by
  obtain ⟨reply, there⟩ := (standard (.queryRow none s) before).told asks about means
  exact Prod.ext reply there

theorem Statement.exists_done {α : Type} (s : Statement) (table : String) (before : Option Sheet)
    (tell : Effect × List Row → α) (other : α) : ∃ reply after, s.Done table before after (reply = tell ·) := by
  by_cases can : ∃ d, s.directive = some d ∧ ∃ out after, d.Means before out after
  · obtain ⟨d, asks, out, after, means⟩ := can
    refine ⟨tell out, after, fun d' asks' _ _ => ⟨out, ?_, rfl⟩⟩
    cases asks.symm.trans asks'
    exact means
  · exact ⟨other, before, fun d asks _ means => absurd ⟨d, asks, means⟩ can⟩

/-- There is such a database. -/
theorem exists_standard (table : String) : ∃ below, Standard table below := by
  have refusal : Error := .prepareUnsupported table
  have each (q : pool.Ask) (before : Option Sheet) : ∃ answer : pool.Reply q × Option Sheet,
      Conforms table before q answer.1 answer.2 := by
    match q with
    | .exec none s =>
      obtain ⟨reply, after, done⟩ := s.exists_done table before (.ok ·.1) (.error refusal : Except Error Effect)
      exact ⟨(reply, after), done⟩
    | .queryRow none s =>
      obtain ⟨reply, after, done⟩ :=
        s.exists_done table before (.ok ·.2.head?) (.error refusal : Except Error (Option Row))
      exact ⟨(reply, after), done⟩
    | .abandon _ => exact ⟨((), before), trivial⟩
    | .begin _ | .exec (some _) _ | .query .. | .queryRow (some _) _ | .prepare .. | .commit _ | .rollback _ =>
      exact ⟨(.error refusal, before), trivial⟩
  choose below conforms using each
  exact ⟨below, conforms⟩

end Standard

end Cutover.Sql

namespace Cutover

open Sql (Capacity Declaration Directive Effect Row Setting Sheet Standard Test)
open Sql.Declaration (admits_long cell_of initial_counted initial_given initial_preset)

namespace LeaseTable

def full (r : LeaseRow) : Row :=
  [⟨"id", .int r.id⟩, ⟨"payload", .bytes r.payload⟩, ⟨"created", .int r.created⟩,
    ⟨"lease_owner", .ofOption .text r.owner⟩, ⟨"lease_expires", .int r.expires⟩,
    ⟨"attempts", .int (Int64.ofNat r.attempts)⟩, ⟨"done", .ofBool r.done⟩]

/-- The table as a database has it. -/
def sheet (t : LeaseTable) : Sheet := ⟨LeaseQuery.columns, "id", t.map full⟩

/-- Rows are numbered from one on. -/
structure Numbered (t : LeaseTable) : Prop where
  ids : t.map (·.id) = (List.range t.length).map fun i => Int64.ofNat (i + 1)
  few : t.length < 2 ^ 63

end LeaseTable

/-- The values of a statement fit the columns, and a token that is read back is on one row at most. -/
def LeaseQuery.Fits (t : LeaseTable) : LeaseQuery → Prop
  | .insert payload _ => payload.length ≤ 1024 ∧ t.length + 1 < 2 ^ 63
  | .claim owner _ _ => owner.length ≤ 36 ∧ ∀ r ∈ t, r.attempts + 1 < 2 ^ 31
  | .claimed owner => ∀ r ∈ t, ∀ s ∈ t, LeaseTable.readable owner r = true → LeaseTable.readable owner s = true → r = s
  | .create | .outstanding | .finish .. | .release .. => True

namespace LeaseTable

variable {t : LeaseTable} {table : String} {fits : LeaseRow → Bool} {f : LeaseRow → LeaseRow}

theorem Numbered.ascending (numbered : t.Numbered) : t.Pairwise (·.id < ·.id) := by
  rw [← List.pairwise_map, numbered.ids, List.pairwise_map]
  refine List.pairwise_lt_range.imp_of_mem fun {i j} _ inside below => ?_
  have few := numbered.few
  rw [List.mem_range] at inside
  rw [Int64.lt_iff_toInt_lt, Int64.toInt_ofNat_of_lt (by omega), Int64.toInt_ofNat_of_lt (by omega)]
  omega

theorem Numbered.inj (numbered : t.Numbered) {r s : LeaseRow} (here : r ∈ t) (there : s ∈ t) (same : r.id = s.id) :
    r = s := by
  have distinct : (t.map (·.id)).Nodup := List.pairwise_map.2 <| numbered.ascending.imp
    fun {a b} (below : a.id < b.id) (same : a.id = b.id) => Int64.lt_irrefl (same ▸ below)
  exact List.inj_on_of_nodup_map distinct here there same

theorem Numbered.nodup (numbered : t.Numbered) : t.Nodup :=
  numbered.ascending.imp fun {a b} (below : a.id < b.id) (same : a = b) => Int64.lt_irrefl (same ▸ below)

theorem Numbered.full_inj (numbered : t.Numbered) {r s : LeaseRow} (here : r ∈ t) (there : s ∈ t)
    (same : full r = full s) : r = s := by
  refine numbered.inj here there ?_
  simp only [full, List.cons.injEq, Sql.Column.mk.injEq, Sql.Value.int.injEq] at same
  exact same.1.2

section Passing

variable {r : LeaseRow} {now id : Int64} {owner : String}

theorem passes_done : Test.passes (full r) (.is "done" (.int 0)) = !r.done := by
  cases done : r.done <;> simp [Test.passes, full, Row.get?, Name.same, Name.fold, Sql.Value.ofBool, done]

theorem passes_expires : Test.passes (full r) (.below "lease_expires" (.int now)) = decide (r.expires < now) := by
  simp [Test.passes, full, Row.get?, Name.same, Name.fold]

theorem passes_owner : Test.passes (full r) (.is "lease_owner" (.text owner)) = (r.owner == some owner) := by
  cases held : r.owner <;> simp [Test.passes, full, Row.get?, Name.same, Name.fold, Sql.Value.ofOption, held]

theorem passes_id : Test.passes (full r) (.is "id" (.int id)) = (r.id == id) := by
  simp [Test.passes, full, Row.get?, Name.same, Name.fold]

end Passing

/-- What changes is the row that is found, if one is. -/
theorem alterFirst_eq (nodup : t.Nodup) : t.alterFirst fits f =
    ((t.find? fits).toList.length, t.map fun r => if t.find? fits = some r then f r else r) := by
  induction t with
  | nil => rfl
  | cons r rest ih =>
    obtain ⟨apart, nodup⟩ := List.nodup_cons.1 nodup
    by_cases here : fits r = true
    · have others : rest.map (fun s => if r = s then f s else s) = rest := by
        refine (List.map_congr_left fun s there => if_neg ?_).trans (List.map_id' rest)
        rintro rfl
        exact apart there
      simp [alterFirst, here, others]
    · have away : rest.find? fits ≠ some r := fun found => apart (List.mem_of_find?_eq_some found)
      simp [alterFirst, here, ih nodup, away]

theorem filter_alone (nodup : t.Nodup)
    (alone : ∀ r ∈ t, ∀ s ∈ t, fits r = true → fits s = true → r = s) : t.filter fits = (t.find? fits).toList := by
  cases found : t.find? fits with
  | none => simpa using found
  | some r =>
    have here := List.mem_of_find?_eq_some found
    have fit := List.find?_some found
    refine List.perm_singleton.1 ((List.perm_ext_iff_of_nodup (nodup.filter _) (List.nodup_singleton r)).2 fun s => ?_)
    rw [List.mem_filter, List.mem_singleton]
    constructor
    · exact fun ⟨there, also⟩ => alone s there r here also fit
    · rintro rfl
      exact ⟨here, fit⟩

section Changing

variable {tests : List Test} {chosen : List Row}

theorem passing_sheet (same : ∀ r, tests.all (·.passes (full r)) = fits r) :
    t.sheet.passing tests = (t.filter fits).map full := by
  rw [Sheet.passing, sheet, List.filter_map]
  exact congrArg (List.map full) (List.filter_congr fun r _ => same r)

theorem falls_alone (nodup : t.Nodup) (same : ∀ r, tests.all (·.passes (full r)) = fits r)
    (alone : ∀ r ∈ t, ∀ s ∈ t, fits r = true → fits s = true → r = s) :
    t.sheet.Falls tests chosen none ↔ chosen = (t.find? fits).toList.map full := by
  rw [Sheet.Falls, passing_sheet same, filter_alone nodup alone]

/-- Rows are told apart by their numbers, so it is clear which one is the first. -/
theorem falls_first (numbered : t.Numbered) (same : ∀ r, tests.all (·.passes (full r)) = fits r) :
    t.sheet.Falls tests chosen (some ("id", 1)) ↔ chosen = (t.find? fits).toList.map full := by
  have before (r s : LeaseRow) : Table.before ["id"] (full r) (full s) = (r.id < s.id || r.id == s.id) := by
    simp [Table.before, Table.keyOf, full, Row.get?, Name.same, Name.fold]
  have sorted : ((t.filter fits).map full).Pairwise (Table.before ["id"] · ·) := by
    refine List.pairwise_map.2 ((numbered.ascending.sublist List.filter_sublist).imp fun {r s} below => ?_)
    simp [before, below]
  have first : ((t.filter fits).map full).take 1 = (t.find? fits).toList.map full := by
    rw [← List.map_take, List.take_one, List.head?_filter]
  rw [Sheet.Falls, passing_sheet same]
  constructor
  · rintro ⟨arranged, perm, ordered, rfl⟩
    have whole : arranged = (t.filter fits).map full := by
      refine perm.eq_of_pairwise (fun a b here there below above => ?_) ordered sorted
      obtain ⟨r, inside, rfl⟩ := List.mem_map.1 (perm.mem_iff.1 here)
      obtain ⟨s, also, rfl⟩ := List.mem_map.1 there
      rw [before] at below above
      have ids : r.id = s.id := by grind
      rw [numbered.inj (List.mem_filter.1 inside).1 (List.mem_filter.1 also).1 ids]
    rw [whole, first]
  · rintro rfl
    exact ⟨_, .refl _, sorted, first.symm⟩

theorem means_update (numbered : t.Numbered) {settings : List (String × Setting)} {first : Option (String × Nat)}
    (falls : ∀ chosen, t.sheet.Falls tests chosen first ↔ chosen = (t.find? fits).toList.map full)
    (changes : ∀ r ∈ t, fits r = true → t.sheet.changed settings (full r) = some (full (f r)))
    {out : Effect × List Row} {after : Option Sheet} :
    (Directive.update table settings tests first).Means (some t.sheet) out after ↔
      out = (effect (t.alterFirst fits f).1, []) ∧ after = some (t.alterFirst fits f).2.sheet := by
  have row (r : LeaseRow) (there : r ∈ t) (row' : Row) :
      ((full r ∈ (t.find? fits).toList.map full → t.sheet.changed settings (full r) = some row') ∧
        (full r ∉ (t.find? fits).toList.map full → row' = full r)) ↔
      full (if t.find? fits = some r then f r else r) = row' := by
    have chosen : full r ∈ (t.find? fits).toList.map full ↔ t.find? fits = some r := by
      rw [List.mem_map]
      constructor
      · rintro ⟨s, found, same⟩
        rw [Option.mem_toList] at found
        rwa [numbered.full_inj (List.mem_of_find?_eq_some found) there same] at found
      · exact fun found => ⟨r, Option.mem_toList.2 found, rfl⟩
    rw [chosen]
    by_cases found : t.find? fits = some r
    · simp [found, changes r there (List.find?_some found)]
    · simp [found, eq_comm]
  have rows (rows : List Row) : List.Forall₂ (fun row row' =>
      (row ∈ (t.find? fits).toList.map full → t.sheet.changed settings row = some row') ∧
        (row ∉ (t.find? fits).toList.map full → row' = row)) t.sheet.rows rows ↔
      (t.alterFirst fits f).2.map full = rows := by
    show List.Forall₂ _ (t.map full) rows ↔ _
    rw [List.forall₂_map_left_iff, Sql.forall₂_iff_map row, alterFirst_eq numbered.nodup, List.map_map]
    rfl
  have count : (t.alterFirst fits f).1 = ((t.find? fits).toList.map full).length := by
    rw [alterFirst_eq numbered.nodup, List.length_map]
  constructor
  · intro means
    cases means with
    | update fallen changed =>
      obtain rfl := (falls _).1 fallen
      obtain rfl := (rows _).1 changed
      rw [effect, count]
      exact ⟨rfl, rfl⟩
  · rintro ⟨rfl, rfl⟩
    rw [effect, count]
    exact .update ((falls _).2 rfl) ((rows _).2 rfl)

theorem changed_cons {column : String} {setting : Setting} {rest : List (String × Setting)} {row : Row}
    {c : Declaration} {v : Sql.Value} (found : LeaseQuery.columns.find? (Name.same ·.name column) = some c)
    (value : setting.value row = some v) (fit : (c.admits v && !Name.same c.name "id") = true) :
    t.sheet.changed ((column, setting) :: rest) row = t.sheet.changed rest (Table.assign [⟨c.name, v⟩] row) := by
  rw [Sheet.changed, sheet]
  simp only [found, value, fit, Option.bind_eq_bind, Option.bind_some, if_true]

end Changing

section Assigned

variable {r : LeaseRow}

theorem assign_owner (owner : Option String) :
    Table.assign [⟨"lease_owner", .ofOption .text owner⟩] (full r) = full { r with owner } := by
  simp [Table.assign, full, Name.same, Name.fold]

theorem assign_expires (expires : Int64) :
    Table.assign [⟨"lease_expires", .int expires⟩] (full r) = full { r with expires } := by
  simp [Table.assign, full, Name.same, Name.fold]

theorem assign_attempts (attempts : Nat) :
    Table.assign [⟨"attempts", .int (Int64.ofNat attempts)⟩] (full r) = full { r with attempts } := by
  simp [Table.assign, full, Name.same, Name.fold]

theorem assign_done (done : Bool) : Table.assign [⟨"done", .ofBool done⟩] (full r) = full { r with done } := by
  simp [Table.assign, full, Name.same, Name.fold]

end Assigned

section Changes

variable {r : LeaseRow} {owner : String} {expires : Int64}

/-- One more delivery can be counted as long as the column can hold the count. -/
theorem value_attempts (few : r.attempts + 1 < 2 ^ 31) :
    Setting.value (full r) (.plus "attempts" 1) = some (.int (Int64.ofNat (r.attempts + 1))) := by
  have held : Row.get? (full r) "attempts" = some (.int (Int64.ofNat r.attempts)) := by
    simp [full, Row.get?, Name.same, Name.fold]
  have sum : Int64.ofNat r.attempts + 1 = Int64.ofNat (r.attempts + 1) := (Int64.ofNat_add ..).symm
  have exact : (Int64.ofNat (r.attempts + 1)).toInt = (Int64.ofNat r.attempts).toInt + (1 : Int64).toInt := by
    rw [Int64.toInt_ofNat_of_lt (by omega), Int64.toInt_ofNat_of_lt (by omega)]
    rfl
  rw [Setting.value, held]
  simp only [sum, exact, if_true]

theorem changed_claim (short : owner.length ≤ 36) (few : r.attempts + 1 < 2 ^ 31) :
    t.sheet.changed [("lease_owner", .to (.text owner)), ("lease_expires", .to (.int expires)),
      ("attempts", .plus "attempts" 1)] (full r) =
      some (full { r with owner := some owner, expires, attempts := r.attempts + 1 }) := by
  have fits : (Declaration.mk "lease_owner" (.characters 36) true false none).admits
      (.ofOption .text (some owner)) = true := by
    simp [Declaration.admits, Capacity.holds, Sql.Value.ofOption, short]
  have small : (Declaration.mk "attempts" (.integer 32) false false (some (.int 0))).admits
      (.int (Int64.ofNat (r.attempts + 1))) = true := by
    have exact : (Int64.ofNat (r.attempts + 1)).toInt = r.attempts + 1 := Int64.toInt_ofNat_of_lt (by omega)
    simp only [Declaration.admits, Capacity.holds, exact, Bool.and_eq_true, decide_eq_true_eq]
    omega
  rw [changed_cons (v := .ofOption .text (some owner)) rfl rfl (by rw [fits]; rfl), assign_owner,
    changed_cons (v := .int expires) rfl rfl (by rw [admits_long]; rfl), assign_expires,
    changed_cons rfl (value_attempts (r := { r with owner := some owner, expires }) few) (by rw [small]; rfl),
    assign_attempts]
  rfl

theorem changed_finish : t.sheet.changed [("done", .to (.int 1))] (full r) = some (full { r with done := true }) := by
  rw [changed_cons (v := .ofBool true) rfl rfl rfl, assign_done]
  rfl

theorem changed_release : t.sheet.changed [("lease_owner", .to .null), ("lease_expires", .to (.int expires))]
    (full r) = some (full { r with owner := none, expires }) := by
  rw [changed_cons (v := .ofOption .text none) rfl rfl rfl, assign_owner,
    changed_cons (v := .int expires) rfl rfl (by rw [admits_long]; rfl), assign_expires]
  rfl

end Changes

section Statements

variable {out : Effect × List Row} {after : Option Sheet} {owner : String} {id : Int64}

theorem heldBy_alone (numbered : t.Numbered) :
    ∀ r ∈ t, ∀ s ∈ t, heldBy id owner r = true → heldBy id owner s = true → r = s := by
  intro r here s there first second
  simp only [heldBy, Bool.and_eq_true, beq_iff_eq] at first second
  exact numbered.inj here there (first.1.trans second.1.symm)

theorem means_claim (numbered : t.Numbered) {expires now : Int64} (fit : (LeaseQuery.claim owner expires now).Fits t) :
    (LeaseQuery.directive table (.claim owner expires now)).Means (some t.sheet) out after ↔
      out = (effect (t.alterFirst (claimable now) fun r =>
        { r with owner := some owner, expires, attempts := r.attempts + 1 }).1, []) ∧
      after = some (t.execute (.claim owner expires now)).2.sheet := by
  refine means_update numbered (fun chosen => falls_first numbered fun r => ?_) fun r there _ => ?_
  · simp [passes_done, passes_expires, claimable]
  · exact changed_claim fit.1 (fit.2 r there)

theorem means_finish (numbered : t.Numbered) :
    (LeaseQuery.directive table (.finish id owner)).Means (some t.sheet) out after ↔
      out = (effect (t.alterFirst (heldBy id owner) fun r => { r with done := true }).1, []) ∧
      after = some (t.execute (.finish id owner)).2.sheet := by
  refine means_update numbered (fun chosen => falls_alone numbered.nodup (fun r => ?_) (heldBy_alone numbered))
    fun r _ _ => changed_finish
  simp [passes_id, passes_owner, heldBy]

theorem means_release (numbered : t.Numbered) {retryAt : Int64} :
    (LeaseQuery.directive table (.release retryAt id owner)).Means (some t.sheet) out after ↔
      out = (effect (t.alterFirst (heldBy id owner) fun r => { r with owner := none, expires := retryAt }).1, []) ∧
      after = some (t.execute (.release retryAt id owner)).2.sheet := by
  refine means_update numbered (fun chosen => falls_alone numbered.nodup (fun r => ?_) (heldBy_alone numbered))
    fun r _ _ => changed_release
  simp [passes_id, passes_owner, heldBy]

theorem means_create {before : Option Sheet} : (LeaseQuery.directive table .create).Means before out after ↔
    out = (effect 0, []) ∧ after = some (before.getD (sheet [])) := by
  constructor
  · intro means
    cases means
    exact ⟨rfl, rfl⟩
  · rintro ⟨rfl, rfl⟩
    exact .create

theorem means_outstanding : (LeaseQuery.directive table .outstanding).Means (some t.sheet) out after ↔
    out = (effect 0, [[⟨"n", .int (Int64.ofNat (t.filter (!·.done)).length)⟩]]) ∧ after = some t.sheet := by
  have count : (t.sheet.passing [.is "done" (.int 0)]).length = (t.filter (!·.done)).length := by
    rw [passing_sheet fun r => ?_, List.length_map]
    simp [passes_done]
  rw [← count]
  constructor
  · intro means
    cases means
    exact ⟨rfl, rfl⟩
  · rintro ⟨rfl, rfl⟩
    exact .count

theorem means_claimed (numbered : t.Numbered) (fit : (LeaseQuery.claimed owner).Fits t) :
    (LeaseQuery.directive table (.claimed owner)).Means (some t.sheet) out after ↔
      out = (effect 0, (t.find? (readable owner)).toList.map toRow) ∧ after = some t.sheet := by
  have passing : t.sheet.passing [.is "lease_owner" (.text owner), .is "done" (.int 0)] =
      (t.find? (readable owner)).toList.map full := by
    rw [← filter_alone numbered.nodup fit, passing_sheet fun r => ?_]
    simp [passes_owner, passes_done, readable]
  have projected : ((t.find? (readable owner)).toList.map full).map
      (Table.project ["id", "payload", "attempts"]) = (t.find? (readable owner)).toList.map toRow := by
    rw [List.map_map]
    refine List.map_congr_left fun r _ => ?_
    simp [Table.project, toRow, full, Row.get?, Name.same, Name.fold]
  rw [← projected]
  constructor
  · intro means
    cases means with
    | @select _ _ _ _ found perm =>
      -- There is no more than one row to be found, so the order that rows are answered in is no matter.
      rw [passing] at perm
      have order : found = (t.find? (readable owner)).toList.map full := by
        revert perm
        cases t.find? (readable owner) with
        | none => exact List.Perm.eq_nil
        | some r => exact List.perm_singleton.1
      rw [order]
      exact ⟨rfl, rfl⟩
  · rintro ⟨rfl, rfl⟩
    exact .select (by rw [passing])

theorem greatest_range {n : Nat} (few : n < 2 ^ 63) :
    ((List.range n).map fun i => Int64.ofNat (i + 1)).foldl (fun most k => max most k.toInt) 0 = n := by
  induction n with
  | zero => rfl
  | succ n ih =>
    rw [List.range_succ, List.map_append, List.foldl_append, ih (by omega)]
    simp only [List.map_cons, List.map_nil, List.foldl_cons, List.foldl_nil, Int64.toInt_ofNat_of_lt few]
    omega

theorem Numbered.next_eq (numbered : t.Numbered) : t.sheet.next = t.length + 1 := by
  have keys : (t.map full).filterMap (Table.keyOf · "id") = t.map (·.id) := by
    rw [List.filterMap_map, ← List.filterMap_eq_map]
    refine List.filterMap_congr fun r _ => ?_
    simp [Table.keyOf, full, Row.get?, Name.same, Name.fold]
  rw [Sheet.next, sheet]
  simp only [keys, numbered.ids, greatest_range numbered.few]

theorem made_insert (numbered : t.Numbered) {payload : List UInt8} {created : Int64}
    (fit : (LeaseQuery.insert payload created).Fits t) :
    t.sheet.made [⟨"payload", .bytes payload⟩, ⟨"created", .int created⟩] =
      some (full ⟨t.nextId, payload, created, none, 0, 0, false⟩) := by
  obtain ⟨short, few⟩ := fit
  have number : Int64.ofInt t.sheet.next = t.nextId := congrArg Int64.ofInt numbered.next_eq
  have within : t.sheet.next < 2 ^ 63 := by
    rw [numbered.next_eq]
    omega
  have known : ([⟨"payload", .bytes payload⟩, ⟨"created", .int created⟩] : Row).all (fun g =>
      t.sheet.columns.any (Name.same g.name ·.name) && !Name.same g.name t.sheet.key) = true := by
    simp [sheet, LeaseQuery.columns, Name.same, Name.fold]
  rw [Sheet.made, if_pos known]
  -- What the columns take is computed below, and the next number is not for computing.
  generalize t.sheet.next = next at number within
  have none_given (c : Declaration)
      (other : Name.same "payload" c.name = false ∧ Name.same "created" c.name = false) :
      Row.get? [⟨"payload", .bytes payload⟩, ⟨"created", .int created⟩] c.name = none := by
    simp [Row.get?, other]
  refine Sql.mapM_eq_some (List.Forall₂.cons ?_ (.cons ?_ (.cons ?_ (.cons ?_ (.cons ?_ (.cons ?_ (.cons ?_ .nil)))))))
  · rw [← number]
    exact cell_of (initial_counted (none_given _ (by decide)) rfl within (admits_long ..))
  · exact cell_of (initial_given (by simp [Row.get?, Name.same, Name.fold]) (decide_eq_true short))
  · exact cell_of (initial_given (by simp [Row.get?, Name.same, Name.fold]) (admits_long ..))
  · exact cell_of (initial_preset (none_given _ (by decide)) rfl rfl rfl)
  · exact cell_of (initial_preset (none_given _ (by decide)) rfl rfl (admits_long ..))
  · exact cell_of (initial_preset (v := .int 0) (none_given _ (by decide)) rfl rfl rfl)
  · exact cell_of (initial_preset (v := .int 0) (none_given _ (by decide)) rfl rfl rfl)

theorem means_insert (numbered : t.Numbered) {payload : List UInt8} {created : Int64}
    (fit : (LeaseQuery.insert payload created).Fits t) :
    (LeaseQuery.directive table (.insert payload created)).Means (some t.sheet) out after ↔
      out = (⟨1, some (UInt64.ofNat (t.length + 1))⟩, []) ∧
      after = some (t.execute (.insert payload created)).2.sheet := by
  have made := made_insert numbered fit
  have number : UInt64.ofNat t.sheet.next.toNat = UInt64.ofNat (t.length + 1) := by
    rw [numbered.next_eq]
    rfl
  have rows : (t.execute (.insert payload created)).2.sheet = { t.sheet with
      rows := t.sheet.rows ++ [full ⟨t.nextId, payload, created, none, 0, 0, false⟩] } := by
    simp [execute, sheet]
  rw [← number, rows]
  constructor
  · intro means
    cases means with
    | insert made' =>
      cases made'.symm.trans made
      exact ⟨rfl, rfl⟩
  · rintro ⟨rfl, rfl⟩
    exact .insert made

end Statements

section Runs

theorem Numbered.altered (numbered : t.Numbered) (keeps : ∀ r, (f r).id = r.id) :
    Numbered (t.alterFirst fits f).2 := by
  have ids : (t.alterFirst fits f).2.map (·.id) = t.map (·.id) := map_alterFirst t fits keeps
  have length : (t.alterFirst fits f).2.length = t.length := by simpa using congrArg List.length ids
  exact ⟨by rw [ids, length, numbered.ids], by rw [length]; exact numbered.few⟩

theorem Numbered.next (numbered : t.Numbered) {q : LeaseQuery} (fit : q.Fits t) : Numbered (t.execute q).2 := by
  cases q with
  | insert payload created =>
    have few : t.length + 1 < 2 ^ 63 := fit.2
    refine ⟨?_, by simpa [execute] using few⟩
    simp [execute, numbered.ids, nextId, List.range_succ]
  | claim owner expires now => exact numbered.altered fun _ => rfl
  | finish id owner => exact numbered.altered fun _ => rfl
  | release retryAt id owner => exact numbered.altered fun _ => rfl
  | create | outstanding | claimed => exact numbered

theorem numbered_nil : Numbered [] := ⟨rfl, by decide⟩

variable {below : (q : Sql.pool.Ask) → Option Sheet → Sql.pool.Reply q × Option Sheet}

/-- A table that is not there is made, and has no rows. -/
theorem run_create (standard : Standard table below) (unquoted : Sql.Unquoted table) :
    (LeaseQuery.send table .create).run below none = (.ok (effect 0), some (sheet [])) :=
  standard.exec (LeaseQuery.directive_statement unquoted .create) rfl fun _ _ => means_create

/-- The text of a statement does to a table in a database what the statement does. -/
theorem run_send (standard : Standard table below) (unquoted : Sql.Unquoted table) (numbered : t.Numbered)
    {q : LeaseQuery} (fit : q.Fits t) :
    (LeaseQuery.send table q).run below (some t.sheet) = ((t.execute q).1, some (t.execute q).2.sheet) := by
  have asks := LeaseQuery.directive_statement unquoted q
  cases q with
  | create => exact standard.exec asks rfl fun _ _ => means_create
  | outstanding => exact standard.queryRow asks rfl fun _ _ => means_outstanding
  | insert payload created => exact standard.exec asks rfl fun _ _ => means_insert numbered fit
  | claim owner expires now => exact standard.exec asks rfl fun _ _ => means_claim numbered fit
  | claimed owner =>
    refine (standard.queryRow asks rfl fun _ _ => means_claimed numbered fit).trans ?_
    rw [List.head?_map, Option.head?_toList]
    rfl
  | finish id owner => exact standard.exec asks rfl fun _ _ => means_finish numbered
  | release retryAt id owner => exact standard.exec asks rfl fun _ _ => means_release numbered

/-- Each statement fits the table that it comes upon. -/
def Fitting {α : Type} : Dialogue leases α → LeaseTable → Prop
  | .done _, _ => True
  | .ask q next, t => q.Fits t ∧ Fitting (next (t.execute q).1) (t.execute q).2

/-- What comes of a dialogue with the table of messages, and the table it leaves. -/
def served {α : Type} (d : Dialogue leases α) (t : LeaseTable) : α × LeaseTable := d.run (fun q t => t.execute q) t

/-- Whatever is done with a queue comes to the same, by the text of its statements, as with the table of
messages. -/
theorem run_via {α : Type} (standard : Standard table below) (unquoted : Sql.Unquoted table) (d : Dialogue leases α)
    (numbered : t.Numbered) (fitting : Fitting d t) :
    (d.via (LeaseQuery.send table)).run below (some t.sheet) = ((served d t).1, some (served d t).2.sheet) := by
  induction d generalizing t with
  | done a => rfl
  | ask q next ih =>
    obtain ⟨fit, rest⟩ := fitting
    refine (Dialogue.run_bind below (LeaseQuery.send table q) (fun r => (next r).via _) _).trans ?_
    rw [run_send standard unquoted numbered fit]
    exact ih _ (numbered.next fit) rest

/-- So it is from the start, with a database that has no such table yet. -/
theorem run_founded {α : Type} (standard : Standard table below) (unquoted : Sql.Unquoted table) (q : LeaseQueue)
    (d : Dialogue leases α) (fitting : Fitting d []) :
    ((q.create.bind fun _ => d).via (LeaseQuery.send table)).run below none =
      ((served d []).1, some (served d []).2.sheet) := by
  refine (Dialogue.run_bind below (LeaseQuery.send table .create) (fun _ => d.via _) _).trans ?_
  rw [run_create standard unquoted]
  exact run_via standard unquoted d numbered_nil fitting

end Runs

end LeaseTable
end Cutover
