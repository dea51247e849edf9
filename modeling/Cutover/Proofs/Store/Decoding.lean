import Cutover.Proofs.Store.View

/-! Records read from rows of any make, with their columns in any order and any spelling, some of them there twice
and others strange. Either every mapped column holds what it is to hold, where it is found first, and the record has
exactly these values; or the first of the mapped columns that is not there or does not is the error. -/
namespace Cutover

section Except

variable {α β ε : Type} {r : Except ε α}

theorem bind_eq_ok_iff {f : α → Except ε β} {b : β} :
    (r >>= f) = .ok b ↔ ∃ a, r = .ok a ∧ f a = .ok b := by
  cases r <;> simp [bind, Except.bind]

theorem bind_eq_error_iff {f : α → Except ε β} {x : ε} :
    (r >>= f) = .error x ↔ r = .error x ∨ ∃ a, r = .ok a ∧ f a = .error x := by
  cases r <;> simp [bind, Except.bind]

theorem map_eq_ok_iff {f : α → β} {b : β} :
    r.map f = .ok b ↔ ∃ a, r = .ok a ∧ f a = b := by
  cases r <;> simp [Except.map]

theorem map_eq_error_iff {f : α → β} {x : ε} :
    r.map f = .error x ↔ r = .error x := by
  cases r <;> simp [Except.map]

end Except

namespace Sql

/-- What a column is to hold. -/
inductive Expected where
  | integer
  | text

namespace Expected

def name : Expected → String
  | integer => "an integer"
  | text => "text"

/-- What is said of a value that will not do. -/
def found : Expected → Value → String
  | text, .bytes _ => "non-UTF-8 bytes"
  | _, v => v.kind

/-- A value that will do, and what it is taken for. -/
inductive Takes : Expected → Value → Value → Prop
  | int (n : Int64) : Takes integer (.int n) (.int n)
  | uint {u : UInt64} {n : Int64} (fits : u.toNat ≤ 0x7fffffffffffffff) (same : n.toInt = u.toNat) :
      Takes integer (.uint u) (.int n)
  | text (s : String) : Takes text (.text s) (.text s)
  | bytes (s : String) : Takes text (.bytes (Utf8.encode s)) (.text s)

/-- The same as a function. -/
def take : Expected → Value → Option Value
  | integer, .int n => some (.int n)
  | integer, .uint u => if u.toNat < 0x8000000000000000 then some (.int (Int64.ofNat u.toNat)) else none
  | text, .text s => some (.text s)
  | text, .bytes b => (Utf8.decode b).map .text
  | _, _ => none

theorem take_eq_some_iff {kind : Expected} {v w : Value} : kind.take v = some w ↔ kind.Takes v w := by
  constructor
  · intro taken
    cases kind <;> cases v <;> simp only [take, reduceCtorEq, Option.some.injEq] at taken
    case integer.int n =>
      subst taken
      exact .int n
    case integer.uint u =>
      obtain ⟨fits, ⟨⟩⟩ := Option.ite_none_right_eq_some.mp taken
      exact .uint (Nat.le_of_lt_succ fits) (Int64.toInt_ofNat_of_lt fits)
    case text.text s =>
      subst taken
      exact .text s
    case text.bytes b =>
      obtain ⟨s, decoded, rfl⟩ := Option.map_eq_some_iff.mp taken
      rw [Utf8.decode_eq_some_iff.mp decoded]
      exact .bytes s
  · rintro (n | ⟨fits, same⟩ | s | s)
    · rfl
    · have value := Int64.toInt_ofNat_of_lt (Nat.lt_succ_of_le fits)
      rw [take, if_pos (Nat.lt_succ_of_le fits), ← Int64.toInt_inj.mp (value.trans same.symm)]
    · rfl
    · rw [take, Utf8.decode_encode, Option.map_some]

end Expected

namespace Row

/-- The first column of a name, in any spelling of it, holds a value. -/
def Holds (row : Row) (name : String) (v : Value) : Prop :=
  ∃ before c after, row = before ++ c :: after ∧ (∀ d ∈ before, ¬Name.same d.name name = true) ∧
    Name.same c.name name = true ∧ c.value = v

/-- What is wrong with a column. -/
inductive Flaw (row : Row) (name : String) (kind : Expected) : Error → Prop
  | missing (absent : ∀ c ∈ row, ¬Name.same c.name name = true) : Flaw row name kind (.noSuchColumn name)
  | unfit {v : Value} (held : row.Holds name v) (none : ∀ w, ¬kind.Takes v w) :
      Flaw row name kind (.columnType name kind.name (kind.found v))

/-- Reads a column as a value of its kind. -/
def read (row : Row) (name : String) : Expected → Except Error Value
  | .integer => (int64 row name).map .int
  | .text => (string row name).map .text

variable {row : Row} {name : String} {kind : Expected}

theorem get?_eq_some_iff {v : Value} : get? row name = some v ↔ row.Holds name v := by
  simp only [get?, Option.map_eq_some_iff, List.find?_eq_some_iff_append, Holds]
  constructor
  · rintro ⟨c, ⟨same, before, after, rfl, others⟩, rfl⟩
    exact ⟨before, c, after, rfl, by simpa using others, same, rfl⟩
  · rintro ⟨before, c, after, rfl, others, same, rfl⟩
    exact ⟨c, ⟨same, before, after, rfl, by simpa using others⟩, rfl⟩

theorem get?_eq_none_iff : get? row name = none ↔ ∀ c ∈ row, ¬Name.same c.name name = true := by
  simp [get?]

theorem read_eq (row : Row) (name : String) (kind : Expected) : row.read name kind =
    match get? row name with
    | none => .error (.noSuchColumn name)
    | some v => match kind.take v with
      | some w => .ok w
      | none => .error (.columnType name kind.name (kind.found v)) := by
  cases kind with
  | integer =>
    rw [read, int64, require]
    rcases get? row name with _ | _ | n | u | x | s | b
    case some.uint =>
      simp only [Expected.take]
      split <;> rfl
    all_goals rfl
  | text =>
    rw [read, string, require]
    rcases get? row name with _ | _ | n | u | x | s | b
    case some.bytes =>
      simp only [Expected.take]
      cases Utf8.decode b <;> rfl
    all_goals rfl

theorem read_eq_ok_iff {w : Value} :
    row.read name kind = .ok w ↔ ∃ v, row.Holds name v ∧ kind.Takes v w := by
  simp only [← get?_eq_some_iff, ← Expected.take_eq_some_iff, read_eq]
  cases get? row name with
  | none => simp
  | some v => cases taken : kind.take v <;> simp [taken]

theorem read_eq_error_iff {x : Error} : row.read name kind = .error x ↔ row.Flaw name kind x := by
  rw [read_eq]
  constructor
  · intro failed
    cases held : get? row name with
    | none =>
      rw [held] at failed
      cases failed
      exact .missing (get?_eq_none_iff.mp held)
    | some v =>
      cases taken : kind.take v with
      | some w => simp [held, taken] at failed
      | none =>
        simp only [held, taken, Except.error.injEq] at failed
        subst failed
        exact .unfit (get?_eq_some_iff.mp held) fun w takes => by
          simp [Expected.take_eq_some_iff.mpr takes] at taken
  · rintro (absent | ⟨held, none⟩)
    · rw [get?_eq_none_iff.mpr absent]
    · have taken : kind.take _ = .none := Option.eq_none_iff_forall_ne_some.mpr fun w taken =>
        none w (Expected.take_eq_some_iff.mp taken)
      simp only [get?_eq_some_iff.mpr held, taken]

end Row
end Sql

namespace Interactive

open Sql (Row Expected)

/-- What a mapped column is to hold. -/
def expected (column : String) : Expected := if column = "biz" then .text else .integer

/-- A column can be read. -/
def Readable (row : Row) (column : String) : Prop := ∃ v w, row.Holds column v ∧ (expected column).Takes v w

/-- An error is that of the first of some columns which has one. -/
def FirstFlaw (row : Row) (x : Sql.Error) (columns : List String) : Prop :=
  ∃ before column after, columns = before ++ column :: after ∧ (∀ c ∈ before, Readable row c) ∧
    row.Flaw column (expected column) x

variable {row : Row} {e : Interactive} {x : Sql.Error}

theorem firstFlaw_nil : ¬FirstFlaw row x [] := by
  rintro ⟨before, column, after, parts, -⟩
  cases before <;> cases parts

theorem firstFlaw_cons (column : String) (rest : List String) : FirstFlaw row x (column :: rest) ↔
    row.Flaw column (expected column) x ∨ Readable row column ∧ FirstFlaw row x rest := by
  constructor
  · rintro ⟨_ | ⟨first, before⟩, c, after, parts, readable, flaw⟩
    · cases parts
      exact .inl flaw
    · cases parts
      obtain ⟨here, others⟩ := List.forall_mem_cons.mp readable
      exact .inr ⟨here, before, c, after, rfl, others, flaw⟩
  · rintro (flaw | ⟨here, before, c, after, rfl, readable, flaw⟩)
    · exact ⟨[], column, rest, rfl, by simp, flaw⟩
    · exact ⟨column :: before, c, after, rfl, List.forall_mem_cons.mpr ⟨here, readable⟩, flaw⟩

theorem ofRow_eq_ok_iff : ofRow row = .ok e ↔
    ∀ c ∈ e.toRow, ∃ v, row.Holds c.name v ∧ (expected c.name).Takes v c.value := by
  have fields : (∀ c ∈ e.toRow, row.read c.name (expected c.name) = .ok c.value) ↔
      Row.int64 row "id" = .ok e.id ∧ Row.int64 row "biz_id" = .ok e.bizId ∧ Row.string row "biz" = .ok e.biz ∧
      Row.int64 row "read_cnt" = .ok e.readCnt ∧ Row.int64 row "like_cnt" = .ok e.likeCnt ∧
      Row.int64 row "collect_cnt" = .ok e.collectCnt ∧ Row.int64 row "utime" = .ok e.utime ∧
      Row.int64 row "ctime" = .ok e.ctime := by
    simp [toRow, expected, Row.read, map_eq_ok_iff]
  simp only [← Row.read_eq_ok_iff, fields, ofRow, bind_eq_ok_iff]
  constructor
  · rintro ⟨_, id, _, bizId, _, biz, _, readCnt, _, likeCnt, _, collectCnt, _, utime, _, ctime, ⟨⟩⟩
    exact ⟨id, bizId, biz, readCnt, likeCnt, collectCnt, utime, ctime⟩
  · rintro ⟨id, bizId, biz, readCnt, likeCnt, collectCnt, utime, ctime⟩
    exact ⟨_, id, _, bizId, _, biz, _, readCnt, _, likeCnt, _, collectCnt, _, utime, _, ctime, rfl⟩

theorem readable_iff {column : String} :
    Readable row column ↔ ∃ w, row.read column (expected column) = .ok w := by
  simp only [Readable, Row.read_eq_ok_iff]
  exact exists_comm

theorem ofRow_eq_error_iff : ofRow row = .error x ↔ FirstFlaw row x columns := by
  simp [columns, firstFlaw_cons, firstFlaw_nil, readable_iff, ← Row.read_eq_error_iff, expected, Row.read,
    map_eq_ok_iff, map_eq_error_iff, ofRow, bind_eq_error_iff, pure, Except.pure]

/-- A row to which columns were added that are not mapped, or in which columns of different names changed places,
any number of times. -/
inductive Rearranged (row : Row) : Row → Prop
  | same : Rearranged row row
  | added {before after : Row} (c : Sql.Column) (other : Rearranged row (before ++ after))
      (strange : ∀ m ∈ columns, ¬Name.same c.name m = true) : Rearranged row (before ++ c :: after)
  | swapped {before after : Row} {c d : Sql.Column} (other : Rearranged row (before ++ c :: d :: after))
      (apart : ¬Name.same c.name d.name = true) : Rearranged row (before ++ d :: c :: after)

theorem get?_rearranged {row' : Row} (other : Rearranged row row') {m : String} (mapped : m ∈ columns) :
    Row.get? row' m = Row.get? row m := by
  induction other with
  | same => rfl
  | @added before after c _ strange ih =>
    rw [← ih, Row.get?, Row.get?, List.find?_append, List.find?_append,
      List.find?_cons_of_neg (p := fun d : Sql.Column => Name.same d.name m) (strange m mapped)]
  | @swapped before after c d _ apart ih =>
    have once : ¬(Name.same c.name m = true ∧ Name.same d.name m = true) := fun both =>
      apart (Name.same_trans both.1 (Name.same_symm both.2))
    rw [← ih, Row.get?, Row.get?, List.find?_append, List.find?_append]
    cases first : Name.same c.name m <;> cases second : Name.same d.name m <;> simp_all

/-- Only what is found under the mapped names matters. -/
theorem ofRow_congr {row' : Row} (same : ∀ m ∈ columns, Row.get? row' m = Row.get? row m) :
    ofRow row' = ofRow row := by
  have integer : ∀ m ∈ columns, Row.int64 row' m = Row.int64 row m := fun m mapped => by
    simp only [Row.int64, Row.require, same m mapped]
  have text : ∀ m ∈ columns, Row.string row' m = Row.string row m := fun m mapped => by
    simp only [Row.string, Row.require, same m mapped]
  simp only [columns, List.forall_mem_cons] at integer text
  simp only [ofRow, integer, text]

/-- A row is read as a record if and only if each mapped column holds the record's value where the column is found
first; otherwise the first mapped column that is missing or will not do is the error. A record comes out of its own
row, and neither strange columns nor the order of the others make a difference. -/
theorem ofRow_exact (row : Row) :
    (∀ e, ofRow row = .ok e ↔ ∀ c ∈ e.toRow, ∃ v, row.Holds c.name v ∧ (expected c.name).Takes v c.value) ∧
      (∀ x, ofRow row = .error x ↔ FirstFlaw row x columns) ∧ (∀ e, ofRow (toRow e) = .ok e) ∧
      ∀ row', Rearranged row row' → ofRow row' = ofRow row :=
  ⟨fun _ => ofRow_eq_ok_iff, fun _ => ofRow_eq_error_iff, ofRow_toRow,
    fun _ other => ofRow_congr fun _ mapped => get?_rearranged other mapped⟩

/-- Names in capitals, an unsigned number, a text in octets and a column that comes again with nothing in it; then
two columns change places and a strange one comes between them. -/
theorem ofRow_exact_rearranged :
    let e : Interactive := ⟨3, 101, "é", 10, 2, 1, 1700000000123, 1700000000000⟩
    let rest : Row := [⟨"biz", .bytes [0xc3, 0xa9]⟩, ⟨"READ_CNT", .uint 10⟩, ⟨"like_cnt", .int 2⟩,
      ⟨"collect_cnt", .int 1⟩, ⟨"utime", .int 1700000000123⟩, ⟨"ctime", .int 1700000000000⟩, ⟨"Utime", .null⟩]
    let row : Row := ⟨"ID", .int 3⟩ :: ⟨"biz_id", .int 101⟩ :: rest
    let row' : Row := ⟨"biz_id", .int 101⟩ :: ⟨"note", .null⟩ :: ⟨"ID", .int 3⟩ :: rest
    Rearranged row row' ∧ ofRow row = .ok e ∧ ofRow row' = .ok e := by
  intro e rest row row'
  have turned : Rearranged row (⟨"biz_id", .int 101⟩ :: ⟨"ID", .int 3⟩ :: rest) :=
    @Rearranged.swapped row [] rest ⟨"ID", .int 3⟩ ⟨"biz_id", .int 101⟩ .same (by decide)
  have other : Rearranged row row' :=
    @Rearranged.added row [⟨"biz_id", .int 101⟩] (⟨"ID", .int 3⟩ :: rest) ⟨"note", .null⟩ turned (by decide)
  have read : ofRow row = .ok e := rfl
  exact ⟨other, read, ((ofRow_exact row).2.2.2 row' other).trans read⟩

end Interactive
end Cutover
