import Cutover.Sql.Query

/-! How a database reads the statements about records. A text falls into names in quotes, words and marks; the
arguments take the places of the question marks from left to right, and what stands there then is a selection,
an insertion or a deletion. Nothing but the text and the arguments is looked at. -/
namespace Cutover.Sql

inductive Token where
  | name (n : String)
  | word (w : String)
  | comma
  | opening
  | closing
  | equal
  | greater
  | question
  | value (v : Value)
  /-- A character that no statement about records has outside its names. -/
  | stray (c : Char)

namespace Token

/-- Where a reader is in a text: within a name or a word, with what it has of it, or outside of both. -/
inductive Mode where
  | outside
  | name (part : List Char)
  | word (part : List Char)

def sign : Char → Token
  | ',' => .comma
  | '(' => .opening
  | ')' => .closing
  | '=' => .equal
  | '>' => .greater
  | '?' => .question
  | c => .stray c

def enter (c : Char) : List Token × Mode :=
  if c = ' ' then ([], .outside)
  else if c = '`' then ([], .name [])
  else if c.isAlpha then ([], .word [c])
  else ([sign c], .outside)

def step : Mode → Char → List Token × Mode
  | .outside, c => enter c
  | .name part, c => if c = '`' then ([.name (String.ofList part)], .outside) else ([], .name (part ++ [c]))
  | .word part, c =>
    if c.isAlpha then ([], .word (part ++ [c]))
    else (.word (String.ofList part) :: (enter c).1, (enter c).2)

/-- The tokens that end in a text, and where the reader is then. -/
def scan : Mode → List Char → List Token × Mode
  | m, [] => ([], m)
  | m, c :: rest =>
    let (out, m) := step m c
    let (more, last) := scan m rest
    (out ++ more, last)

/-- Each question mark gives way to the next argument, and no argument is left. -/
def fill : List Token → List Value → Option (List Token)
  | [], [] => some []
  | [], _ :: _ => none
  | .question :: _, [] => none
  | .question :: rest, v :: args => (fill rest args).map (.value v :: ·)
  | t :: rest, args => (fill rest args).map (t :: ·)

def name? : Token → Option String
  | .name n => some n
  | _ => none

def value? : Token → Option Value
  | .value v => some v
  | _ => none

def int? : Token → Option Int64
  | .value (.int n) => some n
  | _ => none

/-- One or more items with commas between them, and what comes after. -/
def several (item : Token → Option α) : List Token → Option (List α × List Token)
  | [] => none
  | t :: .comma :: rest => do
    let a ← item t
    let (others, rest) ← several item rest
    return (a :: others, rest)
  | t :: rest => (item t).map fun a => ([a], rest)

end Token

/-- What a column is overwritten with. -/
inductive Source where
  /-- The value that was to be inserted in a column. -/
  | inserted (column : String)
  /-- The value that a column has. -/
  | present (column : String)

/-- A row to be inserted. If its key is taken, columns of the row that has it are overwritten instead, one
after the other. -/
structure Insertion where
  table : String
  given : Row
  updates : List (String × Source)

inductive Command where
  | select (s : Select)
  | insert (i : Insertion)
  | delete (table : String) (id : Int64)

namespace Command

open Sql.Token (name? value? int? several)

def filter : List Token → Option (Filter × List Token)
  | .word "WHERE" :: .name column :: .greater :: .value (.int bound) :: rest => some (.above column bound, rest)
  | .word "WHERE" :: .name "id" :: .equal :: .value (.int id) :: rest => some (.only id, rest)
  | .word "WHERE" :: .name "id" :: .word "IN" :: .opening :: rest => do
    match ← several int? rest with
    | (ids, .closing :: rest) => return (.among ids, rest)
    | _ => none
  | .word "WHERE" :: _ => none
  | rest => some (.all, rest)

def order : List Token → Option (List String × List Token)
  | .word "ORDER" :: .word "BY" :: rest => several name? rest
  | rest => some ([], rest)

def page : List Token → Option (Option Page)
  | [] => some none
  | [.word "LIMIT", .value (.uint limit), .word "OFFSET", .value (.uint offset)] =>
    some (some ⟨limit.toNat, offset.toNat⟩)
  | _ => none

def updates : List Token → Option (List (String × Source))
  | [.name c, .equal, .name d] => some [(c, .present d)]
  | [.name c, .equal, .word "VALUES", .opening, .name d, .closing] => some [(c, .inserted d)]
  | .name c :: .equal :: .name d :: .comma :: rest => (updates rest).map ((c, .present d) :: ·)
  | .name c :: .equal :: .word "VALUES" :: .opening :: .name d :: .closing :: .comma :: rest =>
    (updates rest).map ((c, .inserted d) :: ·)
  | _ => none

def selection (tokens : List Token) : Option Command := do
  match ← several name? tokens with
  | (columns, .word "FROM" :: .name table :: rest) =>
    let (filter, rest) ← filter rest
    let (order, rest) ← order rest
    let page ← page rest
    return .select ⟨columns, table, filter, order, page⟩
  | _ => none

def insertion (table : String) (tokens : List Token) : Option Command := do
  match ← several name? tokens with
  | (columns, .closing :: .word "VALUES" :: .opening :: rest) =>
    match ← several value? rest with
    | (values, .closing :: .word "ON" :: .word "DUPLICATE" :: .word "KEY" :: .word "UPDATE" :: rest) =>
      let updates ← updates rest
      if columns.length = values.length then
        return .insert ⟨table, List.zipWith Column.mk columns values, updates⟩
      else none
    | _ => none
  | _ => none

def ofTokens : List Token → Option Command
  | .word "SELECT" :: rest => selection rest
  | .word "INSERT" :: .word "INTO" :: .name table :: .opening :: rest => insertion table rest
  | [.word "DELETE", .word "FROM", .name table, .word "WHERE", .name "id", .equal, .value (.int id)] =>
    some (.delete table id)
  | _ => none

end Command

/-- What a statement asks for, if it is one of those about records. -/
def Statement.read (s : Statement) : Option Command :=
  match Token.scan .outside s.text.toList with
  | (tokens, .outside) => (Token.fill tokens s.args).bind Command.ofTokens
  | _ => none

/-- A name that is free of the quote, and so is itself between quotes. -/
def Unquoted (n : String) : Prop := '`' ∉ n.toList

namespace Token

theorem scan_append (m : Mode) (a b : List Char) :
    scan m (a ++ b) = ((scan m a).1 ++ (scan (scan m a).2 b).1, (scan (scan m a).2 b).2) := by
  induction a generalizing m with
  | nil => simp [scan]
  | cons c rest ih => simp [scan, ih]

theorem fill_append {ts us parts : List Token} {xs ys : List Value} (filled : fill ts xs = some parts) :
    fill (ts ++ us) (xs ++ ys) = (fill us ys).map (parts ++ ·) := by
  induction ts generalizing xs parts with
  | nil =>
    cases xs with
    | nil => cases filled; simp
    | cons v xs => cases filled
  | cons t ts ih =>
    -- Only a question mark takes an argument; every other token is passed on in one way.
    have plain {t : Token} (kept : ∀ ts xs, fill (t :: ts) xs = (fill ts xs).map (t :: ·))
        (filled : fill (t :: ts) xs = some parts) :
        fill (t :: ts ++ us) (xs ++ ys) = (fill us ys).map (parts ++ ·) := by
      rw [kept] at filled
      obtain ⟨rest, others, rfl⟩ := Option.map_eq_some_iff.mp filled
      rw [List.cons_append, kept, ih others, Option.map_map]
      rfl
    cases t with
    | question =>
      cases xs with
      | nil => cases filled
      | cons v xs =>
        obtain ⟨rest, others, rfl⟩ := Option.map_eq_some_iff.mp filled
        rw [List.cons_append, List.cons_append, fill, ih others, Option.map_map]
        rfl
    | name | word | comma | opening | closing | equal | greater | value | stray =>
      exact plain (fun _ _ => by simp [fill]) filled

/-- A text with its arguments comes to some tokens, whatever stands before or after it. -/
def Reads (text : String) (args : List Value) (parts : List Token) : Prop :=
  ∃ tokens, scan .outside text.toList = (tokens, .outside) ∧ fill tokens args = some parts

theorem Reads.append {a b : String} {xs ys : List Value} {p q : List Token} (first : Reads a xs p)
    (second : Reads b ys q) : Reads (a ++ b) (xs ++ ys) (p ++ q) := by
  obtain ⟨ts, scanned, filled⟩ := first
  obtain ⟨us, scanned', filled'⟩ := second
  refine ⟨ts ++ us, ?_, ?_⟩
  · rw [String.toList_append, scan_append, scanned, scanned']
  · rw [fill_append filled, filled', Option.map_some]

theorem Reads.read {s : Statement} {parts : List Token} (reads : Reads s.text s.args parts) :
    s.read = Command.ofTokens parts := by
  obtain ⟨tokens, scanned, filled⟩ := reads
  simp [Statement.read, scanned, filled]

/-- In quotes stands any name that has no quote itself. -/
theorem reads_quoted {n : String} (unquoted : Unquoted n) : Reads (quoted n) [] [.name n] := by
  -- By induction on what is still to come of the name, for whatever is read of it by then.
  have inside (part rest : List Char) (unquoted : '`' ∉ rest) :
      scan (.name part) (rest ++ ['`']) = ([.name (String.ofList (part ++ rest))], .outside) := by
    induction rest generalizing part with
    | nil => simp [scan, step]
    | cons c rest ih =>
      obtain ⟨here, there⟩ := List.ne_and_not_mem_of_not_mem_cons unquoted
      simp [scan, step, Ne.symm here, ih (part ++ [c]) there]
  refine ⟨[.name n], ?_, rfl⟩
  have opened : (quoted n).toList = '`' :: (n.toList ++ ['`']) := by
    simp [quoted, String.toList_append]
  have entered : step .outside '`' = ([], .name []) := rfl
  simp [opened, scan, entered, inside [] n.toList unquoted]

/-- Tokens with commas between them. -/
def listed : List (List Token) → List Token
  | [] => []
  | [x] => x
  | x :: y :: rest => x ++ .comma :: listed (y :: rest)

theorem reads_listed {α : Type} (text : α → String) (args : α → List Value) (parts : α → List Token)
    {xs : List α} (each : ∀ x ∈ xs, Reads (text x) (args x) (parts x)) :
    Reads (", ".intercalate (xs.map text)) (xs.flatMap args) (listed (xs.map parts)) := by
  induction xs with
  | nil => exact ⟨_, rfl, rfl⟩
  | cons x rest ih =>
    obtain ⟨first, others⟩ := List.forall_mem_cons.mp each
    cases rest with
    | nil => simpa [listed] using first
    | cons y rest =>
      have comma : Reads ", " [] [.comma] := ⟨_, rfl, rfl⟩
      rw [List.map_cons, List.map_cons, String.intercalate_cons_cons]
      simpa [listed] using (first.append comma).append (ih others)

/-- Items that were listed are read one after the other, up to what is no comma. -/
theorem several_listed {α : Type} (item : Token → Option α) (token : α → Token)
    (each : ∀ a, item (token a) = some a) {xs : List α} (any : xs ≠ []) (rest : List Token)
    (ends : ∀ tail, rest ≠ .comma :: tail) :
    several item (listed (xs.map fun a => [token a]) ++ rest) = some (xs, rest) := by
  induction xs with
  | nil => exact absurd rfl any
  | cons x others ih =>
    cases others with
    | nil =>
      rw [List.map_singleton, listed, List.singleton_append, several, each x]
      · rfl
      · exact fun tail comma => ends tail comma
    | cons y others =>
      have tail := ih (List.cons_ne_nil y others)
      simp only [List.map_cons] at tail
      simp [listed, several, each x, tail]

theorem reads_names {names : List String} (unquoted : ∀ n ∈ names, Unquoted n) :
    Reads (", ".intercalate (names.map quoted)) [] (listed (names.map fun n => [.name n])) := by
  have reads := reads_listed quoted (fun _ => []) (fun n => [.name n]) fun n there =>
    reads_quoted (unquoted n there)
  rwa [List.flatMap_eq_nil_iff.mpr fun _ _ => rfl] at reads

theorem several_names {names : List String} (any : names ≠ []) (rest : List Token)
    (ends : ∀ tail, rest ≠ .comma :: tail) :
    several name? (listed (names.map fun n => [.name n]) ++ rest) = some (names, rest) :=
  several_listed name? .name (fun _ => rfl) any rest ends

theorem reads_placeholders {α : Type} (value : α → Value) (xs : List α) :
    Reads (placeholders xs.length) (xs.map value) (listed (xs.map fun a => [.value (value a)])) := by
  have mark (v : Value) : Reads "?" [v] [.value v] := ⟨_, rfl, rfl⟩
  have reads := reads_listed (fun _ => "?") (fun a => [value a]) (fun a => [.value (value a)])
    fun a (_ : a ∈ xs) => mark (value a)
  rwa [List.map_const', ← List.map_eq_flatMap] at reads

end Token

namespace Select

open Sql.Token (Reads listed)

def filterTokens : Filter → List Token
  | .all => []
  | .above column bound => [.word "WHERE", .name column, .greater, .value (.int bound)]
  | .among ids => .word "WHERE" :: .name "id" :: .word "IN" :: .opening ::
    (listed (ids.map fun id => [.value (.int id)]) ++ [.closing])
  | .only id => [.word "WHERE", .name "id", .equal, .value (.int id)]

def orderTokens : List String → List Token
  | [] => []
  | columns => .word "ORDER" :: .word "BY" :: listed (columns.map fun c => [.name c])

def pageTokens : Option Page → List Token
  | none => []
  | some p => [.word "LIMIT", .value (.uint (UInt64.ofNat p.limit)), .word "OFFSET",
    .value (.uint (UInt64.ofNat p.offset))]

/-- Its names can be quoted, its numbers fit and it has what its text cannot do without. -/
structure Sayable (s : Select) : Prop where
  columns : s.columns ≠ []
  names : ∀ n ∈ s.table :: s.columns ++ s.order, Unquoted n
  filter : match s.filter with
    | .above column _ => Unquoted column
    | .among ids => ids ≠ []
    | .all | .only _ => True
  page : ∀ p ∈ s.page, p.limit < UInt64.size ∧ p.offset < UInt64.size

theorem reads_filter {f : Filter} (sayable : ∀ c b, f = .above c b → Unquoted c) :
    Reads (filterText f) (filterArgs f) (filterTokens f) := by
  cases f with
  | all => exact ⟨_, rfl, rfl⟩
  | above column bound =>
    have front : Reads " WHERE " [] [.word "WHERE"] := ⟨_, rfl, rfl⟩
    have back : Reads " > ?" [.int bound] [.greater, .value (.int bound)] := ⟨_, rfl, rfl⟩
    exact (front.append (Token.reads_quoted (sayable column bound rfl))).append back
  | among ids =>
    have front : Reads " WHERE `id` IN (" [] [.word "WHERE", .name "id", .word "IN", .opening] := ⟨_, rfl, rfl⟩
    have back : Reads ")" [] [.closing] := ⟨_, rfl, rfl⟩
    have whole := (front.append (Token.reads_placeholders Value.int ids)).append back
    rw [List.nil_append, List.append_nil] at whole
    exact whole
  | only id =>
    have whole : Reads " WHERE `id` = ?" [.int id] [.word "WHERE", .name "id", .equal, .value (.int id)] :=
      ⟨_, rfl, rfl⟩
    exact whole

theorem reads_order {columns : List String} (names : ∀ c ∈ columns, Unquoted c) :
    Reads (orderText columns) [] (orderTokens columns) := by
  cases columns with
  | nil => exact ⟨_, rfl, rfl⟩
  | cons c rest =>
    have front : Reads " ORDER BY " [] [.word "ORDER", .word "BY"] := ⟨_, rfl, rfl⟩
    exact front.append (Token.reads_names names)

theorem reads_page (page : Option Page) : Reads (pageText page) (pageArgs page) (pageTokens page) := by
  cases page with
  | none => exact ⟨[], rfl, rfl⟩
  | some p =>
    have whole (limit offset : Value) : Reads " LIMIT ? OFFSET ?" [limit, offset]
        [.word "LIMIT", .value limit, .word "OFFSET", .value offset] := ⟨_, rfl, rfl⟩
    exact whole _ _

def tokens (s : Select) : List Token :=
  .word "SELECT" :: (listed (s.columns.map fun c => [.name c]) ++ .word "FROM" :: .name s.table ::
    (filterTokens s.filter ++ (orderTokens s.order ++ pageTokens s.page)))

theorem reads_statement {s : Select} (sayable : s.Sayable) : Reads s.statement.text s.statement.args s.tokens := by
  have quotable {n : String} (there : n ∈ s.table :: s.columns ++ s.order) : Reads (quoted n) [] [.name n] :=
    Token.reads_quoted (sayable.names n there)
  have columns := Token.reads_names fun c (there : c ∈ s.columns) => sayable.names c (by simp [there])
  have select : Reads "SELECT " [] [.word "SELECT"] := ⟨_, rfl, rfl⟩
  have from_ : Reads " FROM " [] [.word "FROM"] := ⟨_, rfl, rfl⟩
  have filter : Reads (filterText s.filter) (filterArgs s.filter) (filterTokens s.filter) :=
    reads_filter fun c b same => by simpa [same] using sayable.filter
  have order : Reads (orderText s.order) [] (orderTokens s.order) :=
    reads_order fun c there => sayable.names c (by simp [there])
  have table : Reads (quoted s.table) [] [.name s.table] := quotable (by simp)
  have whole := (((((select.append columns).append from_).append table).append filter).append order).append
    (reads_page s.page)
  simp only [List.append_assoc, List.nil_append, List.cons_append] at whole
  exact whole

theorem page_tokens {page : Option Page} (fits : ∀ p ∈ page, p.limit < UInt64.size ∧ p.offset < UInt64.size) :
    Command.page (pageTokens page) = some page := by
  cases page with
  | none => rfl
  | some p =>
    obtain ⟨limit, offset⟩ := fits p rfl
    simp [pageTokens, Command.page, UInt64.toNat_ofNat_of_lt' limit, UInt64.toNat_ofNat_of_lt' offset]

theorem order_tokens (order : List String) (page : Option Page) :
    Command.order (orderTokens order ++ pageTokens page) = some (order, pageTokens page) := by
  cases order with
  | nil => cases page <;> rfl
  | cons c rest =>
    have ends (tail : List Token) : pageTokens page ≠ .comma :: tail := by cases page <;> nofun
    have several := Token.several_names (List.cons_ne_nil c rest) (pageTokens page) ends
    simpa [orderTokens, Command.order] using several

theorem filter_tokens {s : Select} (sayable : s.Sayable) :
    Command.filter (filterTokens s.filter ++ (orderTokens s.order ++ pageTokens s.page)) =
      some (s.filter, orderTokens s.order ++ pageTokens s.page) := by
  have filter := sayable.filter
  cases which : s.filter with
  | all => cases s.order <;> cases s.page <;> rfl
  | above column bound => rfl
  | among ids =>
    rw [which] at filter
    have several (rest : List Token) := Token.several_listed Token.int? (fun id => .value (.int id)) (fun _ => rfl)
      filter (.closing :: rest) fun _ => nofun
    simp [filterTokens, Command.filter, several]
  | only id => rfl

/-- A selection says what it selects. -/
theorem read_statement {s : Select} (sayable : s.Sayable) : s.statement.read = some (.select s) := by
  have columns := Token.several_names sayable.columns (.word "FROM" :: .name s.table ::
    (filterTokens s.filter ++ (orderTokens s.order ++ pageTokens s.page))) fun _ => nofun
  rw [(reads_statement sayable).read]
  simp [tokens, Command.ofTokens, Command.selection, columns, filter_tokens sayable, order_tokens,
    page_tokens sayable.page]

end Select

namespace Upsert

open Sql.Token (Reads listed)

/-- What is overwritten if the key is taken, and with what. -/
def sources (u : Upsert) : List (String × Source) :=
  match u.updates with
  | [] => [("id", .present "id")]
  | names => names.map fun c => (c, .inserted c)

def updateTokens : List (String × Source) → List Token
  | updates => listed (updates.map fun
    | (c, .inserted d) => [.name c, .equal, .word "VALUES", .opening, .name d, .closing]
    | (c, .present d) => [.name c, .equal, .name d])

theorem updates_tokens {updates : List (String × Source)} (any : updates ≠ []) :
    Command.updates (updateTokens updates) = some updates := by
  unfold updateTokens
  induction updates with
  | nil => exact absurd rfl any
  | cons first rest ih =>
    rcases rest with _ | ⟨next, rest⟩
    · rcases first with ⟨c, d | d⟩ <;> rfl
    · have others := ih (List.cons_ne_nil next rest)
      simp only [List.map_cons] at others
      rcases first with ⟨c, d | d⟩ <;> simp [listed, Command.updates, others]

structure Sayable (u : Upsert) : Prop where
  columns : u.columns ≠ []
  names : ∀ n ∈ u.table :: u.columns.map (·.name), Unquoted n

def tokens (u : Upsert) : List Token :=
  .word "INSERT" :: .word "INTO" :: .name u.table :: .opening ::
    (listed ((u.columns.map (·.name)).map fun n => [.name n]) ++ .closing :: .word "VALUES" :: .opening ::
      (listed ((u.columns.map (·.value)).map fun v => [.value v]) ++ .closing :: .word "ON" ::
        .word "DUPLICATE" :: .word "KEY" :: .word "UPDATE" :: updateTokens u.sources))

section Quotable

variable {u : Upsert} (quotable : ∀ n ∈ u.table :: u.columns.map (·.name), Unquoted n)

include quotable

theorem reads_updates : Reads u.updateText [] (updateTokens u.sources) := by
  have unquoted : ∀ c ∈ u.updates, Unquoted c := fun c there =>
    quotable c (List.mem_cons_of_mem _ (List.mem_filter.mp there).1)
  rw [updateText, sources]
  cases names : u.updates with
  | nil => exact ⟨_, rfl, rfl⟩
  | cons first rest =>
    have values : Reads " = VALUES(" [] [.equal, .word "VALUES", .opening] := ⟨_, rfl, rfl⟩
    have close : Reads ")" [] [.closing] := ⟨_, rfl, rfl⟩
    have reads := Token.reads_listed (fun c => quoted c ++ " = VALUES(" ++ quoted c ++ ")") (fun _ => [])
      (fun c => [.name c, .equal, .word "VALUES", .opening, .name c, .closing]) fun c (there : c ∈ first :: rest) =>
        have name := Token.reads_quoted (unquoted c (names ▸ there))
        ((name.append values).append name).append close
    rw [List.flatMap_eq_nil_iff.mpr fun _ _ => rfl] at reads
    rw [updateTokens, List.map_map]
    exact reads

theorem reads_statement : Reads u.statement.text u.statement.args u.tokens := by
  have insert : Reads "INSERT INTO " [] [.word "INSERT", .word "INTO"] := ⟨_, rfl, rfl⟩
  have table : Reads (quoted u.table) [] [.name u.table] := Token.reads_quoted (quotable _ List.mem_cons_self)
  have open_ : Reads " (" [] [.opening] := ⟨_, rfl, rfl⟩
  have columns := Token.reads_names fun n there => quotable n (List.mem_cons_of_mem u.table there)
  rw [List.map_map] at columns
  have values : Reads ") VALUES (" [] [.closing, .word "VALUES", .opening] := ⟨_, rfl, rfl⟩
  have otherwise : Reads ") ON DUPLICATE KEY UPDATE " []
      [.closing, .word "ON", .word "DUPLICATE", .word "KEY", .word "UPDATE"] := ⟨_, rfl, rfl⟩
  have whole := ((((((insert.append table).append open_).append columns).append values).append
    (Token.reads_placeholders Column.value u.columns)).append otherwise).append (reads_updates quotable)
  have cells : (u.columns.map (·.value)).map (fun v => [Token.value v]) =
      u.columns.map fun c => [.value c.value] := List.map_map
  simp only [List.append_assoc, List.nil_append, List.append_nil, List.cons_append] at whole
  rw [tokens, cells]
  exact whole

end Quotable

/-- An upsert says what it inserts and what it overwrites. -/
theorem read_statement {u : Upsert} (sayable : u.Sayable) :
    u.statement.read = some (.insert ⟨u.table, u.columns, u.sources⟩) := by
  have names : u.columns.map (·.name) ≠ [] := by simpa using sayable.columns
  have values : u.columns.map (·.value) ≠ [] := by simpa using sayable.columns
  have names (rest : List Token) := Token.several_names names (.closing :: rest) fun _ => nofun
  have values (rest : List Token) := Token.several_listed Token.value? .value (fun _ => rfl) values
    (.closing :: rest) fun _ => nofun
  have sources : u.sources ≠ [] := by
    rw [Upsert.sources]
    split
    · exact List.cons_ne_nil _ _
    next names => simpa using names
  rw [(reads_statement sayable.names).read]
  simp only [tokens, Command.ofTokens, Command.insertion, names, values, updates_tokens sources,
    Option.bind_eq_bind, Option.bind_some, List.length_map, if_true, List.zipWith_map, List.zipWith_self,
    List.map_id', Option.pure_def]

end Upsert

theorem read_delete {table : String} (unquoted : Unquoted table) (id : Int64) :
    (Query.delete table id).statement.read = some (.delete table id) := by
  have front : Token.Reads "DELETE FROM " [] [.word "DELETE", .word "FROM"] := ⟨_, rfl, rfl⟩
  have back : Token.Reads " WHERE `id` = ?" [.int id] [.word "WHERE", .name "id", .equal, .value (.int id)] :=
    ⟨_, rfl, rfl⟩
  have whole : Token.Reads (Query.delete table id).statement.text (Query.delete table id).statement.args
      [.word "DELETE", .word "FROM", .name table, .word "WHERE", .name "id", .equal, .value (.int id)] :=
    (front.append (Token.reads_quoted unquoted)).append back
  rw [whole.read]
  simp [Command.ofTokens]

end Cutover.Sql
