import Cutover.Answer
import Cutover.Http.MediaType
import Cutover.Http.Percent
import Cutover.Http.Target

/-! The control plane: what a request asks for, and what is answered. A request that reaches one of
its commands is answered with success by HTTP and told in the answer how it went; only a request that
reaches none is refused by HTTP itself. -/
namespace Cutover.Control

structure Request where
  method : String
  target : Http.Target
  contentType : Option String
  body : List UInt8

inductive Command where
  | switch (pattern : Pattern)
  | unknownPattern (name : String)
  | startFull
  | stopFull
  /-- The body may have been of no use. -/
  | startIncremental (start : Option IncrementalStart)
  | stopIncremental
  | status

/-- What a path leads to. -/
inductive Place where
  | switch (pattern : Pattern)
  | named (name : List UInt8)
  | startFull
  | stopFull
  | startIncremental
  | stopIncremental
  | status
  | healthcheck
  | metrics

def place? : List String → Option Place
  | ["", "healthcheck"] => some .healthcheck
  | ["", "metrics"] => some .metrics
  | ["", "migrator", "full", "start"] => some .startFull
  | ["", "migrator", "full", "stop"] => some .stopFull
  | ["", "migrator", "incr", "start"] => some .startIncremental
  | ["", "migrator", "incr", "stop"] => some .stopIncremental
  | ["", "migrator", "status"] => some .status
  | ["", "migrator", name] => (Pattern.ofName? name).map .switch
  | _ => none

theorem length_of_place? {path : List String} {place : Place} (found : place? path = some place) :
    path.length ≤ 4 := by
  unfold place? at found
  split at found
  case h_9 => cases found
  all_goals simp

theorem place?_ne_named (path : List String) (name : List UInt8) : place? path ≠ some (.named name) := by
  intro found
  unfold place? at found
  split at found <;> simp at found

/-- The place of a path. The name of a pattern may be written in any octets. -/
def placeOf (path : List (List UInt8)) : Option Place :=
  match path with
  | [[], migrator, pattern, name] =>
    if migrator = Utf8.encode "migrator" ∧ pattern = Utf8.encode "pattern" then
      if name.isEmpty then none else some (.named name)
    else (path.mapM Utf8.decode).bind place?
  | path => (path.mapM Utf8.decode).bind place?

theorem length_mapM {α β : Type} {f : α → Option β} {xs : List α} {ys : List β}
    (all : xs.mapM f = some ys) : ys.length = xs.length := by
  induction xs generalizing ys with
  | nil =>
    cases all
    rfl
  | cons x rest ih =>
    simp only [List.mapM_cons, Option.bind_eq_bind, Option.bind_eq_some_iff, Option.pure_def,
      Option.some.injEq] at all
    obtain ⟨y, -, more, found, rfl⟩ := all
    rw [List.length_cons, List.length_cons, ih found]

theorem placeOf_cases {path : List (List UInt8)} {place : Place} (found : placeOf path = some place) :
    (∃ name, path = [[], Utf8.encode "migrator", Utf8.encode "pattern", name] ∧ name ≠ [] ∧
      place = .named name) ∨
      ∃ words, path.mapM Utf8.decode = some words ∧ place? words = some place := by
  unfold placeOf at found
  split at found
  · split at found
    · rename_i same
      obtain ⟨rfl, rfl⟩ := same
      split at found
      · cases found
      · rename_i some_
        cases found
        exact .inl ⟨_, rfl, by simpa using some_, rfl⟩
    · exact .inr (Option.bind_eq_some_iff.1 found)
  · exact .inr (Option.bind_eq_some_iff.1 found)

/-- No place is deeper down than the names of patterns. -/
theorem length_of_placeOf {path : List (List UInt8)} {place : Place} (found : placeOf path = some place) :
    path.length ≤ 4 := by
  rcases placeOf_cases found with ⟨name, rfl, -⟩ | ⟨words, decoded, found⟩
  · exact Nat.le_refl _
  · exact length_mapM decoded ▸ length_of_place? found

theorem placeOf_eq_named {path : List (List UInt8)} {name : List UInt8} :
    placeOf path = some (.named name) ↔
      path = [[], Utf8.encode "migrator", Utf8.encode "pattern", name] ∧ name ≠ [] := by
  constructor
  · intro found
    rcases placeOf_cases found with ⟨same, rfl, some_, is⟩ | ⟨words, -, found⟩
    · cases is
      exact ⟨rfl, some_⟩
    · exact absurd found (place?_ne_named words name)
  · rintro ⟨rfl, some_⟩
    simp [placeOf, some_]

theorem placeOf_pattern (name : List UInt8) :
    placeOf [[], Utf8.encode "migrator", Utf8.encode "pattern", name] =
      if name.isEmpty then none else some (.named name) := by
  simp [placeOf]

/-- Whether a place is there to be read. -/
def Place.readable : Place → Bool
  | .status | .healthcheck | .metrics => true
  | _ => false

inductive Routing where
  | command (c : Command)
  | healthcheck
  | metrics
  | notFound
  /-- The methods that the place knows. -/
  | notAllowed (allow : String)
  /-- The name of a pattern is no text. -/
  | badName
  deriving Inhabited

def allowed (p : Place) : String := if p.readable then "GET,HEAD" else "POST"

def accepts (p : Place) (method : String) : Bool :=
  if p.readable then method == "GET" || method == "HEAD" else method == "POST"

/-- How long a body may be to be read at all. -/
def bodyLimit : Nat := 2097152

/-- The body of a request to follow updates, which has to be declared as JSON. -/
def Request.extract (r : Request) : Option IncrementalStart := do
  let m ← Http.MediaType.ofText (← r.contentType)
  if !m.isJson || bodyLimit < r.body.length then none
  else (Json.Raw.read r.body).bind IncrementalStart.ofJson

/-- What it asks for, unless time is to run backwards. -/
def incrementalStart (r : Request) : Option IncrementalStart := r.extract.filter (0 ≤ ·.interval)

def commandNamed (name : String) : Command :=
  match Pattern.ofName? name with
  | some pattern => .switch pattern
  | none => .unknownPattern name

def arrive (r : Request) : Place → Routing
  | .switch pattern => .command (.switch pattern)
  | .named name =>
    match Utf8.decode (Http.Percent.decode name) with
    | some name => .command (commandNamed name)
    | none => .badName
  | .startFull => .command .startFull
  | .stopFull => .command .stopFull
  | .startIncremental => .command (.startIncremental (incrementalStart r))
  | .stopIncremental => .command .stopIncremental
  | .status => .command .status
  | .healthcheck => .healthcheck
  | .metrics => .metrics

def route (r : Request) : Routing :=
  match placeOf r.target.segments with
  | none => .notFound
  | some p => if accepts p r.method then arrive r p else .notAllowed (allowed p)

structure Response where
  status : Nat
  contentType : Option String
  allow : Option String
  body : List UInt8

def plainText : String := "text/plain; charset=utf-8"

/-- A response with a body, which a mere look at the head leaves out. -/
def withBody (method contentType : String) (body : List UInt8) : Response :=
  ⟨200, some contentType, none, if method == "HEAD" then [] else body⟩

def respond (method : String) (a : Answer) : Response :=
  withBody method "application/json" (Utf8.encode a.toJson.text)

def healthy (method : String) : Response := withBody method plainText (Utf8.encode "GOOD")

def notFound : Response := ⟨404, none, none, []⟩

def notAllowed (allow : String) : Response := ⟨405, none, some allow, []⟩

def badName : Response := ⟨400, some plainText, none, []⟩

/-- Requests are told apart by an identifier. One that comes without gets the next number. -/
structure Gate where
  next : Nat

def Gate.identify (g : Gate) : Option String → String × Gate
  | some id => (id, g)
  | none => (toString g.next, ⟨g.next + 1⟩)

end Cutover.Control
