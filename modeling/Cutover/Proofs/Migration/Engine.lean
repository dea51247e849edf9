import Cutover.DualWrite.Router
import Cutover.Proofs.Store.View

/-! The router over two databases that work alike. What a database makes of a statement depends on its
table alone; then the router answers as the primary would on its own, and as long as the two tables
are equal and the secondary does not fail by itself they stay equal. -/
namespace Cutover.Migration

open DualWrite

section Run

variable {σ α β : Type} (below : (q : pools.Ask) → σ → pools.Reply q × σ)

theorem run_follow (lapse : Lapse) (a : α) (d : Dialogue pools (Except Sql.Error β)) (t : σ) :
    ((follow lapse a (some d)).run below t).1.answer = .ok a ∧
      ((follow lapse a (some d)).run below t).2 = (d.run below t).2 := by
  rw [follow, Dialogue.run_bind]
  cases (d.run below t).1 <;> exact ⟨rfl, rfl⟩

/-- The answer of the primary is the answer; the secondary goes second, and only after a success. -/
theorem run_lead (lapse : Lapse) (primary : Dialogue pools (Except Sql.Error α))
    (secondary : Option (Dialogue pools (Except Sql.Error β))) (t : σ) :
    ((lead lapse primary secondary).run below t).1.answer = (primary.run below t).1 ∧
      ((lead lapse primary secondary).run below t).2 =
        match (primary.run below t).1, secondary with
        | .ok _, some d => (d.run below (primary.run below t).2).2
        | _, _ => (primary.run below t).2 := by
  rw [lead, Dialogue.run_bind]
  cases (primary.run below t).1 with
  | error e => exact ⟨rfl, rfl⟩
  | ok a =>
    cases secondary with
    | none => exact ⟨rfl, rfl⟩
    | some d => exact run_follow below lapse a d _

end Run

/-- What an application asks for outside of transactions. -/
inductive Demand where
  | exec (s : Sql.Statement)
  | query (s : Sql.Statement)
  | queryRow (s : Sql.Statement)

namespace Demand

def call : Demand → Sql.Call
  | .exec s => .exec none s
  | .query s => .query none s
  | .queryRow s => .queryRow none s

/-- Whether a demand asks for rows. The router takes it for a mere question then, whatever its statement does. -/
def asks : Demand → Bool
  | .exec _ => false
  | .query _ | .queryRow _ => true

/-- Whether a demand with such an answer is put to the secondary. -/
def mirrored : (d : Demand) → d.call.Reply → Bool
  | .exec _, .ok _ => true
  | _, _ => false

def failed : (d : Demand) → d.call.Reply → Bool
  | .exec _, .error _ | .query _, .error _ | .queryRow _, .error _ => true
  | _, _ => false

end Demand

/-- What a database makes of a call, which depends on its table alone. A demand that fails has no effect. -/
structure Engine where
  answer : (q : Sql.Call) → Table → q.Reply × Table
  failure_still : ∀ (d : Demand) t, d.failed (answer d.call t).1 = true → (answer d.call t).2 = t

namespace Engine

/-- The same with a refusal of all statements, if there is one. -/
def respond (E : Engine) (refusal : Option Sql.Error) : (q : Sql.Call) → Table → q.Reply × Table
  | .exec within s, t =>
    match refusal with
    | some e => (.error e, t)
    | none => E.answer (.exec within s) t
  | q, t => E.answer q t

/-- A database at each side, with what they refuse. -/
def below (E : Engine) (refusal : Side → Option Sql.Error) (q : pools.Ask) (t : Tables) :
    pools.Reply q × Tables :=
  let (r, table) := E.respond (refusal q.1) q.2 (t q.1)
  (r, Function.update t q.1 table)

@[simp] theorem respond_none (E : Engine) (q : Sql.Call) (t : Table) :
    E.respond none q t = E.answer q t := by
  cases q <;> rfl

/-- What is not put to the secondary has changed nothing, questions apart. -/
theorem unmirrored_still (E : Engine) {d : Demand} {t : Table}
    (unmirrored : d.mirrored (E.answer d.call t).1 = false)
    (still : d.asks = true → (E.answer d.call t).2 = t) : (E.answer d.call t).2 = t := by
  cases d with
  | query s | queryRow s => exact still rfl
  | exec s =>
    refine E.failure_still (.exec s) t ?_
    cases outcome : (E.answer (.exec none s) t).1 with
    | error e => simp [Demand.failed, Demand.call, outcome]
    | ok effect => simp [Demand.mirrored, Demand.call, outcome] at unmirrored

end Engine

/-- A demand with its answer. -/
abbrev Entry := (d : Demand) × d.call.Reply

/-- The answers of a single database to demands one after the other, and the table it is left with. -/
def Engine.alone (E : Engine) : List Demand → Table → List Entry × Table
  | [], t => ([], t)
  | d :: rest, t =>
    let (r, t) := E.answer d.call t
    let (entries, t) := E.alone rest t
    (⟨d, r⟩ :: entries, t)

theorem Engine.alone_append (E : Engine) (first second : List Demand) (t : Table) :
    E.alone (first ++ second) t =
      ((E.alone first t).1 ++ (E.alone second (E.alone first t).2).1,
        (E.alone second (E.alone first t).2).2) := by
  induction first generalizing t with
  | nil => rfl
  | cons d rest ih => simp [alone, ih]

/-- The router and the tables on both sides of it. -/
structure Site where
  router : Router
  tables : Tables

namespace Site

def pattern (x : Site) : Pattern := x.router.pattern

def switch (x : Site) (p : Pattern) : Site := { x with router := { x.router with pattern := p } }

/-- Only the secondary ever refuses. -/
def refusal (x : Site) (lapse : Option Sql.Error) (side : Side) : Option Sql.Error :=
  if side = x.pattern.primary then none else lapse

/-- The router answers a demand; a lapse is what the secondary says in refusal if it is asked. -/
def call (E : Engine) (x : Site) (d : Demand) (lapse : Option Sql.Error) : d.call.Reply × Site :=
  let (r, router, tables) := Router.serve (E.below (x.refusal lapse)) d.call (x.router, x.tables)
  (r, ⟨router, tables⟩)

/-- What the primary makes of a demand. -/
def lead (E : Engine) (x : Site) (d : Demand) : d.call.Reply × Table :=
  E.answer d.call (x.tables x.pattern.primary)

variable {E : Engine} {x : Site} {d : Demand} {lapse : Option Sql.Error}

theorem below_primary (E : Engine) (x : Site) (lapse : Option Sql.Error) (q : Sql.Call) :
    E.below (x.refusal lapse) (x.pattern.primary, q) x.tables =
      ((E.answer q (x.tables x.pattern.primary)).1,
        Function.update x.tables x.pattern.primary (E.answer q (x.tables x.pattern.primary)).2) := by
  simp only [Engine.below, refusal, if_true, Engine.respond_none]
  rfl

/-- What becomes of a demand: the answer and the effect are those on the primary, and a statement that
succeeded is put to the secondary as well. -/
theorem call_spec (E : Engine) (x : Site) (d : Demand) (lapse : Option Sql.Error) :
    (x.call E d lapse).1 = (x.lead E d).1 ∧
      (x.call E d lapse).2.pattern = x.pattern ∧
      (x.call E d lapse).2.tables =
        let led := Function.update x.tables x.pattern.primary (x.lead E d).2
        match d.mirrored (x.lead E d).1, secondary? x.pattern with
        | true, some side => (E.below (x.refusal lapse) (side, d.call) led).2
        | _, _ => led := by
  cases d with
  | query s =>
    have only := x.below_primary E lapse (.query none s)
    exact ⟨congrArg Prod.fst only, rfl, congrArg Prod.snd only⟩
  | queryRow s =>
    have only := x.below_primary E lapse (.queryRow none s)
    exact ⟨congrArg Prod.fst only, rfl, congrArg Prod.snd only⟩
  | exec s =>
    let o := (DualWrite.exec x.pattern s).run (E.below (x.refusal lapse)) x.tables
    have served : x.call E (.exec s) lapse =
        ((x.router.routed o.1).1, ⟨(x.router.routed o.1).2, o.2⟩) := by
      simp only [call, Router.serve, Demand.call, Router.answer]
      rw [Dialogue.run_bind]
      rfl
    have first : (askExec x.pattern.primary none s).run (E.below (x.refusal lapse)) x.tables =
        ((x.lead E (.exec s)).1, Function.update x.tables x.pattern.primary (x.lead E (.exec s)).2) :=
      x.below_primary E lapse (.exec none s)
    obtain ⟨answer, tables⟩ := run_lead (E.below (x.refusal lapse)) .exec
      (askExec x.pattern.primary none s) ((secondary? x.pattern).map (askExec · none s)) x.tables
    rw [first] at answer tables
    rw [served]
    refine ⟨answer, rfl, tables.trans ?_⟩
    rcases x.lead E (.exec s) with ⟨_ | _, _⟩ <;> cases secondary? x.pattern <;> rfl

/-- Whatever the secondary does, the primary has taken the demand as it would on its own. -/
theorem call_primary (E : Engine) (x : Site) (d : Demand) (lapse : Option Sql.Error) :
    (x.call E d lapse).2.tables x.pattern.primary = (x.lead E d).2 := by
  rw [(call_spec E x d lapse).2.2]
  simp only
  split
  next side _ asked =>
    have apart : x.pattern.primary ≠ side := by
      simp only [secondary?, Option.ite_none_right_eq_some, Option.some.injEq] at asked
      rw [← asked.2]
      exact (Side.other_ne _).symm
    simp [Engine.below, apart]
  next => simp

/-- Equal tables stay equal while both databases take the writes, and questions are no more than that. -/
theorem call_level {t : Table} (level : ∀ side, x.tables side = t) (dual : x.pattern.dual = true)
    (still : d.asks = true → (E.answer d.call t).2 = t) (side : Side) :
    (x.call E d none).2.tables side = (E.answer d.call t).2 := by
  have led : x.lead E d = E.answer d.call t := by rw [lead, level]
  rw [(call_spec E x d none).2.2, led]
  have asked : secondary? x.pattern = some x.pattern.primary.other := by
    simp [secondary?, dual, Pattern.secondary]
  cases mirrored : d.mirrored (E.answer d.call t).1 with
  | true =>
    simp only [asked]
    by_cases here : side = x.pattern.primary
    · subst here
      simp [Engine.below, (Side.other_ne _).symm]
    · have there : side = x.pattern.primary.other := by
        cases side <;> cases primary : x.pattern.primary <;> simp_all [Side.other]
      subst there
      simp [Engine.below, refusal, level, Side.other_ne]
  | false =>
    have unchanged := E.unmirrored_still mirrored still
    simp only [unchanged]
    by_cases here : side = x.pattern.primary
    · simp [here]
    · simp [here, level]

end Site
end Cutover.Migration
