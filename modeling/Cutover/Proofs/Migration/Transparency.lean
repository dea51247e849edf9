import Cutover.Proofs.Migration.Engine
import Cutover.Proofs.Repair.Convergence
import Cutover.Store.Execution

/-! A migration as the application sees it. From the source alone over both to the destination alone,
every answer is the one that a single database would have given that started out as the source: at
each stage some table is the table of that database, and the router asks the side that has it. The router
puts questions to the primary alone, so a question that changes something ends this as soon as another side
is asked. -/
namespace Cutover.Migration

open Repair Validation

/-- How far a migration is. -/
inductive Stage where
  /-- The source alone. -/
  | alone
  /-- The destination follows, from whatever it held before. -/
  | following
  /-- Repaired: both follow, and are equal. -/
  | level
  /-- Both follow, but only the primary knows of a change that a question made. -/
  | parted
  /-- The primary has changed since. -/
  | astray
  /-- The destination alone. -/
  | moved
  deriving DecidableEq

def Stage.repaired : Stage → Bool
  | .alone | .following => false
  | .level | .parted | .astray | .moved => true

/-- A migration from its origin on, with what the application was told. Before the repair the secondary
may refuse whatever it likes; after it nothing is refused any more. -/
inductive Passage (E : Engine) (origin : Site) : Stage → Site → List Entry → Prop where
  | start (single : origin.pattern = .srcOnly) : Passage E origin .alone origin []
  /-- Whatever is asked for; but a question that changes one of two equal tables parts them. -/
  | call {stage : Stage} {x : Site} {told : List Entry} (past : Passage E origin stage x told)
    (d : Demand) (lapse : Option Sql.Error) (steady : stage.repaired = true → lapse = none)
    (still : stage = .level → d.asks = true → (x.lead E d).2 = x.tables x.pattern.primary) :
    Passage E origin stage (x.call E d lapse).2 (told ++ [⟨d, (x.call E d lapse).1⟩])
  | part {x : Site} {told : List Entry} (past : Passage E origin .level x told) (d : Demand)
    (asks : d.asks = true) (changed : (x.lead E d).2 ≠ x.tables x.pattern.primary) :
    Passage E origin .parted (x.call E d none).2 (told ++ [⟨d, (x.call E d none).1⟩])
  | follow {x : Site} {told : List Entry} (past : Passage E origin .alone x told) :
    Passage E origin .following (x.switch .srcFirst) told
  | reconcile {x : Site} {told : List Entry} {tuning : Tuning} {schedule : List Course.Move}
    {c : Course} {r : Repairer} {turns : List Turn} {b : Bench}
    (past : Passage E origin .following x told)
    (whole : Reconciliation (.whole .src tuning) x.tables schedule c r turns b) :
    Passage E origin .level { x with tables := b.tables } told
  | swap {x : Site} {told : List Entry} (past : Passage E origin .level x told) (p : Pattern)
    (dual : p.dual = true) : Passage E origin .level (x.switch p) told
  | stay {x : Site} {told : List Entry} (past : Passage E origin .parted x told) (p : Pattern)
    (dual : p.dual = true) (same : p.primary = x.pattern.primary) : Passage E origin .parted (x.switch p) told
  | stray {stage : Stage} {x : Site} {told : List Entry} (past : Passage E origin stage x told) (p : Pattern)
    (apart : stage = .parted ∧ p.primary ≠ x.pattern.primary ∨ stage = .astray) (dual : x.pattern.dual = true)
    (onward : p ≠ .srcOnly) : Passage E origin .astray (x.switch p) told
  | leave {stage : Stage} {x : Site} {told : List Entry} (past : Passage E origin stage x told)
    (there : stage = .level ∨ stage = .parted ∧ x.pattern = .dstFirst) :
    Passage E origin .moved (x.switch .dstOnly) told

namespace Stage

/-- Where the table of the single database is at a stage, if it is anywhere. -/
def Holds (t : Table) (x : Site) : Stage → Prop
  | .alone => x.pattern = .srcOnly ∧ x.tables .src = t
  | .following => x.pattern = .srcFirst ∧ x.tables .src = t
  | .level => x.pattern.dual = true ∧ ∀ side, x.tables side = t
  | .parted => x.tables x.pattern.primary = t
  | .astray => False
  | .moved => x.pattern = .dstOnly ∧ x.tables .dst = t

variable {E : Engine} {stage : Stage} {t : Table} {x : Site} {d : Demand} {lapse : Option Sql.Error}

/-- The router asks a side that has it. -/
theorem Holds.primary (holds : stage.Holds t x) : x.tables x.pattern.primary = t := by
  cases stage with
  | alone | following | moved =>
    obtain ⟨pattern, table⟩ := holds
    rw [pattern]
    exact table
  | level => exact holds.2 _
  | parted => exact holds
  | astray => exact holds.elim

/-- A demand is answered as by the single database, and its table is where the router asks then. -/
theorem Holds.lead (holds : stage.Holds t x) (d : Demand) (lapse : Option Sql.Error) :
    (x.call E d lapse).1 = (E.answer d.call t).1 ∧ (x.call E d lapse).2.pattern = x.pattern ∧
    (x.call E d lapse).2.tables x.pattern.primary = (E.answer d.call t).2 := by
  have led : x.lead E d = E.answer d.call t := by rw [Site.lead, holds.primary]
  obtain ⟨answer, pattern, -⟩ := x.call_spec E d lapse
  rw [← led]
  exact ⟨answer, pattern, x.call_primary E d lapse⟩

theorem Holds.call (holds : stage.Holds t x) (steady : stage.repaired = true → lapse = none)
    (still : stage = .level → d.asks = true → (x.lead E d).2 = x.tables x.pattern.primary) :
    (x.call E d lapse).1 = (E.answer d.call t).1 ∧
      stage.Holds (E.answer d.call t).2 (x.call E d lapse).2 := by
  obtain ⟨answer, pattern, table⟩ := holds.lead (E := E) d lapse
  refine ⟨answer, ?_⟩
  cases stage with
  | alone | following | moved =>
    obtain ⟨single, -⟩ := holds
    rw [single] at table
    exact ⟨pattern.trans single, table⟩
  | level =>
    cases steady rfl
    rw [Site.lead, holds.primary] at still
    exact ⟨by rw [pattern]; exact holds.1, fun side => Site.call_level holds.2 holds.1 (still rfl) side⟩
  | parted =>
    rw [← pattern] at table
    exact table
  | astray => exact holds

end Stage

namespace Passage

/-- Deletes the record with a key. -/
def deletion (id : Int64) : Sql.Statement := (Sql.Query.delete Interactive.table id).statement

/-- Lists all records. -/
def listing : Sql.Statement := ⟨"SELECT * FROM `interactives` ORDER BY `id`", []⟩

def deleted? (s : Sql.Statement) : Option Int64 :=
  match s.args with
  | [.int id] => if s.text = (deletion id).text then some id else none
  | _ => none

theorem deleted?_deletion (id : Int64) : deleted? (deletion id) = some id := by
  rw [deleted?]
  exact if_pos rfl

/-- A database that can do no more than that. It does it however it is asked, as one does that is sent a
statement for its rows. -/
def register : Engine where
  answer
    | .exec _ s, t =>
      match deleted? s with
      | some id => (.ok ⟨if (t.get? id).isSome then 1 else 0, none⟩, t.erase id)
      | none => (.error (.backend "register" "bad statement"), t)
    | .query _ s, t =>
      match deleted? s with
      | some id => (.ok [], t.erase id)
      | none => (if s.text = listing.text then .ok t.toRows else .error (.backend "register" "bad statement"), t)
    | .queryRow _ s, t =>
      match deleted? s with
      | some id => (.ok none, t.erase id)
      | none => (if s.text = listing.text then .ok t.toRows.head?
        else .error (.backend "register" "bad statement"), t)
    | .begin _, t | .prepare .., t | .commit _, t | .rollback _, t =>
      (.error (.backend "register" "bad statement"), t)
    | .abandon _, t => ((), t)
  failure_still d t failed := by
    cases d with
    | exec s | query s | queryRow s =>
      simp only [Demand.call] at failed ⊢
      cases found : deleted? s <;> simp [found, Demand.failed] at failed ⊢

theorem register_deletion {t : Table} {id : Int64} (there : (t.get? id).isSome = true) :
    (register.answer (Demand.query (deletion id)).call t).2 ≠ t := by
  have erased : (register.answer (Demand.query (deletion id)).call t).2 = t.erase id := by
    simp only [register, Demand.call, deleted?_deletion]
  intro same
  rw [← same, erased, Table.get?_erase, if_pos rfl] at there
  cases there

variable {E : Engine} {origin x : Site} {stage : Stage} {told : List Entry}

/-- So far the application was told what a single database would have told it, and the table that
this database would have by now is where it should be. -/
theorem holds (passage : Passage E origin stage x told) (straight : stage ≠ .astray) :
    let single := E.alone (told.map (·.1)) (origin.tables .src)
    told = single.1 ∧ stage.Holds single.2 x := by
  have extend {told : List Entry} {d : Demand} {r : d.call.Reply}
      (same : told = (E.alone (told.map (·.1)) (origin.tables .src)).1)
      (answer : r = (E.answer d.call (E.alone (told.map (·.1)) (origin.tables .src)).2).1) :
      told ++ [⟨d, r⟩] = (E.alone ((told ++ [(⟨d, r⟩ : Entry)]).map (·.1)) (origin.tables .src)).1 := by
    rw [List.map_append, Engine.alone_append, ← same, answer]
    rfl
  induction passage with
  | start single => exact ⟨rfl, single, rfl⟩
  | call past d lapse steady still ih =>
    obtain ⟨same, holds⟩ := ih straight
    obtain ⟨answer, later⟩ := holds.call (E := E) (d := d) steady still
    refine ⟨extend same answer, ?_⟩
    rw [List.map_append, Engine.alone_append]
    exact later
  | part past d asks changed ih =>
    obtain ⟨same, holds⟩ := ih nofun
    obtain ⟨answer, pattern, table⟩ := holds.lead (E := E) d none
    refine ⟨extend same answer, ?_⟩
    rw [List.map_append, Engine.alone_append]
    rw [← pattern] at table
    exact table
  | follow past ih => exact ⟨(ih nofun).1, rfl, (ih nofun).2.2⟩
  | reconcile past whole ih =>
    obtain ⟨same, holds⟩ := ih nofun
    refine ⟨same, ?_, fun side => ?_⟩
    · exact congrArg Pattern.dual holds.1
    · exact (whole.agree side).trans holds.2
  | swap past p dual ih => exact ⟨(ih nofun).1, dual, (ih nofun).2.2⟩
  | stay past p dual same ih =>
    obtain ⟨told, holds⟩ := ih nofun
    exact ⟨told, (congrArg _ same).trans holds⟩
  | stray => exact absurd rfl straight
  | leave past there ih =>
    rcases there with rfl | ⟨rfl, first⟩
    · exact ⟨(ih nofun).1, rfl, (ih nofun).2.2 .dst⟩
    · obtain ⟨same, holds⟩ := ih nofun
      refine ⟨same, rfl, ?_⟩
      have table := holds.primary
      rw [first] at table
      exact table

/-- Transparency: through all stages of a migration the application is told exactly what a single
database would have told it, if the primary does not change any more once a question has changed one of
two equal tables. -/
theorem transparent (passage : Passage E origin stage x told) (straight : stage ≠ .astray) :
    told = (E.alone (told.map (·.1)) (origin.tables .src)).1 := (passage.holds straight).1

theorem transparent_register :
    ∃ origin x told, Passage register origin .moved x told ∧
      told.map (·.1) = [.exec (deletion 9), .query listing, .exec (deletion 2), .query listing,
        .query (deletion 1), .query listing] ∧
      told = (register.alone (told.map (·.1)) (origin.tables .src)).1 := by
  let origin : Site := ⟨.start .srcOnly, Function.update Course.staleCopy .src
    ((Course.staleCopy .src).put ⟨9, 16, "video", 0, 0, 0, 5, 5⟩)⟩
  have single : origin.pattern = .srcOnly := rfl
  have early := (Passage.start (E := register) single).call (.exec (deletion 9)) none (fun _ => rfl) nofun
  have copied := early.follow.call (.query listing) (some (.backend "dst" "gone away")) nofun nofun
  obtain ⟨c, r, b, whole⟩ := Reconciliation.reconciliation_staleCopy
  have repaired := copied.reconcile (c := c) (r := r) (b := b) (by
    refine (congrArg (Reconciliation _ · _ c r _ b) ?_).mpr whole
    funext side
    cases side <;> rfl)
  have switched := (repaired.call (.exec (deletion 2)) none (fun _ => rfl) nofun).swap .dstFirst rfl
  have listed := switched.call (.query listing) none (fun _ => rfl) fun _ _ => rfl
  have parted := listed.part (.query (deletion 1)) rfl (by
    rw [Site.lead, (listed.holds (by decide)).2.primary]
    exact register_deletion rfl)
  have moved := parted.leave (.inr ⟨rfl, rfl⟩)
  have last := moved.call (.query listing) none (fun _ => rfl) fun level => absurd level (by decide)
  exact ⟨origin, _, _, last, rfl, last.transparent (by decide)⟩

/-- A deletion that is put to the source as a question does not reach the destination. Asked for the records
after the primary has changed, the router lists the one that was deleted. -/
theorem astray_register :
    ∃ origin x told, Passage register origin .astray x told ∧
      told.map (·.1) = [.query (deletion 2), .query listing] ∧
      told ≠ (register.alone (told.map (·.1)) (origin.tables .src)).1 := by
  let origin : Site := ⟨.start .srcOnly, Course.staleCopy⟩
  have single : origin.pattern = .srcOnly := rfl
  have copied := (Passage.start (E := register) single).follow
  obtain ⟨c, r, b, whole⟩ := Reconciliation.reconciliation_staleCopy
  have repaired := copied.reconcile whole
  have deleted := repaired.part (.query (deletion 2)) rfl (by
    rw [Site.lead, (repaired.holds (by decide)).2.primary]
    exact register_deletion rfl)
  have apart : Pattern.dstFirst.primary ≠ Pattern.srcFirst.primary := by decide
  have turned := deleted.stray .dstFirst (.inl ⟨rfl, apart⟩) rfl (by decide)
  have listed := turned.call (.query listing) none (fun _ => rfl) fun level => absurd level (by decide)
  refine ⟨origin, _, _, listed, rfl, fun same => ?_⟩
  change ([⟨.query (deletion 2), .ok []⟩, ⟨.query listing, .ok (b.tables .dst).toRows⟩] : List Entry) =
    [⟨.query (deletion 2), .ok []⟩, ⟨.query listing, .ok ((Course.staleCopy .src).erase 2).toRows⟩] at same
  rw [whole.agree] at same
  have rows := Except.ok.inj (eq_of_heq (Sigma.mk.inj (List.cons.inj (List.cons.inj same).2).1).2)
  exact absurd (congrArg List.length rows) (by decide)

end Passage
end Cutover.Migration
