import Cutover.Proofs.Store.Meaning
import Cutover.Rehearsal.Storage

/-! A store in memory from the day it is filled, whatever is done to it. What it holds is set beside a map that
writes the keys out: there a record is put under some key, and only what is done decides whether that is its own.
An upsert goes the way through rows and comes back as a record, of which the named columns are new. -/
namespace Cutover.Table

/-- A table in which a record has been merged: under other keys nothing has changed, where there was none the
record is as it came, and where there was one its named columns are overwritten. -/
structure Merged (columns : List String) (e : Interactive) (before after : Table) : Prop where
  others : ∀ id, id ≠ e.id → after.get? id = before.get? id
  fresh : before.get? e.id = none → after.get? e.id = some e
  known : ∀ old, before.get? e.id = some old → after.get? e.id = some (Interactive.mix (named columns) e old)

variable (t : Table) (e : Interactive) (columns : List String)

/-- No list of columns makes an upsert fail. -/
theorem upsert_eq :
    t.upsert e columns = .ok (t.put (Interactive.mix (named columns) e ((t.get? e.id).getD e))) := by
  simp only [upsert, Option.getD_map, merged_toRow, Interactive.ofRow_toRow]

/-- Whether the key is named or not, it stays what it was. -/
theorem id_mix : (Interactive.mix (named columns) e ((t.get? e.id).getD e)).id = e.id := by
  have same : ((t.get? e.id).getD e).id = e.id := by
    cases found : t.get? e.id with
    | none => rfl
    | some old => exact id_of_get? found
  simp [Interactive.mix, same]

theorem merged_put : Merged columns e t (t.put (Interactive.mix (named columns) e ((t.get? e.id).getD e))) := by
  have key := t.id_mix e columns
  constructor
  · intro id other
    rw [get?_put, key, if_neg (Ne.symm other)]
  · intro absent
    rw [get?_put, if_pos key, absent, Option.getD_none, Interactive.mix_self]
  · intro old there
    rw [get?_put, if_pos key, there, Option.getD_some]

end Cutover.Table

namespace Cutover.Rehearsal

namespace Site

/-- The store after a step, which may be a request or something done behind the backs of those who ask. -/
def after (s : Site) : Storage.Step → Site
  | .request q => ((s.tally q).answer q).2
  | .upkeep u => (u.apply s).2

@[simp] theorem table_tally (s : Site) (q : Store.Request) : (s.tally q).table = s.table := by
  rw [tally]
  split <;> rfl

@[simp] theorem failing_tally (s : Site) (q : Store.Request) : (s.tally q).failing = s.failing := by
  rw [tally]
  split <;> rfl

theorem answer_failing {s : Site} (failing : s.failing = true) (q : Store.Request) :
    s.answer q = (.error (.unavailable s.name), s) := by
  rw [answer, if_pos failing]

theorem answer_serving {s : Site} (serving : s.failing = false) (q : Store.Request) :
    s.answer q = ((s.table.perform q).1, { s with table := (s.table.perform q).2 }) := by
  rw [answer, serving]
  rfl

end Site

/-- Records under keys. -/
structure Shelf where
  failing : Bool
  kept : Int64 → Option Interactive

namespace Shelf

def set (s : Shelf) (key : Int64) (held : Option Interactive) : Shelf :=
  { s with kept := Function.update s.kept key held }

/-- Each record goes under its own key as it comes; a later one of the same key takes the place of an earlier. -/
def ofList (rows : List Interactive) : Shelf := rows.foldl (fun s e => s.set e.id (some e)) ⟨false, fun _ => none⟩

/-- An upsert looks under the key of the record that came in, and puts what was made of both under the key that
this has. -/
def upsert (s : Shelf) (e : Interactive) (columns : List String) : Shelf :=
  match Interactive.ofRow (Table.merged columns (((s.kept e.id).map (·.toRow)).getD e.toRow) e.toRow) with
  | .ok record => s.set record.id (some record)
  | .error _ => s

def after (s : Shelf) : Storage.Step → Shelf
  | .upkeep (.put e) => s.set e.id (some e)
  | .upkeep (.remove id) => s.set id none
  | .upkeep (.failing on) => { s with failing := on }
  | .request (.upsert e columns) => if s.failing then s else s.upsert e columns
  | .request (.delete id) => if s.failing then s else s.set id none
  | _ => s

/-- The store has under each key what the map has. -/
structure Matches (s : Shelf) (site : Site) : Prop where
  failing : s.failing = site.failing
  kept : ∀ id, s.kept id = site.table.get? id

variable {s : Shelf} {site : Site}

theorem Matches.put (same : s.Matches site) (e : Interactive) :
    (s.set e.id (some e)).Matches { site with table := site.table.put e } := by
  refine ⟨same.failing, fun id => ?_⟩
  simp only [set, Function.update_apply, same.kept, Table.get?_put, eq_comm]

theorem Matches.erase (same : s.Matches site) (key : Int64) :
    (s.set key none).Matches { site with table := site.table.erase key } := by
  refine ⟨same.failing, fun id => ?_⟩
  simp only [set, Function.update_apply, same.kept, Table.get?_erase, eq_comm]

theorem matches_ofList (name : String) (rules : List Rule) (rows : List Interactive) :
    (ofList rows).Matches (.ofTable name (.ofList rows) rules) := by
  have filled (s : Shelf) (t : Table) (same : s.Matches (.ofTable name t rules)) :
      (rows.foldl (fun s e => s.set e.id (some e)) s).Matches (.ofTable name (rows.foldl Table.put t) rules) := by
    induction rows generalizing s t with
    | nil => exact same
    | cons e rest ih => exact ih _ _ (same.put e)
  exact filled _ _ ⟨rfl, fun _ => rfl⟩

theorem Matches.upsert (same : s.Matches site) (e : Interactive) (columns : List String) :
    (s.upsert e columns).Matches { site with table := (site.table.perform (.upsert e columns)).2 } := by
  have placed := same.put (Interactive.mix (Table.named columns) e ((site.table.get? e.id).getD e))
  simpa only [Shelf.upsert, same.kept, Option.getD_map, Table.merged_toRow, Interactive.ofRow_toRow, Table.perform,
    Table.upsert_eq] using placed

/-- What a step does to the store it does to the map. -/
theorem Matches.after (same : s.Matches site) (step : Storage.Step) :
    (s.after step).Matches (site.after step) := by
  cases step with
  | upkeep u =>
    cases u with
    | put e => exact same.put e
    | remove id => exact same.erase id
    | failing on => exact ⟨rfl, same.kept⟩
    | get | all | size | latency | served | name => exact ⟨same.failing, same.kept⟩
  | request q =>
    have counted : s.Matches (site.tally q) := ⟨by simp [same.failing], by simp [same.kept]⟩
    rw [Site.after]
    cases failing : (site.tally q).failing with
    | true =>
      have failing' : s.failing = true := counted.failing.trans failing
      have refused : s.after (.request q) = s := by
        cases q <;> simp [Shelf.after, failing']
      rw [Site.answer_failing failing, refused]
      exact counted
    | false =>
      rw [Site.answer_serving failing]
      have serving : s.failing = false := counted.failing.trans failing
      cases q with
      | upsert e columns =>
        rw [Shelf.after, serving]
        exact counted.upsert e columns
      | delete id =>
        rw [Shelf.after, serving]
        exact counted.erase id
      | columns | orderedById | updatedSince | byIds | presentIds | byId => exact counted

theorem Matches.run (same : s.Matches site) (steps : List Storage.Step) :
    (steps.foldl Shelf.after s).Matches (steps.foldl Site.after site) := by
  induction steps generalizing s site with
  | nil => exact same
  | cons step rest ih => exact ih (same.after step)

end Shelf

namespace Site

/-- Whatever was done to a store since it was filled, it holds what the map holds that has gone through the same,
and each record there is under its own key. From there any upsert that is served succeeds and merges exactly the
named columns. -/
theorem merges_named (name : String) (rules : List Rule) (rows : List Interactive) (steps : List Storage.Step) :
    let shelf := steps.foldl Shelf.after (.ofList rows)
    let site := steps.foldl after (.ofTable name (.ofList rows) rules)
    (∀ id, shelf.kept id = site.table.get? id) ∧ (∀ id e, shelf.kept id = some e → e.id = id) ∧
      ∀ e columns, site.failing = false → (site.answer (.upsert e columns)).1 = .ok () ∧
        site.table.Merged columns e (site.answer (.upsert e columns)).2.table := by
  intro shelf site
  have same : shelf.Matches site := (Shelf.matches_ofList name rules rows).run steps
  refine ⟨same.kept, fun id e held => ?_, fun e columns serving => ?_⟩
  · rw [same.kept] at held
    exact Table.id_of_get? held
  · have performed := site.table.upsert_eq e columns
    rw [answer_serving serving]
    simp only [Table.perform, performed]
    exact ⟨trivial, site.table.merged_put e columns⟩

/-- A record is put by hand, a write is refused and another row deleted; then one column of the record is named
twice in other spellings, beside the key and a column that nobody has. -/
theorem merges_named_respelt :
    let steps : List Storage.Step := [.upkeep (.put ⟨2, 11, "video", 0, 0, 0, 30, 30⟩), .upkeep (.failing true),
      .request (.upsert ⟨2, 0, "", 9, 9, 9, 9, 9⟩ Interactive.columns), .upkeep (.failing false), .request (.delete 1)]
    let site := steps.foldl after (.ofTable "dst" (.ofList [⟨1, 10, "article", 5, 1, 0, 90, 20⟩]) [])
    let e : Interactive := ⟨2, 12, "image", 7, 8, 0, 60, 40⟩
    let columns := ["Id", "extra", "LIKE_CNT", "like_cnt"]
    site.failing = false ∧ site.table.get? 2 = some ⟨2, 11, "video", 0, 0, 0, 30, 30⟩ ∧
      (site.answer (.upsert e columns)).1 = .ok () ∧
        (site.answer (.upsert e columns)).2.table.get? 2 = some ⟨2, 11, "video", 0, 8, 0, 30, 30⟩ := by
  intro steps site e columns
  have serving : site.failing = false := by decide
  have there : site.table.get? e.id = some ⟨2, 11, "video", 0, 0, 0, 30, 30⟩ := by decide
  obtain ⟨-, -, merges⟩ := merges_named "dst" [] [⟨1, 10, "article", 5, 1, 0, 90, 20⟩] steps
  obtain ⟨answered, merged⟩ := merges e columns serving
  exact ⟨serving, there, answered, merged.known _ there⟩

end Site
end Cutover.Rehearsal
