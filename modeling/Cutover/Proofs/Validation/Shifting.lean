import Cutover.Proofs.Validation.Walk

/-! A walk in the order of the keys, while records are inserted and updated. An insertion moves the records
behind it away from the start, so that some are returned again; none of those that were there comes to lie
behind the pass without having been returned. -/
namespace Cutover

/-- What is at the start of a list was there before others were put between. -/
theorem mem_take_of_sublist {α : Type} {old new : List α} (sublist : old.Sublist new) (distinct : new.Nodup)
    {x : α} (member : x ∈ old) {k : Nat} (early : x ∈ new.take k) : x ∈ old.take k := by
  induction sublist generalizing k with
  | slnil => exact early
  | @cons old new a sublist ih =>
    obtain ⟨apart, distinct⟩ := List.nodup_cons.1 distinct
    cases k with
    | zero => simp at early
    | succ k =>
      have other : x ≠ a := fun same => apart (same ▸ sublist.subset member)
      have later : x ∈ new.take k := (List.mem_cons.1 early).resolve_left other
      exact List.take_subset_take_left old k.le_succ (ih distinct member later)
  | @cons_cons old new a sublist ih =>
    obtain ⟨-, distinct⟩ := List.nodup_cons.1 distinct
    cases k with
    | zero => simp at early
    | succ k =>
      by_cases first : x = a
      · exact first ▸ List.mem_cons_self
      · have before := (List.mem_cons.1 member).resolve_left first
        have later := (List.mem_cons.1 early).resolve_left first
        exact List.mem_cons_of_mem a (ih distinct before later)

namespace Table

variable {old new : Table}

/-- Records are inserted and updated, and none goes away. -/
def Retains (old new : Table) : Prop := ∀ r ∈ old.rows, (new.get? r.id).isSome = true

instance : DecidableRel Retains := fun old new =>
  inferInstanceAs (Decidable (∀ r ∈ old.rows, (new.get? r.id).isSome = true))

theorem retains_put (t : Table) (r : Interactive) : t.Retains (t.put r) := by
  intro old member
  rw [get?_put]
  split
  · rfl
  · rw [t.get?_of_mem member]
    rfl

theorem Retains.ids_subset (retains : old.Retains new) : old.rows.map (·.id) ⊆ new.rows.map (·.id) := by
  intro id member
  obtain ⟨r, there, rfl⟩ := List.mem_map.1 member
  obtain ⟨now, found⟩ := Option.isSome_iff_exists.1 (retains r there)
  obtain ⟨here, same⟩ := (new.get?_eq_some_iff _ _).1 found
  exact List.mem_map.2 ⟨now, here, same⟩

theorem Retains.ids_sublist (retains : old.Retains new) :
    (old.rows.map (·.id)).Sublist (new.rows.map (·.id)) := by
  have ordered (t : Table) : (t.rows.map (·.id)).Pairwise (· < ·) := List.pairwise_map.2 t.ordered
  exact List.sublist_of_subperm_of_pairwise (List.subperm_of_subset old.nodup_ids retains.ids_subset)
    (ordered old) (ordered new)

end Table

namespace Validation

theorem Pass.extent_of_full {s : Settings} (full : s.mode = .full) (t : Tables) (p : Pass) :
    s.extent t p.kind = (t (p.scanned s)).rows := by
  cases kind : p.kind <;> simp only [scanned, Settings.extent, kind, full]

namespace Walk

variable {s : Settings} {t : Tables} {x y : Walk} {early : List Int64}

/-- The records that were there early are still there, and have been returned once they lie behind the pass. -/
structure Gapless (s : Settings) (early : List Int64) (x : Walk) : Prop where
  tidy : x.Tidy
  there : early ⊆ (x.tables (x.pass.scanned s)).rows.map (·.id)
  met : ∀ id ∈ early, id ∈ (x.pass.behind s x.tables).map (·.id) → id ∈ x.returned.map (·.id)

theorem gapless_start (s : Settings) (t : Tables) (kind : Kind) :
    (start t kind).Gapless s ((t ((Pass.start kind).scanned s)).rows.map (·.id)) where
  tidy := tidy_start t kind
  there := List.Subset.refl _
  met := by simp [start, Pass.behind, Pass.passed, Pass.start]

theorem Gapless.turn (full : s.mode = .full) (gapless : x.Gapless s early)
    (turn : Turn s Table.Retains x y) : y.Gapless s early := by
  have tidy := gapless.tidy.turn turn
  cases turn with
  | @incident i q fine step =>
    refine ⟨tidy, ?_, fun id there member => ?_⟩
    · rw [after, Pass.scanned_of_response step]
      exact gapless.there
    · have before := ((Pass.behind_advance step).map (·.id)).subset member
      rw [List.map_append, List.mem_append] at before
      simp only [after, List.map_append, List.mem_append]
      exact before.imp_left (gapless.met id there)
  | @change table retains =>
    refine ⟨tidy, ?_, fun id there member => gapless.met id there ?_⟩
    · simpa only [Function.update_self] using List.Subset.trans gapless.there retains.ids_subset
    · simp only [Pass.behind, Pass.extent_of_full full, Function.update_self, List.map_take] at member ⊢
      exact mem_take_of_sublist retains.ids_sublist table.nodup_ids (gapless.there there) member
  | edit same =>
    refine ⟨tidy, ?_, fun id there member => gapless.met id there ?_⟩
    · simpa only [same] using gapless.there
    · rwa [Pass.behind_congr same] at member

/-- However many records are inserted and updated while a pass of a full comparison walks through them: by
the time a scan returns nothing, each record that was there at the start has been returned and looked up. -/
theorem every_record_met {kind : Kind} {moves : List Move} (full : s.mode = .full)
    (positive : 1 ≤ s.batchSize) (run : (start t kind).follow s Table.Retains moves = some x)
    (exhausted : x.pass.Exhausted s x.tables) :
    ∀ r ∈ (t ((Pass.start kind).scanned s)).rows, r.id ∈ x.returned.map (·.id) ∧ r.id ∈ x.lookedUp := by
  have gapless := (follows s Table.Retains).invariant
    (fun _ _ _ _ gapless step => Gapless.turn full gapless (turn_of_advance step)) (gapless_start s t kind) run
  intro r member
  have early := List.mem_map_of_mem (f := (·.id)) member
  have returned : r.id ∈ x.returned.map (·.id) := by
    apply gapless.met r.id early
    rw [exhausted.behind_eq positive, Pass.extent_of_full full]
    exact gapless.there early
  exact ⟨returned, gapless.tidy.lookedUp_eq exhausted ▸ returned⟩

def record (id count utime : Int64) : Interactive := ⟨id, 10, "article", count, 0, 0, utime, 20⟩

/-- Both stores have three records. -/
def evens : Tables := fun _ => ⟨[record 2 0 10, record 4 0 10, record 6 0 10], by decide⟩

def inPairs : Settings := .whole .src { Tuning.standard with batchSize := 2 }

/-- A record is put in front after the first two were returned, and the second of these is updated. -/
def shifting : List Move :=
  let inserted := (evens .src).put (record 1 0 20)
  [.incident .answered, .change inserted, .incident .answered, .change (inserted.put (record 4 7 30)),
    .incident .answered, .incident .answered, .incident (.published ⟨4, .src, .neq⟩ true)]

theorem every_record_met_shifting :
    ∃ x, (start evens .baseToTarget).follow inPairs Table.Retains shifting = some x ∧
      x.pass.Exhausted inPairs x.tables ∧ x.returned.map (·.id) = [2, 4, 4, 6] ∧
      ∀ r ∈ (evens .src).rows, r.id ∈ x.returned.map (·.id) ∧ r.id ∈ x.lookedUp := by
  have reached : ((start evens .baseToTarget).follow inPairs Table.Retains shifting).map
      (fun x => (x.pass, (x.tables .src).rows.length, x.returned.map (·.id))) =
      some (⟨.baseToTarget, 4, 0, .scanning⟩, 4, [2, 4, 4, 6]) := rfl
  obtain ⟨x, run, known⟩ := Option.map_eq_some_iff.1 reached
  simp only [Prod.mk.injEq] at known
  obtain ⟨pass, rows, returned⟩ := known
  have exhausted : x.pass.Exhausted inPairs x.tables := by
    refine Pass.exhausted_of_length_le (by rw [pass]) ?_
    rw [Pass.extent_of_full rfl, pass]
    exact rows.le
  exact ⟨x, run, exhausted, returned, every_record_met rfl (by decide) run exhausted⟩

end Walk
end Validation
end Cutover
