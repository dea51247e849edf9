import Mathlib.Data.List.Forall2
import Cutover.Json.Record
import Cutover.Proofs.Json.Grammar
import Cutover.Proofs.Json.Numeral

/-! Records, names and integers in derived values. Which written forms a reader of them takes is said by the forms
alone: a record has each of its fields once, in its order or each under its name; a name is a string or an object;
an integer is a numeral. -/
namespace Cutover.Json

open Octet

namespace Derives

theorem body {s t : Octets} : Derives (.value (.string s)) t → Body s
  | .string body => body

theorem literal {s t : Octets} : Derives (.value (.number s)) t → Literal s
  | .number literal => literal

theorem of_padded {r : Raw} {s : Octets} : Derives (.padded r) s → ∃ t, Derives (.value r) t
  | .padded _ value _ => ⟨_, value⟩

theorem of_mem_items {rs : List Raw} {s : Octets} : Derives (.items rs) s → ∀ r ∈ rs, ∃ t, Derives (.value r) t
  | .item last => by
    intro r member
    rw [List.mem_singleton.mp member]
    exact last.of_padded
  | .items first others => by
    intro r member
    rcases List.mem_cons.mp member with rfl | later
    · exact first.of_padded
    · exact others.of_mem_items r later

theorem of_mem_members {ms : List (Octets × Raw)} {s : Octets} :
    Derives (.members ms) s → ∀ m ∈ ms, Body m.1 ∧ ∃ t, Derives (.value m.2) t
  | .member (.quoted _ body _) last => by
    intro m member
    rw [List.mem_singleton.mp member]
    exact ⟨body, last.of_padded⟩
  | .members (.quoted _ body _) first others => by
    intro m member
    rcases List.mem_cons.mp member with rfl | later
    · exact ⟨body, first.of_padded⟩
    · exact others.of_mem_members m later

theorem of_mem_array {rs : List Raw} {s : Octets} :
    Derives (.value (.array rs)) s → ∀ r ∈ rs, ∃ t, Derives (.value r) t
  | .emptyArray _ => nofun
  | .array held => held.of_mem_items

theorem of_mem_object {ms : List (Octets × Raw)} {s : Octets} :
    Derives (.value (.object ms)) s → ∀ m ∈ ms, Body m.1 ∧ ∃ t, Derives (.value m.2) t
  | .emptyObject _ => nofun
  | .object held => held.of_mem_members

end Derives

theorem int64?_numeral (n : Int64) : int64? (.number (numeral n.toInt)) = some n := by
  have low := n.le_toInt
  have high := n.toInt_lt
  simp only [int64?, int?, intOf_numeral, Option.bind_some]
  rw [if_pos (by omega), Int64.ofInt_toInt]

/-- An integer of 64 bits is written as its numeral and in no other way. -/
theorem int64?_eq_some_iff {r : Raw} {t : Octets} (derived : Derives (.value r) t) {n : Int64} :
    int64? r = some n ↔ r = .number (numeral n.toInt) := by
  constructor
  · intro found
    obtain ⟨m, named, fits⟩ := Option.bind_eq_some_iff.mp found
    obtain ⟨⟨low, high⟩, ⟨⟩⟩ := Option.ite_none_right_eq_some.mp fits
    cases r with
    | number s =>
      rw [Int64.toInt_ofInt_of_le low (by omega), ← numeral_of_intOf derived.literal named]
    | _ => cases named
  · rintro rfl
    exact int64?_numeral n

/-- The written forms of a name: a string, or an object that maps it to null. -/
inductive Names (name : String) : Raw → Prop
  | string {body : Octets} (means : Means body (Utf8.encode name)) : Names name (.string body)
  | object {key : Octets} (means : Means key (Utf8.encode name)) : Names name (.object [(key, .null)])

theorem choice?_eq_some_iff {r : Raw} {t : Octets} (derived : Derives (.value r) t) {name : String} :
    choice? r = some name ↔ Names name r := by
  constructor
  · intro found
    unfold choice? at found
    split at found
    next => exact .string ((textOf_eq_some_iff derived.body).mp found)
    next =>
      obtain ⟨body, -⟩ := derived.of_mem_object _ List.mem_cons_self
      exact .object ((textOf_eq_some_iff body).mp found)
    next => cases found
  · rintro (means | means)
    · exact (textOf_eq_some_iff means.body).mpr means
    · exact (textOf_eq_some_iff means.body).mpr means

/-- One member has the name, and no other has it. -/
def Once (members : List (Octets × Raw)) (name : String) (value : Raw) : Prop :=
  ∃ before key after, members = before ++ (key, value) :: after ∧ Means key (Utf8.encode name) ∧
    ∀ m ∈ before ++ after, ¬Means m.1 (Utf8.encode name)

/-- The fields of a record, in its order or each under its name, among others. -/
inductive Holds (names : List String) (values : List Raw) : Raw → Prop
  | array (all : values.length = names.length) : Holds names values (.array values)
  | object {members : List (Octets × Raw)} (named : ∀ m ∈ members, ∃ name, Means m.1 (Utf8.encode name))
      (once : List.Forall₂ (Once members) names values) : Holds names values (.object members)

/-- What a derived record holds is derived. -/
theorem Holds.derives {names : List String} {values : List Raw} {r : Raw} {t : Octets} (holds : Holds names values r)
    (derived : Derives (.value r) t) : ∀ v ∈ values, ∃ u, Derives (.value v) u := by
  cases holds with
  | array => exact derived.of_mem_array
  | @object members _ once =>
    intro v member
    have there : ∃ m ∈ members, m.2 = v := by
      induction once with
      | nil => cases member
      | cons first _ ih =>
        rcases List.mem_cons.mp member with rfl | later
        · obtain ⟨before, key, after, rfl, -⟩ := first
          exact ⟨_, List.mem_append_right _ List.mem_cons_self, rfl⟩
        · exact ih later
    obtain ⟨m, inside, rfl⟩ := there
    exact (derived.of_mem_object m inside).2

section Required

variable {fields : List Field} (required : ∀ f ∈ fields, f.presence = .required)
include required

theorem fromArray_eq_some_iff {items : List Raw} {found : List (Option Raw)} :
    fromArray items fields = some found ↔ items.length = fields.length ∧ found = items.map some := by
  induction fields generalizing items found with
  | nil => cases items <;> simp [fromArray, eq_comm]
  | cons f fields ih =>
    have later := @ih fun f member => required f (List.mem_cons_of_mem _ member)
    cases items with
    | nil => simp [fromArray, required f List.mem_cons_self]
    | cons r rs =>
      simp only [fromArray, Option.map_eq_some_iff, later, List.length_cons, Nat.add_right_cancel_iff, List.map_cons]
      constructor
      · rintro ⟨_, ⟨same, rfl⟩, rfl⟩
        exact ⟨same, rfl⟩
      · rintro ⟨same, rfl⟩
        exact ⟨_, ⟨same, rfl⟩, rfl⟩

theorem fromObject_eq_some_iff {members : List (String × Raw)} {found : List (Option Raw)} :
    fromObject members fields = some found ↔ ∃ values, found = values.map some ∧
      List.Forall₂ (fun f value => unique f.name members = some (some value)) fields values := by
  induction fields generalizing found with
  | nil =>
    constructor
    · rintro ⟨⟩
      exact ⟨[], rfl, .nil⟩
    · rintro ⟨_, rfl, ⟨⟩⟩
      rfl
  | cons f fields ih =>
    have later := @ih fun f member => required f (List.mem_cons_of_mem _ member)
    have must := required f List.mem_cons_self
    constructor
    · intro taken
      obtain ⟨one, there, going⟩ := Option.bind_eq_some_iff.mp taken
      obtain ⟨present, going⟩ := Option.ite_none_left_eq_some.mp going
      obtain ⟨others, rest, ⟨⟩⟩ := Option.bind_eq_some_iff.mp going
      obtain ⟨values, rfl, all⟩ := later.mp rest
      cases one with
      | none => exact absurd ⟨rfl, must⟩ present
      | some value => exact ⟨value :: values, rfl, .cons there all⟩
    · rintro ⟨_, rfl, all⟩
      obtain _ | ⟨there, rest⟩ := all
      rw [fromObject, there]
      simp [later.mpr ⟨_, rfl, rest⟩]

end Required

/-- The members of a name, before and after their names are read. -/
theorem filter_decodeKeys {ms : List (Octets × Raw)} {ns : List (String × Raw)} (decoded : decodeKeys ms = some ns)
    (name : String) : ns.filter (·.1 == name) =
      (ms.filter fun m => textOf m.1 == some name).map fun m => (name, m.2) := by
  induction ms generalizing ns with
  | nil =>
    cases decoded
    rfl
  | cons m ms ih =>
    obtain ⟨text, read, going⟩ := Option.bind_eq_some_iff.mp decoded
    obtain ⟨others, rest, ⟨⟩⟩ := Option.bind_eq_some_iff.mp going
    have later := ih rest
    by_cases same : text = name
    · subst same
      rw [List.filter_cons_of_pos (by simp), List.filter_cons_of_pos (by simp [read]), later]
      rfl
    · rw [List.filter_cons_of_neg (by simpa using same), List.filter_cons_of_neg (by simpa [read] using same), later]

theorem decodeKeys_isSome_iff {ms : List (Octets × Raw)} :
    (∃ ns, decodeKeys ms = some ns) ↔ ∀ m ∈ ms, ∃ name, textOf m.1 = some name := by
  induction ms with
  | nil => simp [decodeKeys]
  | cons m ms ih =>
    rw [List.forall_mem_cons, ← ih]
    constructor
    · rintro ⟨ns, decoded⟩
      obtain ⟨name, read, going⟩ := Option.bind_eq_some_iff.mp decoded
      obtain ⟨others, rest, -⟩ := Option.bind_eq_some_iff.mp going
      exact ⟨⟨name, read⟩, others, rest⟩
    · rintro ⟨⟨name, read⟩, others, rest⟩
      exact ⟨_, by rw [decodeKeys, read, rest]; rfl⟩

/-- One element passes, and it alone. -/
theorem filter_eq_singleton_iff {α : Type} {p : α → Bool} {l : List α} {a : α} : l.filter p = [a] ↔
    ∃ before after, l = before ++ a :: after ∧ p a = true ∧ ∀ b ∈ before ++ after, ¬p b = true := by
  simp only [List.filter_eq_cons_iff, List.filter_eq_nil_iff, List.forall_mem_append]
  constructor
  · rintro ⟨before, after, split, first, passes, last⟩
    exact ⟨before, after, split, passes, first, last⟩
  · rintro ⟨before, after, split, passes, first, last⟩
    exact ⟨before, after, split, first, passes, last⟩

theorem unique_eq_some_iff {ms : List (Octets × Raw)} {ns : List (String × Raw)} (bodies : ∀ m ∈ ms, Body m.1)
    (decoded : decodeKeys ms = some ns) {name : String} {value : Raw} :
    unique name ns = some (some value) ↔ Once ms name value := by
  have alone : unique name ns = some (some value) ↔
      ∃ key, ms.filter (fun m => textOf m.1 == some name) = [(key, value)] := by
    rw [unique, filter_decodeKeys decoded]
    generalize ms.filter (fun m => textOf m.1 == some name) = passed
    rcases passed with _ | ⟨⟨key, v⟩, _ | ⟨_, _⟩⟩ <;> simp [eq_comm]
  have means : ∀ m ∈ ms, (textOf m.1 == some name) = true ↔ Means m.1 (Utf8.encode name) := fun m member => by
    rw [beq_iff_eq, textOf_eq_some_iff (bodies m member)]
  rw [alone]
  constructor
  · rintro ⟨key, passed⟩
    obtain ⟨before, after, rfl, named, others⟩ := filter_eq_singleton_iff.mp passed
    refine ⟨before, key, after, rfl, (means _ (by simp)).mp named, fun m member => ?_⟩
    exact mt (means m (by simp at member ⊢; tauto)).mpr (others m member)
  · rintro ⟨before, key, after, rfl, named, others⟩
    refine ⟨key, filter_eq_singleton_iff.mpr ⟨before, after, rfl, (means _ (by simp)).mpr named, fun m member => ?_⟩⟩
    exact mt (means m (by simp at member ⊢; tauto)).mp (others m member)

/-- A record of required fields is read exactly from what holds them. -/
theorem record_eq_some_iff {fields : List Field} (required : ∀ f ∈ fields, f.presence = .required) {r : Raw}
    {t : Octets} (derived : Derives (.value r) t) {found : List (Option Raw)} :
    record fields r = some found ↔ ∃ values, found = values.map some ∧ Holds (fields.map (·.name)) values r := by
  cases r with
  | array items =>
    rw [record, fromArray_eq_some_iff required]
    constructor
    · rintro ⟨same, rfl⟩
      exact ⟨items, rfl, .array (by simpa using same)⟩
    · rintro ⟨_, rfl, ⟨same⟩⟩
      exact ⟨by simpa using same, rfl⟩
  | object members =>
    have bodies := fun m member => (derived.of_mem_object m member).1
    have names : (∃ ns, decodeKeys members = some ns) ↔ ∀ m ∈ members, ∃ name, Means m.1 (Utf8.encode name) := by
      rw [decodeKeys_isSome_iff]
      exact forall₂_congr fun m member => exists_congr fun name => textOf_eq_some_iff (bodies m member)
    constructor
    · intro taken
      obtain ⟨ns, decoded, taken⟩ := Option.bind_eq_some_iff.mp taken
      obtain ⟨values, rfl, all⟩ := (fromObject_eq_some_iff required).mp taken
      refine ⟨values, rfl, .object (names.mp ⟨ns, decoded⟩) ?_⟩
      rw [List.forall₂_map_left_iff]
      exact all.imp fun _ _ => (unique_eq_some_iff bodies decoded).mp
    · rintro ⟨values, rfl, _ | ⟨named, once⟩⟩
      obtain ⟨ns, decoded⟩ := names.mpr named
      rw [List.forall₂_map_left_iff] at once
      have taken := (fromObject_eq_some_iff required).mpr
        ⟨values, rfl, once.imp fun _ _ => (unique_eq_some_iff bodies decoded).mpr⟩
      rw [record, decoded]
      exact taken
  | _ =>
    constructor
    · rintro ⟨⟩
    · rintro ⟨_, _, ⟨⟩⟩

end Cutover.Json
