import Mathlib.Data.String.Basic
import Cutover.Json.Record
import Cutover.Proofs.Json.Reading

/-! Values and records recovered from the form in which they are written. A value within the bounds of
what is kept comes back whole, and a record that was written as an object is found field by field. -/
namespace Cutover.Json

mutual

/-- How deep arrays and objects are nested. -/
def depth : Json → Nat
  | .null | .bool _ | .int _ | .float _ | .string _ => 0
  | .array items => depthItems items + 1
  | .object members => depthMembers members + 1

def depthItems : List Json → Nat
  | [] => 0
  | item :: rest => max (depth item) (depthItems rest)

def depthMembers : List (String × Json) → Nat
  | [] => 0
  | (_, value) :: rest => max (depth value) (depthMembers rest)

end

mutual

/-- Every number is an integer that fits a word of 64 bits, signed or not, and the members of every
object stand in the order of their names, no name twice. -/
def Proper : Json → Prop
  | .null | .bool _ | .string _ => True
  | .int n => -0x8000000000000000 ≤ n ∧ n < 0x10000000000000000
  | .float _ => False
  | .array items => ProperItems items
  | .object members => (members.map (·.1)).Pairwise (· < ·) ∧ ProperMembers members

def ProperItems : List Json → Prop
  | [] => True
  | item :: rest => Proper item ∧ ProperItems rest

def ProperMembers : List (String × Json) → Prop
  | [] => True
  | (_, value) :: rest => Proper value ∧ ProperMembers rest

end

mutual

theorem floatless_of_proper : ∀ {j : Json}, j.Proper → j.floatless = true
  | .null, _ | .bool _, _ | .int _, _ | .string _, _ => rfl
  | .array _, proper => floatlessItems_of_proper proper
  | .object _, proper => floatlessMembers_of_proper proper.2

theorem floatlessItems_of_proper : ∀ {items : List Json}, ProperItems items → floatlessItems items = true
  | [], _ => rfl
  | _ :: _, proper =>
    Bool.and_eq_true_iff.2 ⟨floatless_of_proper proper.1, floatlessItems_of_proper proper.2⟩

theorem floatlessMembers_of_proper : ∀ {members : List (String × Json)},
    ProperMembers members → floatlessMembers members = true
  | [], _ => rfl
  | (_, _) :: _, proper =>
    Bool.and_eq_true_iff.2 ⟨floatless_of_proper proper.1, floatlessMembers_of_proper proper.2⟩

end

theorem ofNumber_numeral {n : Int} (fits : -0x8000000000000000 ≤ n ∧ n < 0x10000000000000000) :
    ofNumber (numeral n) = some (.int n) := by
  simp only [ofNumber, intOf_numeral, if_pos fits]

/-- A member goes behind all those of smaller names. -/
theorem insert_last {name : String} {value : Json} {found : List (String × Json)}
    (last : ∀ m ∈ found, m.1 < name) : insert name value found = found ++ [(name, value)] := by
  induction found with
  | nil => rfl
  | cons m rest ih =>
    obtain ⟨n, v⟩ := m
    have below : n < name := last (n, v) List.mem_cons_self
    rw [insert, if_neg (lt_asymm below), if_neg below.ne', ih fun m member =>
      last m (List.mem_cons_of_mem _ member), List.cons_append]

mutual

theorem ofRaw_written : ∀ (j : Json) (limit : Nat), j.Proper → j.depth ≤ limit →
    ofRaw limit (written j) = some j
  | .null, _, _, _ | .bool _, _, _, _ => by simp [written, ofRaw]
  | .int n, _, proper, _ => by
    rw [written, ofRaw]
    exact ofNumber_numeral proper
  | .string s, _, _, _ => by simp [written, ofRaw]
  | .array items, 0, _, shallow => absurd shallow (Nat.not_succ_le_zero _)
  | .array items, limit + 1, proper, shallow => by
    rw [written, ofRaw, ofItems_written items limit proper (Nat.le_of_succ_le_succ shallow)]
    rfl
  | .object members, 0, _, shallow => absurd shallow (Nat.not_succ_le_zero _)
  | .object members, limit + 1, proper, shallow => by
    rw [written, ofRaw, ofMembers_written members [] limit proper.1 proper.2
      (Nat.le_of_succ_le_succ shallow)]
    rfl

theorem ofItems_written : ∀ (items : List Json) (limit : Nat), ProperItems items →
    depthItems items ≤ limit → ofItems limit (writtenItems items) = some items
  | [], _, _, _ => rfl
  | item :: rest, limit, proper, shallow => by
    obtain ⟨first, others⟩ := max_le_iff.1 shallow
    rw [writtenItems, ofItems, ofRaw_written item limit proper.1 first,
      ofItems_written rest limit proper.2 others]
    rfl

/-- Members in the order of their names go one behind the other. -/
theorem ofMembers_written : ∀ (members found : List (String × Json)) (limit : Nat),
    ((found ++ members).map (·.1)).Pairwise (· < ·) → ProperMembers members →
    depthMembers members ≤ limit → ofMembers limit (writtenMembers members) found = some (found ++ members)
  | [], found, _, _, _, _ => by rw [writtenMembers, ofMembers, List.append_nil]
  | (name, value) :: rest, found, limit, sorted, proper, shallow => by
    obtain ⟨first, others⟩ := max_le_iff.1 shallow
    have last : ∀ m ∈ found, m.1 < name := by
      rw [List.map_append] at sorted
      intro m member
      exact (List.pairwise_append.1 sorted).2.2 m.1 (List.mem_map_of_mem member) name (by simp)
    have grown : found ++ (name, value) :: rest = found ++ [(name, value)] ++ rest := by simp
    rw [grown] at sorted ⊢
    rw [writtenMembers, ofMembers, textOf_body, ofRaw_written value limit proper.1 first]
    simp only [Option.bind_eq_bind, Option.bind_some, insert_last last]
    exact ofMembers_written rest _ limit sorted proper.2 others

end

theorem decodeKeys_written (members : List (String × Json)) :
    decodeKeys (writtenMembers members) = some (members.map fun m => (m.1, written m.2)) := by
  induction members with
  | nil => rfl
  | cons m rest ih => simp [writtenMembers, decodeKeys, ih]

theorem unique_of_mem {members : List (String × Raw)} {name : String} {value : Raw}
    (distinct : (members.map (·.1)).Nodup) (member : (name, value) ∈ members) :
    unique name members = some (some value) := by
  have alone : members.filter (·.1 == name) = [(name, value)] := by
    induction members with
    | nil => cases member
    | cons m rest ih =>
      obtain ⟨apart, distinct⟩ := List.nodup_cons.1 distinct
      rcases List.mem_cons.1 member with rfl | later
      · have others : rest.filter (·.1 == name) = [] := by
          rw [List.filter_eq_nil_iff]
          intro other there same
          exact apart (List.mem_map.2 ⟨other, there, by simpa using same⟩)
        rw [List.filter_cons_of_pos (by simp), others]
      · have differ : m.1 ≠ name := by
          rintro rfl
          exact apart (List.mem_map.2 ⟨_, later, rfl⟩)
        rw [List.filter_cons_of_neg (by simpa using differ), ih distinct later]
  rw [unique, alone]

theorem fromObject_of_subset {all members : List (String × Raw)} {fields : List Field}
    (distinct : (all.map (·.1)).Nodup) (subset : members ⊆ all)
    (names : fields.map (·.name) = members.map (·.1)) :
    fromObject all fields = some (members.map fun m => some m.2) := by
  induction fields generalizing members with
  | nil =>
    obtain rfl : members = [] := by simpa using names.symm
    rfl
  | cons field fields ih =>
    obtain _ | ⟨m, rest⟩ := members
    · cases names
    obtain ⟨same, names⟩ := List.cons.inj names
    have named : field.name = m.1 := same
    rw [fromObject, named, unique_of_mem distinct (subset List.mem_cons_self)]
    simp [ih (List.subset_of_cons_subset subset) names]

/-- A record is found in the object that was written for it. -/
theorem record_written {fields : List Field} {members : List (String × Json)}
    (names : fields.map (·.name) = members.map (·.1)) (distinct : (fields.map (·.name)).Nodup) :
    record fields (written (.object members)) = some (members.map fun m => some (written m.2)) := by
  have keys : (members.map fun m => (m.1, written m.2)).map (·.1) = members.map (·.1) := by
    simp [Function.comp_def]
  rw [names, ← keys] at distinct
  have found := fromObject_of_subset distinct (List.Subset.refl _) (names.trans keys.symm)
  simp only [written, record, decodeKeys_written, Option.bind_eq_bind, Option.bind_some, found,
    List.map_map, Function.comp_def]

end Cutover.Json
