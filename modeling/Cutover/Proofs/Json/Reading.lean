import Cutover.Proofs.Json.Grammar
import Cutover.Proofs.Json.Numeral

/-! Texts of values, read back. The text of any value without floats is read as its own written form,
with nothing left over. -/
namespace Cutover.Json

open Octet

mutual

/-- The form in which a value is written. -/
def written : Json → Raw
  | .null => .null
  | .bool b => .bool b
  | .int n => .number (numeral n)
  | .float x => .number (octets (floatText x).toList)
  | .string s => .string (body s)
  | .array items => .array (writtenItems items)
  | .object members => .object (writtenMembers members)

def writtenItems : List Json → List Raw
  | [] => []
  | item :: rest => written item :: writtenItems rest

def writtenMembers : List (String × Json) → List (Octets × Raw)
  | [] => []
  | (name, value) :: rest => (body name, written value) :: writtenMembers rest

end

mutual

/-- Whether a value is free of floats. -/
def floatless : Json → Bool
  | .null | .bool _ | .int _ | .string _ => true
  | .float _ => false
  | .array items => floatlessItems items
  | .object members => floatlessMembers members

def floatlessItems : List Json → Bool
  | [] => true
  | item :: rest => floatless item && floatlessItems rest

def floatlessMembers : List (String × Json) → Bool
  | [] => true
  | (_, value) :: rest => floatless value && floatlessMembers rest

end

theorem octets_quotedText (s : String) : octets (quotedText s) = quote :: (body s ++ [quote]) := by
  rw [quotedText, octets_append, octets_cons]
  rfl

theorem blank_nil : Blank [] := nofun

/-- Nothing need stand before or behind a value. -/
theorem Derives.bare {r : Raw} {s : Octets} (value : Derives (.value r) s) : Derives (.padded r) s := by
  simpa using value.padded blank_nil blank_nil

theorem named_body (s : String) : Named (body s) (octets (quotedText s)) := by
  rw [octets_quotedText]
  exact .quoted blank_nil (means_body s).body blank_nil

mutual

theorem derives_compact : ∀ (j : Json), j.floatless = true →
    Derives (.value (written j)) (octets (compact j))
  | .null, _ => .null
  | .bool true, _ => .true
  | .bool false, _ => .false
  | .int n, _ => .number (literal_numeral n)
  | .string s, _ => by
    rw [compact, octets_quotedText]
    exact .string (means_body s).body
  | .array [], _ => .emptyArray blank_nil
  | .array (item :: items), exact => by
    obtain ⟨this, others⟩ := Bool.and_eq_true_iff.1 exact
    obtain ⟨s, derived, shape⟩ := derives_items items others (derives_compact item this).bare
    have text : octets (compact (.array (item :: items))) = openBracket :: (s ++ [closeBracket]) := by
      rw [← shape, ← octets_append]
      rfl
    rw [text]
    exact .array derived
  | .object [], _ => .emptyObject blank_nil
  | .object ((name, value) :: members), exact => by
    obtain ⟨this, others⟩ := Bool.and_eq_true_iff.1 exact
    obtain ⟨s, derived, shape⟩ := derives_members members others (named_body name) (derives_compact value this).bare
    have text : octets (compact (.object ((name, value) :: members))) = openBrace :: (s ++ [closeBrace]) := by
      simp only [← shape, compact, octets_append, octets_cons, List.append_assoc]
      rfl
    rw [text]
    exact .object derived

/-- The items of an array, the first of them written already. -/
theorem derives_items : ∀ (items : List Json), floatlessItems items = true → ∀ {r : Raw} {s : Octets},
    Derives (.padded r) s → ∃ t, Derives (.items (r :: writtenItems items)) t ∧
      s ++ octets (compactItems items) = t ++ [closeBracket]
  | [], _, _, s, first => ⟨s, .item first, rfl⟩
  | item :: items, exact, _, s, first => by
    obtain ⟨this, others⟩ := Bool.and_eq_true_iff.1 exact
    obtain ⟨t, more, shape⟩ := derives_items items others (derives_compact item this).bare
    refine ⟨s ++ comma :: t, .items first more, ?_⟩
    rw [List.append_assoc, List.cons_append, ← shape, ← octets_append]
    rfl

/-- The members of an object, the first of them written already. -/
theorem derives_members : ∀ (members : List (String × Json)), floatlessMembers members = true →
    ∀ {key k s : Octets} {r : Raw}, Named key k → Derives (.padded r) s →
      ∃ t, Derives (.members ((key, r) :: writtenMembers members)) t ∧
        k ++ colon :: (s ++ octets (compactMembers members)) = t ++ [closeBrace]
  | [], _, _, k, s, _, name, first =>
    ⟨k ++ colon :: s, .member name first, by rw [List.append_assoc]; rfl⟩
  | (next, value) :: members, exact, _, k, s, _, name, first => by
    obtain ⟨this, others⟩ := Bool.and_eq_true_iff.1 exact
    obtain ⟨t, more, shape⟩ := derives_members members others (named_body next) (derives_compact value this).bare
    refine ⟨k ++ colon :: (s ++ comma :: t), .members name first more, ?_⟩
    simp only [List.append_assoc, List.cons_append, ← shape, compactMembers, octets_append, octets_cons]
    rfl

end

/-- The text of a value is read as its written form. -/
theorem read_text {j : Json} (exact : j.floatless = true) :
    Raw.read (Utf8.encode j.text) = some (written j) := by
  rw [Json.text, encode_ofList]
  exact Raw.read_eq_some_iff.mpr (derives_compact j exact).bare

end Cutover.Json
