import Mathlib.Data.List.Basic
import Cutover.Json.Value
import Cutover.Proofs.Json.Strings

/-! Texts written between quotes. Every character is written as it is, by a letter after a backslash or by its
number, and means itself, so that a text comes out of its quotes as it went in. -/
namespace Cutover.Json

open Octet

/-- The octets of a run of characters. -/
def octets (cs : List Char) : Octets := cs.flatMap String.utf8EncodeChar

@[simp] theorem octets_nil : octets [] = [] := rfl

@[simp] theorem octets_cons (c : Char) (cs : List Char) :
    octets (c :: cs) = String.utf8EncodeChar c ++ octets cs := rfl

@[simp] theorem octets_append (cs ds : List Char) : octets (cs ++ ds) = octets cs ++ octets ds :=
  List.flatMap_append

theorem encode_ofList (cs : List Char) : Utf8.encode (String.ofList cs) = octets cs := by
  simp [Utf8.encode, List.utf8Encode, octets]

theorem utf8EncodeChar_ascii {c : Char} (low : c.toNat < 0x80) :
    String.utf8EncodeChar c = [UInt8.ofNat c.toNat] := by
  have : c.val.toNat ≤ 0x7f := Nat.le_of_lt_succ low
  rw [String.utf8EncodeChar]
  exact if_pos this

theorem le_ofNat {n : Nat} (high : 0x80 ≤ n) (octet : n < 0x100) : 0x80 ≤ UInt8.ofNat n := by
  rw [UInt8.le_iff_toNat_le, UInt8.toNat_ofNat', Nat.mod_eq_of_lt octet]
  exact high

/-- Beyond ASCII no octet of a character can be mistaken for one. -/
theorem le_of_mem_utf8EncodeChar {c : Char} (high : 0x80 ≤ c.toNat) {b : UInt8}
    (member : b ∈ String.utf8EncodeChar c) : 0x80 ≤ b := by
  have above : ¬c.val.toNat ≤ 0x7f := Nat.not_le.2 high
  simp only [String.utf8EncodeChar, if_neg above] at member
  split at member
  · simp only [List.mem_cons, List.not_mem_nil, or_false] at member
    rcases member with rfl | rfl <;> exact le_ofNat (by omega) (by omega)
  · split at member
    · simp only [List.mem_cons, List.not_mem_nil, or_false] at member
      rcases member with rfl | rfl | rfl <;> exact le_ofNat (by omega) (by omega)
    · simp only [List.mem_cons, List.not_mem_nil, or_false] at member
      rcases member with rfl | rfl | rfl | rfl <;> exact le_ofNat (by omega) (by omega)

theorem plain_of_le {b : UInt8} (high : 0x80 ≤ b) : Plain b := by
  constructor
  · rintro rfl
    exact absurd high (by decide)
  · rintro rfl
    exact absurd high (by decide)
  · intro low
    have : b.toNat < 0x20 := low
    have : 0x80 ≤ b.toNat := high
    omega

namespace Means

theorem append {s₁ s₂ m₁ m₂ : Octets} (first : Means s₁ m₁) (second : Means s₂ m₂) :
    Means (s₁ ++ s₂) (m₁ ++ m₂) := by
  induction first with
  | nil => exact second
  | plain plain _ ih => exact .plain plain ih
  | letter known _ ih => exact .letter known ih
  | number named whole _ ih =>
    rw [List.append_assoc]
    exact .number named whole ih
  | pair leading trailing _ ih =>
    rw [List.append_assoc]
    exact .pair leading trailing ih

theorem run {bs : Octets} (plain : ∀ b ∈ bs, Plain b) : Means bs bs := by
  induction bs with
  | nil => exact .nil
  | cons b bs ih =>
    exact .plain (plain b List.mem_cons_self) (ih fun b member => plain b (List.mem_cons_of_mem _ member))

theorem shorthand {c : Char} {e m : UInt8} (known : (e, m) ∈ Json.shorthand)
    (ascii : String.utf8EncodeChar c = [m]) : Means [backslash, e] (String.utf8EncodeChar c) := by
  rw [ascii]
  exact .letter known .nil

theorem hex4_digit : ∀ n < 0x20, Raw.hex4 0x30 0x30 (UInt8.ofNat (Hex.digit (n / 16)).toNat)
    (UInt8.ofNat (Hex.digit (n % 16)).toNat) = some n := by decide

theorem digit_ascii : ∀ n < 0x10, (Hex.digit n).toNat < 0x80 := by decide

theorem control {c : Char} (low : c.toNat < 0x20) :
    Means (octets ['\\', 'u', '0', '0', Hex.digit (c.toNat / 16), Hex.digit (c.toNat % 16)])
      (String.utf8EncodeChar c) := by
  have means := Means.number (hex4_digit c.toNat low) (.inl (by omega)) .nil
  rw [Char.ofNat_toNat, List.append_nil] at means
  have high := digit_ascii (c.toNat / 16) (by omega)
  have below := digit_ascii (c.toNat % 16) (by omega)
  have spelling : octets ['\\', 'u', '0', '0', Hex.digit (c.toNat / 16), Hex.digit (c.toNat % 16)] =
      [backslash, letterU, 0x30, 0x30, UInt8.ofNat (Hex.digit (c.toNat / 16)).toNat,
        UInt8.ofNat (Hex.digit (c.toNat % 16)).toNat] := by
    simp only [octets_cons, utf8EncodeChar_ascii high, utf8EncodeChar_ascii below]
    rfl
  rwa [spelling]

theorem plain_of_ascii {c : Char} (quote : c ≠ '"') (backslash : c ≠ '\\') (visible : ¬c.toNat < 0x20)
    (low : c.toNat < 0x80) : Plain (UInt8.ofNat c.toNat) := by
  have octet : (UInt8.ofNat c.toNat).toNat = c.toNat := by
    rw [UInt8.toNat_ofNat', Nat.mod_eq_of_lt (by omega)]
  have apart : ∀ d : Char, c ≠ d → (UInt8.ofNat c.toNat).toNat ≠ d.toNat := by
    intro d differ same
    rw [octet] at same
    exact differ (Char.toNat_inj.1 same)
  refine ⟨fun same => apart '"' quote ?_, fun same => apart '\\' backslash ?_, fun control => ?_⟩
  · rw [same]
    rfl
  · rw [same]
    rfl
  · have : (UInt8.ofNat c.toNat).toNat < 0x20 := control
    omega

/-- A character as it is written between quotes. -/
theorem escape (c : Char) : Means (octets (Json.escape c)) (String.utf8EncodeChar c) := by
  rw [Json.escape]
  split_ifs with quote backslash b f n r t control
  · subst quote
    exact shorthand (e := 0x22) (by decide) rfl
  · subst backslash
    exact shorthand (e := 0x5c) (by decide) rfl
  · subst b
    exact shorthand (e := 0x62) (by decide) rfl
  · subst f
    exact shorthand (e := 0x66) (by decide) rfl
  · subst n
    exact shorthand (e := 0x6e) (by decide) rfl
  · subst r
    exact shorthand (e := 0x72) (by decide) rfl
  · subst t
    exact shorthand (e := 0x74) (by decide) rfl
  · exact Means.control control
  · rw [octets_cons, octets_nil, List.append_nil]
    apply run
    intro x member
    by_cases low : c.toNat < 0x80
    · rw [utf8EncodeChar_ascii low, List.mem_singleton] at member
      rw [member]
      exact plain_of_ascii quote backslash control low
    · exact plain_of_le (le_of_mem_utf8EncodeChar (Nat.not_lt.1 low) member)

theorem text (cs : List Char) : Means (octets (cs.flatMap Json.escape)) (octets cs) := by
  induction cs with
  | nil => exact .nil
  | cons c cs ih =>
    rw [List.flatMap_cons, octets_append, octets_cons]
    exact (escape c).append ih

end Means

/-- What stands between the quotes of a string. -/
def body (s : String) : Octets := octets (s.toList.flatMap escape)

theorem means_body (s : String) : Means (body s) (Utf8.encode s) := by
  rw [← String.ofList_toList (s := s), encode_ofList, String.ofList_toList]
  exact .text s.toList

@[simp] theorem textOf_body (s : String) : textOf (body s) = some s :=
  (textOf_eq_some_iff (means_body s).body).mpr (means_body s)

end Cutover.Json
