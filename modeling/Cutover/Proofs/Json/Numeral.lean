import Mathlib.Data.List.Induction
import Cutover.Proofs.Json.Literal
import Cutover.Proofs.Json.Quoting

/-! Integers and their digits. The literal of an integer is its numeral and no other: a fraction, an exponent or
a sign before zero makes it the literal of something else. -/
namespace Cutover.Json

open Octet

/-- The digits of a number. -/
def digitsOf (n : Nat) : Octets := (Nat.toDigits 10 n).map fun c => UInt8.ofNat c.toNat

theorem toNat_of_isDigit {c : Char} (digit : c.isDigit = true) :
    0x30 ≤ c.toNat ∧ c.toNat ≤ 0x39 ∧ (UInt8.ofNat c.toNat).toNat = c.toNat := by
  have bounds := Char.isDigit_iff_toNat.1 digit
  simp only [Char.reduceToNat] at bounds
  exact ⟨bounds.1, bounds.2, by rw [UInt8.toNat_ofNat', Nat.mod_eq_of_lt (by omega)]⟩

theorem isDigit_of_mem_toDigits {n : Nat} {c : Char} (member : c ∈ Nat.toDigits 10 n) :
    c.isDigit = true := Nat.isDigit_of_mem_toDigits (by decide) (by decide) member

theorem octets_toDigits (n : Nat) : octets (Nat.toDigits 10 n) = digitsOf n := by
  rw [digitsOf, octets, List.map_eq_flatMap]
  apply List.flatMap_congr
  intro c member
  obtain ⟨-, high, -⟩ := toNat_of_isDigit (isDigit_of_mem_toDigits member)
  exact utf8EncodeChar_ascii (by omega)

theorem isDigit_of_mem_digitsOf {n : Nat} {b : UInt8} (member : b ∈ digitsOf n) : isDigit b = true := by
  obtain ⟨c, digit, rfl⟩ := List.mem_map.1 member
  obtain ⟨low, high, octet⟩ := toNat_of_isDigit (isDigit_of_mem_toDigits digit)
  simp only [isDigit, Bool.and_eq_true, decide_eq_true_eq, UInt8.le_iff_toNat_le, octet]
  exact ⟨low, high⟩

theorem natOf_digitsOf (n : Nat) : natOf (digitsOf n) = n := by
  have same : natOf (digitsOf n) = Nat.ofDigitChars 10 (Nat.toDigits 10 n) 0 := by
    rw [natOf, digitsOf, List.foldl_map, Nat.ofDigitChars]
    apply List.foldl_ext
    intro sofar c member
    obtain ⟨-, -, octet⟩ := toNat_of_isDigit (isDigit_of_mem_toDigits member)
    rw [octet, Nat.mul_comm]
    rfl
  rw [same, Nat.ofDigitChars_ten_toDigits]

theorem digitsOf_append {n k : Nat} (positive : 0 < n) (digit : k < 10) :
    digitsOf (n * 10 + k) = digitsOf n ++ digitsOf k := by
  have quotient : (n * 10 + k) / 10 = n := by omega
  have remainder : (n * 10 + k) % 10 = k := by omega
  simp only [digitsOf]
  rw [Nat.toDigits_of_base_le (by decide) (by omega), quotient, remainder, List.map_append,
    Nat.toDigits_of_lt_base digit]

theorem digitChar_ne_zero : ∀ n < 10, 0 < n → UInt8.ofNat n.digitChar.toNat ≠ zero := by decide

/-- Only zero starts with a zero. -/
theorem digitsOf_positive {n : Nat} (positive : 0 < n) : ∃ b rest, digitsOf n = b :: rest ∧ b ≠ zero := by
  induction n using Nat.strongRecOn with
  | _ n ih =>
    by_cases single : n < 10
    · refine ⟨UInt8.ofNat n.digitChar.toNat, [], by simp [digitsOf, Nat.toDigits_of_lt_base single], ?_⟩
      exact digitChar_ne_zero n single positive
    · obtain ⟨b, rest, digits, some⟩ := ih (n / 10) (by omega) (by omega)
      refine ⟨b, rest ++ digitsOf (n % 10), ?_, some⟩
      rw [← List.cons_append, ← digits, ← digitsOf_append (by omega) (by omega), Nat.div_add_mod']

/-- The text of an integer. -/
def numeral (n : Int) : Octets := octets (toString n).toList

theorem numeral_eq (n : Int) :
    numeral n = if 0 ≤ n then digitsOf n.toNat else minus :: digitsOf (-n).toNat := by
  rw [numeral, Int.toString_eq_repr, Int.repr_eq_if]
  split
  · rw [Nat.toList_repr, octets_toDigits]
  · rw [String.toList_append, octets_append, Nat.toList_repr, octets_toDigits]
    rfl

theorem numeral_natCast (k : Nat) : numeral k = digitsOf k := by
  rw [numeral_eq, if_pos (Int.natCast_nonneg k), Int.toNat_natCast]

theorem numeral_neg {k : Nat} (some : k ≠ 0) : numeral (-k) = minus :: digitsOf k := by
  rw [numeral_eq, if_neg (by omega), Int.neg_neg, Int.toNat_natCast]

theorem whole_digitsOf (n : Nat) : Whole (digitsOf n) := by
  rcases Nat.eq_zero_or_pos n with rfl | positive
  · exact .zero
  · obtain ⟨b, t, found, some⟩ := digitsOf_positive positive
    rw [found]
    exact .positive some fun x member => isDigit_of_mem_digitsOf (found ▸ member)

theorem Whole.unsigned {w : Octets} (whole : Whole w) : Unsigned w := by
  simpa using Unsigned.parts whole .none .none

theorem literal_numeral (n : Int) : Literal (numeral n) := by
  rw [numeral_eq]
  split
  · exact .positive (whole_digitsOf _).unsigned
  · exact .negative (whole_digitsOf _).unsigned

theorem digitsOf_of_lt_ten : ∀ k < 10, digitsOf k = [UInt8.ofNat (k + 0x30)] := by decide

theorem digit_value {d : UInt8} (digit : isDigit d = true) :
    ∃ k < 10, d.toNat - 0x30 = k ∧ d = UInt8.ofNat (k + 0x30) := by
  simp only [isDigit, Bool.and_eq_true, decide_eq_true_eq, UInt8.le_iff_toNat_le] at digit
  have low : 0x30 ≤ d.toNat := digit.1
  have high : d.toNat ≤ 0x39 := digit.2
  refine ⟨d.toNat - 0x30, by omega, rfl, ?_⟩
  rw [Nat.sub_add_cancel low, UInt8.ofNat_toNat]

theorem Whole.head_ne_zero {b : UInt8} {s : Octets} : Whole (b :: s) → s ≠ [] → b ≠ Octet.zero
  | .zero, more => absurd rfl more
  | .positive nonzero _, _ => nonzero

/-- A whole number is spelled in one way only. -/
theorem digitsOf_natOf {w : Octets} (whole : Whole w) : digitsOf (natOf w) = w := by
  induction w using List.reverseRecOn with
  | nil => cases whole
  | append_singleton u d ih =>
    obtain ⟨k, small, value, rfl⟩ := digit_value (whole.digits.all d (by simp))
    have step : natOf (u ++ [UInt8.ofNat (k + 0x30)]) = natOf u * 10 + k := by
      rw [natOf, List.foldl_append, ← natOf, List.foldl_cons, value, List.foldl_nil]
    rw [step, ← digitsOf_of_lt_ten k small]
    rcases u with _ | ⟨b, t⟩
    · rw [natOf, List.foldl_nil, Nat.zero_mul, Nat.zero_add, List.nil_append]
    · have some := whole.head_ne_zero (by simp)
      have same := ih (.positive some fun x member => whole.digits.all x (List.mem_append_left _ member))
      have positive : 0 < natOf (b :: t) := by
        refine Nat.pos_of_ne_zero fun none => some ?_
        rw [none] at same
        exact (List.cons.inj same).1.symm
      rw [digitsOf_append positive small, same]

namespace Number

/-- Neither a fraction nor an exponent. -/
def Bare (n : Number) : Prop := n.fraction = none ∧ n.exponent = none

theorem of_append {w rest : Octets} (digits : Digits w) (apart : Apart rest) :
    (Number.of (w ++ rest)).negative = false ∧ (Number.of (w ++ rest)).whole = w ∧
      ((Number.of (w ++ rest)).Bare ↔ rest = []) := by
  obtain ⟨n, same⟩ : ∃ n, n = Number.of (w ++ rest) := ⟨_, rfl⟩
  rw [← same]
  simp only [Number.of] at same
  split at same
  next starts =>
    obtain ⟨b, t, rfl⟩ := List.exists_cons_of_ne_nil digits.some
    obtain ⟨rfl, -⟩ := List.cons.inj starts
    cases digits.all _ List.mem_cons_self
  next =>
    simp only [span_digits digits.all apart] at same
    split at same
    next => simp [same, Bare]
    next =>
      -- What does not go on with a point goes on with an exponent, if it goes on at all.
      split at same <;> rename_i more <;> simp [same, Bare, show rest = _ from more]

theorem of_minus {s : Octets} (number : Unsigned s) :
    Number.of (minus :: s) = { Number.of s with negative := true } := by
  obtain ⟨n, same⟩ : ∃ n, n = Number.of s := ⟨_, rfl⟩
  rw [← same]
  simp only [Number.of] at same
  split at same
  next =>
    obtain ⟨b, t, starts, digit⟩ := number.head
    obtain ⟨rfl, -⟩ := List.cons.inj starts
    cases digit
  next => exact same ▸ rfl

end Number

theorem intOf_eq_some_iff {s : Octets} {n : Int} : intOf s = some n ↔ (Number.of s).Bare ∧
    if (Number.of s).negative then natOf (Number.of s).whole ≠ 0 ∧ n = -(natOf (Number.of s).whole : Int)
    else n = natOf (Number.of s).whole := by
  simp only [intOf, Number.Bare]
  split
  next fraction exponent =>
    simp only [fraction, exponent, and_self, true_and]
    split_ifs with sign none
    · simp [none]
    · simp [none, eq_comm]
    · simp [eq_comm]
  next other => exact ⟨nofun, fun ⟨bare, _⟩ => absurd bare.2 (other bare.1)⟩

theorem Number.of_whole {w : Octets} (digits : Digits w) :
    (Number.of w).negative = false ∧ (Number.of w).whole = w ∧ (Number.of w).Bare := by
  obtain ⟨negative, whole, bare⟩ := Number.of_append digits stops_nil.digit
  rw [List.append_nil] at negative whole bare
  exact ⟨negative, whole, bare.mpr rfl⟩

theorem Unsigned.bare {s : Octets} : Unsigned s → (Number.of s).negative = false ∧
    ((Number.of s).Bare → s = digitsOf (natOf (Number.of s).whole))
  | .parts (w := w) (f := f) (e := e) whole fraction exponent => by
    have apart : Apart (f ++ e) := by
      have := fraction.apart (exponent.apart stops_nil).1
      rwa [List.append_nil] at this
    obtain ⟨negative, same, bare⟩ := Number.of_append whole.digits apart
    rw [List.append_assoc]
    refine ⟨negative, fun alone => ?_⟩
    rw [same, digitsOf_natOf whole, bare.mp alone, List.append_nil]

theorem intOf_numeral (n : Int) : intOf (numeral n) = some n := by
  rw [intOf_eq_some_iff, numeral_eq]
  split
  next sign =>
    obtain ⟨negative, whole, bare⟩ := Number.of_whole (whole_digitsOf n.toNat).digits
    rw [negative, whole, natOf_digitsOf]
    exact ⟨bare, (Int.toNat_of_nonneg sign).symm⟩
  next sign =>
    obtain ⟨negative, whole, bare⟩ := Number.of_whole (whole_digitsOf (-n).toNat).digits
    rw [Number.of_minus (whole_digitsOf _).unsigned]
    rw [whole, natOf_digitsOf]
    refine ⟨bare, ?_⟩
    rw [if_pos rfl]
    omega

/-- An integer is spelled in one way only. -/
theorem numeral_of_intOf {s : Octets} {n : Int} (literal : Literal s) (found : intOf s = some n) : s = numeral n := by
  obtain ⟨bare, value⟩ := intOf_eq_some_iff.mp found
  cases literal with
  | positive number =>
    obtain ⟨negative, same⟩ := number.bare
    rw [negative] at value
    rw [show n = _ from value, numeral_natCast]
    exact same bare
  | @negative s number =>
    obtain ⟨negative, same⟩ := number.bare
    rw [Number.of_minus number] at value bare
    obtain ⟨some, rfl⟩ := value
    rw [numeral_neg some]
    exact congrArg (minus :: ·) (same bare)

end Cutover.Json
