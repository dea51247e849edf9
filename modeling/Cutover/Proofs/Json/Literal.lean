import Mathlib.Data.List.TakeDrop
import Mathlib.Tactic.Common
import Cutover.Json.Raw

/-! Literals of numbers. A number is a whole part, perhaps with a sign before it and a fraction and an exponent
behind it, and is read as far as it goes. -/
namespace Cutover.Json

open Octet

/-- One digit at least. -/
structure Digits (s : Octets) : Prop where
  some : s ≠ []
  all : ∀ b ∈ s, isDigit b = true

/-- A zero that stands alone, or digits that start with another. -/
inductive Whole : Octets → Prop
  | zero : Whole [zero]
  | positive {b : UInt8} {s : Octets} (some : b ≠ zero) (all : ∀ x ∈ b :: s, isDigit x = true) : Whole (b :: s)

inductive Fraction : Octets → Prop
  | none : Fraction []
  | point {s : Octets} (digits : Digits s) : Fraction (point :: s)

def Sign (b : UInt8) : Prop := b = plus ∨ b = minus

/-- The letter before an exponent. -/
def Mark (b : UInt8) : Prop := b = 0x65 ∨ b = 0x45

instance : DecidablePred Mark := fun b => inferInstanceAs (Decidable (b = 0x65 ∨ b = 0x45))

inductive Exponent : Octets → Prop
  | none : Exponent []
  | plain {e : UInt8} {s : Octets} (mark : Mark e) (digits : Digits s) : Exponent (e :: s)
  | signed {e b : UInt8} {s : Octets} (mark : Mark e) (sign : Sign b) (digits : Digits s) : Exponent (e :: b :: s)

/-- A number without its sign. -/
inductive Unsigned : Octets → Prop
  | parts {w f e : Octets} (whole : Whole w) (fraction : Fraction f) (exponent : Exponent e) : Unsigned (w ++ f ++ e)

inductive Literal : Octets → Prop
  | positive {s : Octets} (number : Unsigned s) : Literal s
  | negative {s : Octets} (number : Unsigned s) : Literal (minus :: s)

theorem Whole.digits {w : Octets} : Whole w → Digits w
  | .zero => ⟨List.cons_ne_nil _ _, by simp; rfl⟩
  | .positive _ all => ⟨List.cons_ne_nil _ _, all⟩

/-- The first octet of a number is a digit, if no sign stands before it. -/
theorem Unsigned.head {s : Octets} (number : Unsigned s) : ∃ b t, s = b :: t ∧ isDigit b = true := by
  obtain ⟨whole, -, -⟩ := number
  cases whole with
  | zero => exact ⟨_, _, rfl, rfl⟩
  | positive _ all => exact ⟨_, _, rfl, all _ List.mem_cons_self⟩

theorem Literal.head {s : Octets} : Literal s → ∃ b t, s = b :: t ∧ (isDigit b = true ∨ b = minus)
  | .positive number =>
    have ⟨b, t, found, digit⟩ := number.head
    ⟨b, t, found, .inl digit⟩
  | .negative _ => ⟨_, _, rfl, .inr rfl⟩

/-- What cannot continue digits. -/
def Apart (rest : Octets) : Prop := ∀ b ∈ rest.head?, isDigit b = false

/-- What cannot continue a number. -/
structure Stops (rest : Octets) : Prop where
  digit : Apart rest
  point : ∀ b ∈ rest.head?, b ≠ point
  exponent : ∀ b ∈ rest.head?, ¬Mark b

theorem stops_nil : Stops [] := by constructor <;> simp [Apart]

theorem stops_cons {b : UInt8} (digit : isDigit b = false) (point : b ≠ point) (exponent : ¬Mark b)
    (rest : Octets) : Stops (b :: rest) := by
  constructor <;> rintro _ ⟨⟩ <;> assumption

theorem span_digits {s rest : Octets} (all : ∀ b ∈ s, isDigit b = true) (apart : Apart rest) :
    (s ++ rest).span isDigit = (s, rest) := by
  rw [List.span_eq_takeWhile_dropWhile, List.takeWhile_append_of_pos all, List.dropWhile_append_of_pos all]
  cases rest with
  | nil => simp
  | cons b rest => simp [apart b rfl]

theorem isDigit_of_mark {e : UInt8} (mark : Mark e) : isDigit e = false := by
  rcases mark with rfl | rfl <;> rfl

/-- An exponent does not continue what stands before it. -/
theorem Exponent.apart {e rest : Octets} (exponent : Exponent e) (stops : Stops rest) :
    Apart (e ++ rest) ∧ ∀ b ∈ (e ++ rest).head?, b ≠ point := by
  cases exponent with
  | none => exact ⟨stops.digit, stops.point⟩
  | plain mark | signed mark =>
    refine ⟨?_, ?_⟩ <;> rintro _ ⟨⟩
    · exact isDigit_of_mark mark
    · rintro rfl
      rcases mark with mark | mark <;> cases mark

theorem Fraction.apart {f rest : Octets} (fraction : Fraction f) (apart : Apart rest) : Apart (f ++ rest) := by
  cases fraction with
  | none => exact apart
  | point => rintro _ ⟨⟩; rfl

namespace Raw

variable {bytes s rest : Octets}

theorem digits_append (number : Digits s) (apart : Apart rest) : digits (s ++ rest) = some (s, rest) := by
  obtain ⟨some, all⟩ := number
  rw [digits, span_digits all apart]
  split
  next empty => exact absurd (Prod.mk.inj empty).1 some
  next => rfl

theorem digits_sound (found : digits bytes = some (s, rest)) : Digits s ∧ bytes = s ++ rest := by
  rw [digits, List.span_eq_takeWhile_dropWhile] at found
  split at found
  · cases found
  next some =>
    obtain ⟨rfl, rfl⟩ := Prod.mk.inj (Option.some.inj found)
    refine ⟨⟨fun none => some _ (by rw [none]), List.all_eq_true.mp List.all_takeWhile⟩, ?_⟩
    exact List.takeWhile_append_dropWhile.symm

theorem wholePart_append (number : Whole s) (apart : Apart rest) :
    wholePart (s ++ rest) = some (s, rest) := by
  cases number with
  | zero =>
    have alone : (rest.head?.map isDigit).getD false = false := by
      cases head : rest.head? with
      | none => rfl
      | some b => exact apart b head
    show (if (rest.head?.map isDigit).getD false = true then none else some ([Octet.zero], rest)) = _
    rw [alone]
    rfl
  | positive some all =>
    have read := digits_append ⟨List.cons_ne_nil _ _, all⟩ apart
    exact (wholePart.eq_2 _ fun rest same => some (List.cons.inj same).1).trans read

theorem wholePart_sound (found : wholePart bytes = some (s, rest)) : Whole s ∧ bytes = s ++ rest := by
  unfold wholePart at found
  split at found
  · split at found
    · cases found
    · cases found
      exact ⟨.zero, rfl⟩
  next other =>
    obtain ⟨⟨some, all⟩, rfl⟩ := digits_sound found
    obtain ⟨b, t, rfl⟩ := List.exists_cons_of_ne_nil some
    exact ⟨.positive (fun zero => other (t ++ rest) (by rw [zero]; rfl)) all, rfl⟩

theorem fractionPart_append (fraction : Fraction s) (apart : Apart rest)
    (stop : ∀ b ∈ rest.head?, b ≠ point) : fractionPart (s ++ rest) = some (s, rest) := by
  cases fraction with
  | none =>
    refine fractionPart.eq_2 rest ?_
    rintro rest rfl
    exact stop _ rfl rfl
  | point digits => exact congrArg (Option.map _) (digits_append digits apart)

theorem fractionPart_sound (found : fractionPart bytes = some (s, rest)) : Fraction s ∧ bytes = s ++ rest := by
  unfold fractionPart at found
  split at found
  · obtain ⟨⟨t, rest⟩, read, ⟨⟩⟩ := Option.map_eq_some_iff.mp found
    obtain ⟨digits, rfl⟩ := digits_sound read
    exact ⟨.point digits, rfl⟩
  · cases found
    exact ⟨.none, rfl⟩

theorem beq_mark_iff {e : UInt8} : (e == 0x65 || e == 0x45) = true ↔ Mark e := by
  simp [Mark]

theorem exponentPart_append (exponent : Exponent s) (stops : Stops rest) :
    exponentPart (s ++ rest) = some (s, rest) := by
  cases exponent with
  | none =>
    cases rest with
    | nil => rfl
    | cons b rest => exact if_neg (mt beq_mark_iff.mp (stops.exponent b rfl))
  | @plain e t mark digits =>
    have read := digits_append digits stops.digit
    obtain ⟨b, t, rfl⟩ := List.exists_cons_of_ne_nil digits.some
    have digit := digits.all b List.mem_cons_self
    refine ((exponentPart.eq_3 e _ ?_ ?_).trans (if_pos (beq_mark_iff.mpr mark))).trans ?_
    · rintro _ ⟨⟩
      cases digit
    · rintro _ ⟨⟩
      cases digit
    · exact congrArg (Option.map _) read
  | signed mark sign digits =>
    have read := digits_append digits stops.digit
    rcases sign with rfl | rfl
    · exact (exponentPart.eq_1 _ _).trans ((if_pos (beq_mark_iff.mpr mark)).trans (congrArg (Option.map _) read))
    · exact (exponentPart.eq_2 _ _).trans ((if_pos (beq_mark_iff.mpr mark)).trans (congrArg (Option.map _) read))

theorem exponentPart_sound (found : exponentPart bytes = some (s, rest)) :
    Exponent s ∧ bytes = s ++ rest := by
  unfold exponentPart at found
  split at found
  · split at found
    next mark =>
      have mark := beq_mark_iff.mp mark
      split at found <;> obtain ⟨⟨t, rest⟩, read, ⟨⟩⟩ := Option.map_eq_some_iff.mp found <;>
        obtain ⟨digits, rfl⟩ := digits_sound read
      · exact ⟨.signed mark (.inl rfl) digits, rfl⟩
      · exact ⟨.signed mark (.inr rfl) digits, rfl⟩
      · exact ⟨.plain mark digits, rfl⟩
    · cases found
      exact ⟨.none, rfl⟩
  · cases found
    exact ⟨.none, rfl⟩

theorem unsigned_append (number : Unsigned s) (stops : Stops rest) :
    unsigned (s ++ rest) = some (s, rest) := by
  obtain ⟨whole, fraction, exponent⟩ := number
  obtain ⟨apart, stop⟩ := exponent.apart stops
  simp only [unsigned, List.append_assoc, Option.bind_eq_bind, Option.bind_some,
    wholePart_append whole (fraction.apart apart), fractionPart_append fraction apart stop,
    exponentPart_append exponent stops]
  rfl

theorem unsigned_sound (found : unsigned bytes = some (s, rest)) : Unsigned s ∧ bytes = s ++ rest := by
  simp only [unsigned, Option.bind_eq_bind, Option.bind_eq_some_iff] at found
  obtain ⟨⟨w, _⟩, front, ⟨f, _⟩, middle, ⟨e, _⟩, back, ⟨⟩⟩ := found
  obtain ⟨whole, rfl⟩ := wholePart_sound front
  obtain ⟨fraction, rfl⟩ := fractionPart_sound middle
  obtain ⟨exponent, rfl⟩ := exponentPart_sound back
  exact ⟨.parts whole fraction exponent, by simp only [List.append_assoc]⟩

theorem spelling_append (number : Literal s) (stops : Stops rest) :
    spelling (s ++ rest) = some (s, rest) := by
  cases number with
  | positive number =>
    have read := unsigned_append number stops
    obtain ⟨b, t, rfl, digit⟩ := number.head
    refine (spelling.eq_2 _ ?_).trans read
    intro more same
    obtain ⟨rfl, -⟩ := List.cons.inj same
    cases digit
  | negative number => exact congrArg (Option.map _) (unsigned_append number stops)

theorem spelling_sound (found : spelling bytes = some (s, rest)) : Literal s ∧ bytes = s ++ rest := by
  unfold spelling at found
  split at found
  · obtain ⟨⟨t, rest⟩, read, ⟨⟩⟩ := Option.map_eq_some_iff.mp found
    obtain ⟨number, rfl⟩ := unsigned_sound read
    exact ⟨.negative number, rfl⟩
  · obtain ⟨number, rfl⟩ := unsigned_sound found
    exact ⟨.positive number, rfl⟩

end Raw

end Cutover.Json
