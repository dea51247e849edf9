import Mathlib.Tactic.Common
import Cutover.Json.Spelling

/-! Strings between quotes. A body is made of octets that stand for themselves and of escapes. It means the octets
and the characters that these name, and nothing when an escape names half a pair alone. -/
namespace Cutover.Json

open Octet

/-- What may stand between quotes as it is. -/
structure Plain (b : UInt8) : Prop where
  quote : b ≠ quote
  backslash : b ≠ backslash
  control : ¬b < 0x20

/-- What may stand between quotes: octets as they are, and escapes. -/
inductive Body : Octets → Prop
  | nil : Body []
  | plain {b : UInt8} {s : Octets} (plain : Plain b) (more : Body s) : Body (b :: s)
  | letter {e : UInt8} {s : Octets} (known : isEscape e = true) (more : Body s) : Body (backslash :: e :: s)
  | number {a b c d : UInt8} {s : Octets} (named : (Raw.hex4 a b c d).isSome = true) (more : Body s) :
      Body (backslash :: letterU :: a :: b :: c :: d :: s)

namespace Raw

theorem stringBody_plain {b : UInt8} (plain : Plain b) (rest : Octets) :
    stringBody (b :: rest) = (stringBody rest).map fun (body, rest) => (b :: body, rest) := by
  obtain ⟨quote, backslash, control⟩ := plain
  refine (stringBody.eq_4 b rest ?_ ?_).trans ?_
  · exact fun _ _ _ _ _ same => absurd same backslash
  · exact fun _ _ same => absurd same backslash
  · simp [quote, backslash, control]

theorem stringBody_letter {e : UInt8} (known : isEscape e = true) (rest : Octets) :
    stringBody (backslash :: e :: rest) =
      (stringBody rest).map fun (body, rest) => (backslash :: e :: body, rest) := by
  refine (stringBody.eq_3 e rest ?_).trans ?_
  · rintro _ _ _ _ _ rfl
    cases known
  · simp [known]

theorem stringBody_number {a b c d : UInt8} {n : Nat} (named : hex4 a b c d = some n) (rest : Octets) :
    stringBody (backslash :: letterU :: a :: b :: c :: d :: rest) = (stringBody rest).map
      fun (body, rest) => (backslash :: letterU :: a :: b :: c :: d :: body, rest) := by
  refine (stringBody.eq_2 a b c d rest).trans ?_
  simp [named]

theorem stringBody_quote (rest : Octets) : stringBody (quote :: rest) = some ([], rest) := by
  refine (stringBody.eq_4 quote rest ?_ ?_).trans ?_
  · rintro _ _ _ _ _ ⟨⟩
  · rintro _ _ ⟨⟩
  · simp

theorem stringBody_append {s : Octets} (body : Body s) (rest : Octets) :
    stringBody (s ++ quote :: rest) = some (s, rest) := by
  induction body with
  | nil => exact stringBody_quote rest
  | plain plain _ ih => exact (stringBody_plain plain _).trans (congrArg (Option.map _) ih)
  | letter known _ ih => exact (stringBody_letter known _).trans (congrArg (Option.map _) ih)
  | number named _ ih =>
    obtain ⟨n, named⟩ := Option.isSome_iff_exists.mp named
    exact (stringBody_number named _).trans (congrArg (Option.map _) ih)

theorem stringBody_sound {bytes s rest : Octets} (found : stringBody bytes = some (s, rest)) :
    Body s ∧ bytes = s ++ quote :: rest := by
  fun_induction stringBody bytes generalizing s with
  | case1 => cases found
  | case2 a b c d bytes named ih =>
    obtain ⟨⟨t, rest⟩, read, ⟨⟩⟩ := Option.map_eq_some_iff.mp found
    obtain ⟨body, rfl⟩ := ih read
    exact ⟨.number named body, rfl⟩
  | case3 => cases found
  | case4 e bytes _ known ih =>
    obtain ⟨⟨t, rest⟩, read, ⟨⟩⟩ := Option.map_eq_some_iff.mp found
    obtain ⟨body, rfl⟩ := ih read
    exact ⟨.letter known body, rfl⟩
  | case5 => cases found
  | case6 b bytes _ _ closing =>
    cases found
    exact ⟨.nil, by rw [beq_iff_eq.mp closing]; rfl⟩
  | case7 => cases found
  | case8 b bytes _ _ quote other ih =>
    obtain ⟨⟨t, rest⟩, read, ⟨⟩⟩ := Option.map_eq_some_iff.mp found
    obtain ⟨body, rfl⟩ := ih read
    simp only [Bool.or_eq_true, beq_iff_eq, decide_eq_true_eq, not_or] at quote other
    exact ⟨.plain ⟨quote, other.1, other.2⟩ body, rfl⟩

end Raw

/-- What a letter after a backslash stands for. -/
def shorthand : List (UInt8 × UInt8) :=
  [(quote, quote), (backslash, backslash), (slash, slash), (0x62, 0x08), (0x66, 0x0c), (0x6e, 0x0a), (0x72, 0x0d),
    (0x74, 0x09)]

/-- What stands between quotes, and the octets that it means. -/
inductive Means : Octets → Octets → Prop
  | nil : Means [] []
  | plain {b : UInt8} {s t : Octets} (plain : Plain b) (more : Means s t) : Means (b :: s) (b :: t)
  | letter {e m : UInt8} {s t : Octets} (known : (e, m) ∈ shorthand) (more : Means s t) :
      Means (backslash :: e :: s) (m :: t)
  | number {a b c d : UInt8} {n : Nat} {s t : Octets} (named : Raw.hex4 a b c d = some n)
      (whole : n < 0xd800 ∨ 0xdfff < n) (more : Means s t) :
      Means (backslash :: letterU :: a :: b :: c :: d :: s) (String.utf8EncodeChar (Char.ofNat n) ++ t)
  | pair {a b c d a' b' c' d' : UInt8} {high low : Nat} {s t : Octets}
      (leading : Raw.hex4 a b c d = some high ∧ 0xd800 ≤ high ∧ high < 0xdc00)
      (trailing : Raw.hex4 a' b' c' d' = some low ∧ 0xdc00 ≤ low ∧ low ≤ 0xdfff) (more : Means s t) :
      Means (backslash :: letterU :: a :: b :: c :: d :: backslash :: letterU :: a' :: b' :: c' :: d' :: s)
        (String.utf8EncodeChar (Char.ofNat (0x10000 + (high - 0xd800) * 0x400 + (low - 0xdc00))) ++ t)

theorem unescape_plain {b : UInt8} (plain : Plain b) (s : Octets) :
    unescape (b :: s) = (unescape s).map (b :: ·) := by
  refine (unescape.eq_9 b s ?_ ?_).trans ?_
  · exact fun _ _ _ _ _ same => absurd same plain.backslash
  · exact fun _ _ same => absurd same plain.backslash
  · cases unescape s <;> rfl

theorem unescape_letter {e m : UInt8} (known : (e, m) ∈ shorthand) (s : Octets) :
    unescape (backslash :: e :: s) = (unescape s).map (m :: ·) := by
  have itself : isEscape e = true → e ≠ 0x62 → e ≠ 0x66 → e ≠ 0x6e → e ≠ 0x72 → e ≠ 0x74 →
      unescape (backslash :: e :: s) = (unescape s).map (e :: ·) := by
    intro known b f n r t
    refine (unescape.eq_8 e s ?_ b f n r t).trans ?_
    · rintro _ _ _ _ _ rfl
      cases known
    · simp only [known, if_true]
      cases unescape s <;> rfl
  simp only [shorthand, List.mem_cons, Prod.mk.injEq, List.not_mem_nil, or_false] at known
  rcases known with ⟨rfl, rfl⟩ | ⟨rfl, rfl⟩ | ⟨rfl, rfl⟩ | ⟨rfl, rfl⟩ | ⟨rfl, rfl⟩ | ⟨rfl, rfl⟩ | ⟨rfl, rfl⟩ |
    ⟨rfl, rfl⟩
  · exact itself rfl (by decide) (by decide) (by decide) (by decide) (by decide)
  · exact itself rfl (by decide) (by decide) (by decide) (by decide) (by decide)
  · exact itself rfl (by decide) (by decide) (by decide) (by decide) (by decide)
  · exact (unescape.eq_3 s).trans (by cases unescape s <;> rfl)
  · exact (unescape.eq_4 s).trans (by cases unescape s <;> rfl)
  · exact (unescape.eq_5 s).trans (by cases unescape s <;> rfl)
  · exact (unescape.eq_6 s).trans (by cases unescape s <;> rfl)
  · exact (unescape.eq_7 s).trans (by cases unescape s <;> rfl)

theorem isEscape_of_shorthand {e m : UInt8} (known : (e, m) ∈ shorthand) : isEscape e = true := by
  simp only [shorthand, List.mem_cons, Prod.mk.injEq, List.not_mem_nil, or_false] at known
  rcases known with ⟨rfl, -⟩ | ⟨rfl, -⟩ | ⟨rfl, -⟩ | ⟨rfl, -⟩ | ⟨rfl, -⟩ | ⟨rfl, -⟩ | ⟨rfl, -⟩ | ⟨rfl, -⟩ <;> rfl

theorem shorthand_of_isEscape : ∀ e, isEscape e = true → ∃ m, (e, m) ∈ shorthand := by
  intro e known
  simp only [isEscape, Bool.or_eq_true, beq_iff_eq] at known
  rcases known with ((((((rfl | rfl) | rfl) | rfl) | rfl) | rfl) | rfl) | rfl
  exacts [⟨quote, by decide⟩, ⟨backslash, by decide⟩, ⟨slash, by decide⟩, ⟨0x08, by decide⟩, ⟨0x0c, by decide⟩,
    ⟨0x0a, by decide⟩, ⟨0x0d, by decide⟩, ⟨0x09, by decide⟩]

theorem unescape_number {a b c d : UInt8} {n : Nat} (named : Raw.hex4 a b c d = some n)
    (whole : n < 0xd800 ∨ 0xdfff < n) (rest : Octets) :
    unescape (backslash :: letterU :: a :: b :: c :: d :: rest) =
      (unescape rest).map (String.utf8EncodeChar (Char.ofNat n) ++ ·) := by
  refine (unescape.eq_2 a b c d rest).trans ?_
  rw [named]
  simp only [Option.bind_eq_bind, Option.bind_some, if_pos whole]
  cases unescape rest <;> rfl

theorem unescape_pair {a b c d a' b' c' d' : UInt8} {high low : Nat}
    (leading : Raw.hex4 a b c d = some high ∧ 0xd800 ≤ high ∧ high < 0xdc00)
    (trailing : Raw.hex4 a' b' c' d' = some low ∧ 0xdc00 ≤ low ∧ low ≤ 0xdfff) (s : Octets) :
    unescape (backslash :: letterU :: a :: b :: c :: d :: backslash :: letterU :: a' :: b' :: c' :: d' :: s) =
      (unescape s).map
        (String.utf8EncodeChar (Char.ofNat (0x10000 + (high - 0xd800) * 0x400 + (low - 0xdc00))) ++ ·) := by
  obtain ⟨named, above, below⟩ := leading
  obtain ⟨other, lower, upper⟩ := trailing
  refine (unescape.eq_2 _ _ _ _ _).trans ?_
  have whole : ¬(high < 0xd800 ∨ 0xdfff < high) := by omega
  have late : ¬0xdc00 ≤ high := by omega
  have broken : ¬(low < 0xdc00 ∨ 0xdfff < low) := by omega
  simp only [named, Option.bind_eq_bind, Option.bind_some, if_neg whole, if_neg late]
  show (Raw.hex4 a' b' c' d').bind _ = _
  simp only [other, Option.bind_some, if_neg broken]
  cases unescape s <;> rfl

theorem Means.body {s t : Octets} (means : Means s t) : Body s := by
  induction means with
  | nil => exact .nil
  | plain plain _ ih => exact .plain plain ih
  | letter known _ ih => exact .letter (isEscape_of_shorthand known) ih
  | number named _ _ ih => exact .number (by rw [named]; rfl) ih
  | pair leading trailing _ ih =>
    exact .number (by rw [leading.1]; rfl) (.number (by rw [trailing.1]; rfl) ih)

/-- Half a pair is followed by the other half. -/
theorem pair_of_unescape {a b c d : UInt8} {high : Nat} {s t : Octets} (named : Raw.hex4 a b c d = some high)
    (half : ¬(high < 0xd800 ∨ 0xdfff < high))
    (meant : unescape (backslash :: letterU :: a :: b :: c :: d :: s) = some t) :
    high < 0xdc00 ∧ ∃ a' b' c' d' low more, s = backslash :: letterU :: a' :: b' :: c' :: d' :: more ∧
      Raw.hex4 a' b' c' d' = some low ∧ 0xdc00 ≤ low ∧ low ≤ 0xdfff := by
  replace meant := (unescape.eq_2 a b c d s).symm.trans meant
  simp only [named, Option.bind_eq_bind, Option.bind_some, if_neg half] at meant
  obtain ⟨early, meant⟩ := Option.ite_none_left_eq_some.mp meant
  refine ⟨Nat.lt_of_not_le early, ?_⟩
  split at meant
  next a' b' c' d' more _ =>
    obtain ⟨low, other, meant⟩ := Option.bind_eq_some_iff.mp meant
    obtain ⟨whole, -⟩ := Option.ite_none_left_eq_some.mp meant
    exact ⟨a', b', c', d', low, more, rfl, other, by omega, by omega⟩
  next => cases meant

theorem Means.unescape {s t : Octets} (means : Means s t) : unescape s = some t := by
  induction means with
  | nil => rfl
  | plain plain _ ih => rw [unescape_plain plain, ih, Option.map_some]
  | letter known _ ih => rw [unescape_letter known, ih, Option.map_some]
  | number named whole _ ih => rw [unescape_number named whole, ih, Option.map_some]
  | pair leading trailing _ ih => rw [unescape_pair leading trailing, ih, Option.map_some]

-- A pair is two escapes at once, so the same is carried along for what follows the first.
theorem means_of_unescape {s : Octets} (body : Body s) : (∀ t, unescape s = some t → Means s t) ∧
    ∀ a b c d more, s = backslash :: letterU :: a :: b :: c :: d :: more →
      ∀ t, unescape more = some t → Means more t := by
  induction body with
  | nil =>
    refine ⟨?_, nofun⟩
    rintro _ ⟨⟩
    exact .nil
  | plain plain _ ih =>
    refine ⟨fun t meant => ?_, ?_⟩
    · rw [unescape_plain plain] at meant
      obtain ⟨u, read, rfl⟩ := Option.map_eq_some_iff.mp meant
      exact .plain plain (ih.1 u read)
    · rintro _ _ _ _ _ ⟨⟩
      exact absurd rfl plain.backslash
  | letter known _ ih =>
    refine ⟨fun t meant => ?_, ?_⟩
    · obtain ⟨m, known⟩ := shorthand_of_isEscape _ known
      rw [unescape_letter known] at meant
      obtain ⟨u, read, rfl⟩ := Option.map_eq_some_iff.mp meant
      exact .letter known (ih.1 u read)
    · rintro _ _ _ _ _ ⟨⟩
      cases known
  | @number a b c d s named _ ih =>
    refine ⟨fun t meant => ?_, ?_⟩
    · obtain ⟨n, named⟩ := Option.isSome_iff_exists.mp named
      by_cases whole : n < 0xd800 ∨ 0xdfff < n
      · rw [unescape_number named whole] at meant
        obtain ⟨u, read, rfl⟩ := Option.map_eq_some_iff.mp meant
        exact .number named whole (ih.1 u read)
      · obtain ⟨below, a', b', c', d', low, more, rfl, other, lower, upper⟩ := pair_of_unescape named whole meant
        have leading : Raw.hex4 a b c d = some n ∧ 0xd800 ≤ n ∧ n < 0xdc00 := ⟨named, by omega, below⟩
        rw [unescape_pair leading ⟨other, lower, upper⟩] at meant
        obtain ⟨u, read, rfl⟩ := Option.map_eq_some_iff.mp meant
        exact .pair leading ⟨other, lower, upper⟩ (ih.2 a' b' c' d' more rfl u read)
    · rintro _ _ _ _ _ ⟨⟩
      exact ih.1

/-- The text of a string is the one whose octets its body means. -/
theorem textOf_eq_some_iff {s : Octets} (body : Body s) {text : String} :
    textOf s = some text ↔ Means s (Utf8.encode text) := by
  rw [textOf, Option.bind_eq_some_iff]
  constructor
  · rintro ⟨t, meant, decoded⟩
    rw [← Utf8.decode_eq_some_iff.mp decoded]
    exact (means_of_unescape body).1 t meant
  · exact fun means => ⟨_, means.unescape, Utf8.decode_encode text⟩

end Cutover.Json
