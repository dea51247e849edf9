import Mathlib.Data.List.TakeDrop
import Mathlib.Data.List.TakeWhile
import Cutover.Http.Message
import Cutover.Proofs.Json.Quoting

/-! Paths as an address has them and as they are read back. Percent signs survive the writing, dots lead along
the path, and a target that was written for an address is read as it was meant. -/
namespace Cutover.Http

theorem span_append {p : UInt8 → Bool} {octets : List UInt8} (all : ∀ octet ∈ octets, p octet = true)
    {octet : UInt8} (ends : p octet = false) (rest : List UInt8) :
    (octets ++ octet :: rest).span p = (octets, octet :: rest) := by
  rw [List.span_eq_takeWhile_dropWhile, List.takeWhile_append_of_pos all, List.dropWhile_append_of_pos all,
    List.takeWhile_cons_of_neg (by simp [ends]), List.dropWhile_cons_of_neg (by simp [ends]), List.append_nil]

namespace Percent

theorem decode_cons {octet : UInt8} (other : octet ≠ sign) (rest : Octets) :
    decode (octet :: rest) = octet :: decode rest := by
  match rest with
  | [] | [_] => rfl
  | _ :: _ :: _ => rw [decode, if_neg other]

/-- A percent sign stands for itself unless two digits follow. -/
theorem decode_sign {rest : Octets} (apart : ∀ a b more, rest = a :: b :: more → Hex.pair? a b = none) :
    decode (sign :: rest) = sign :: decode rest := by
  match rest with
  | [] | [_] => rfl
  | a :: b :: more => simp [decode, apart a b more rfl]

theorem decode_pair {a b octet : UInt8} (pair : Hex.pair? a b = some octet) (rest : Octets) :
    decode (sign :: a :: b :: rest) = octet :: decode rest := by
  simp [decode, pair]

theorem pair?_digits : ∀ n < 0x100, Hex.pair? (hexDigit (n / 16)) (hexDigit (n % 16)) = some (UInt8.ofNat n) := by
  decide +kernel

theorem decode_escape (octet : UInt8) (rest : Octets) : decode (escape octet ++ rest) = octet :: decode rest := by
  have pair := pair?_digits octet.toNat octet.toNat_lt
  rw [UInt8.ofNat_toNat] at pair
  exact decode_pair pair rest

theorem length_decode_le (octets : Octets) : (decode octets).length ≤ octets.length := by
  fun_induction decode octets with
  | case1 | case2 | case3 => exact Nat.le_refl _
  | case4 a b rest octet pair ih =>
    simp only [List.length_cons]
    omega
  | case5 | case6 => exact Nat.succ_le_succ ‹_›

/-- What decoding does not shorten it does not change. -/
theorem decode_eq_self {octets : Octets} (whole : octets.length ≤ (decode octets).length) :
    decode octets = octets := by
  fun_induction decode octets with
  | case1 | case2 | case3 => rfl
  | case4 a b rest octet pair ih =>
    have := length_decode_le rest
    simp only [List.length_cons] at whole
    omega
  | case5 a b rest pair ih => rw [ih (Nat.le_of_succ_le_succ whole)]
  | case6 a b c rest other ih => rw [ih (Nat.le_of_succ_le_succ whole)]

@[simp] theorem encode_nil (literal : UInt8 → Bool) : encode literal [] = [] := rfl

theorem encode_cons (literal : UInt8 → Bool) (octet : UInt8) (rest : Octets) :
    encode literal (octet :: rest) =
      (if literal octet then [octet] else escape octet) ++ encode literal rest := List.flatMap_cons

/-- Writing leaves percent signs and digits as they are. -/
structure Leaves (literal : UInt8 → Bool) : Prop where
  sign : literal sign = true
  digit : ∀ octet, (Hex.value? octet).isSome = true → literal octet = true

variable {literal : UInt8 → Bool}

theorem decode_encode_cons {octet : UInt8} (other : octet ≠ sign) (rest : Octets) :
    decode (encode literal (octet :: rest)) = octet :: decode (encode literal rest) := by
  rw [encode_cons]
  split
  · exact decode_cons other _
  · exact decode_escape octet _

theorem isSome_of_pair? {a b octet : UInt8} (pair : Hex.pair? a b = some octet) :
    (Hex.value? a).isSome = true ∧ (Hex.value? b).isSome = true := by
  cases first : Hex.value? a <;> cases second : Hex.value? b <;> simp_all [Hex.pair?]

theorem value?_sign : Hex.value? sign = none := rfl

/-- No digits are made up behind a percent sign. -/
theorem pair?_encode {a b x y : UInt8} {rest more : Octets} (apart : Hex.pair? a b = none)
    (written : encode literal (a :: b :: rest) = x :: y :: more) : Hex.pair? x y = none := by
  rw [encode_cons, encode_cons] at written
  split at written
  · split at written
    · cases written
      exact apart
    · cases written
      simp [Hex.pair?, value?_sign]
  · cases written
    simp [Hex.pair?, value?_sign]

theorem decode_encode_singleton (octet : UInt8) : decode (encode literal [octet]) = [octet] := by
  rw [encode_cons]
  split
  · rfl
  · exact decode_escape octet []

/-- What is written with percent signs stands for what it stood for before: those that were there are not told
from those that are put there. -/
theorem decode_encode (leaves : Leaves literal) (octets : Octets) :
    decode (encode literal octets) = decode octets := by
  fun_induction decode octets with
  | case1 => rfl
  | case2 a => exact decode_encode_singleton a
  | case3 a b =>
    by_cases is : a = sign
    · subst is
      rw [encode_cons, if_pos leaves.sign, List.singleton_append, decode_sign, decode_encode_singleton]
      intro x y more written
      rw [encode_cons] at written
      split at written
      · cases written
      · cases written
        simp [Hex.pair?, value?_sign]
    · rw [decode_encode_cons is, decode_encode_singleton]
  | case4 a b rest octet pair ih =>
    obtain ⟨first, second⟩ := isSome_of_pair? pair
    rw [encode_cons, if_pos leaves.sign, encode_cons, if_pos (leaves.digit a first), encode_cons,
      if_pos (leaves.digit b second), ← ih]
    exact decode_pair pair _
  | case5 a b rest pair ih =>
    -- What stands behind a lone sign may itself be written with signs, but that makes it no digit.
    rw [encode_cons, if_pos leaves.sign, List.singleton_append, decode_sign, ih]
    intro x y more written
    exact pair?_encode pair written
  | case6 a b c rest other ih => rw [decode_encode_cons other, ih]

theorem mem_escape {octet x : UInt8} (member : x ∈ escape octet) : x = sign ∨ ∃ n < 16, x = hexDigit n := by
  have bound := octet.toNat_lt
  simp only [escape, List.mem_cons, List.not_mem_nil, or_false] at member
  rcases member with rfl | rfl | rfl
  · exact .inl rfl
  · exact .inr ⟨_, by omega, rfl⟩
  · exact .inr ⟨_, by omega, rfl⟩

/-- What holds of the sign, of digits and of all that stands for itself holds of what is written. -/
theorem forall_mem_encode {P : UInt8 → Prop} {octets : Octets} (mark : P sign)
    (digits : ∀ n < 16, P (hexDigit n)) (plain : ∀ octet ∈ octets, literal octet = true → P octet) :
    ∀ octet ∈ encode literal octets, P octet := by
  intro x member
  obtain ⟨octet, source, written⟩ := List.mem_flatMap.1 member
  split at written
  · obtain rfl := List.mem_singleton.1 written
    exact plain x source ‹_›
  · rcases mem_escape written with rfl | ⟨n, small, rfl⟩
    · exact mark
    · exact digits n small

@[simp] theorem encode_eq_nil {octets : Octets} : encode literal octets = [] ↔ octets = [] := by
  cases octets with
  | nil => simp
  | cons octet rest =>
    rw [encode_cons]
    split <;> simp [escape]

end Percent

namespace Url

open Target (slash question)

/-- Over the octets there are, one by one. -/
theorem forall_octet {P : UInt8 → Prop} (each : ∀ n < 0x100, P (UInt8.ofNat n)) (octet : UInt8) : P octet := by
  have here := each octet.toNat octet.toNat_lt
  rwa [UInt8.ofNat_toNat] at here

theorem leaves_path : Percent.Leaves literalInPath where
  sign := rfl
  digit := forall_octet (by decide +kernel)

theorem inPath_of_literal : ∀ octet, literalInPath octet = true →
    Target.inPath octet = true ∧ Target.isHigh octet = false :=
  forall_octet (by decide +kernel)

theorem inQuery_of_literal : ∀ octet, literalInQuery octet = true →
    Target.inQuery octet = true ∧ Target.isHigh octet = false :=
  forall_octet (by decide +kernel)

theorem inPath_encode (octets : Octets) : ∀ octet ∈ Percent.encode literalInPath octets,
    Target.inPath octet = true ∧ Target.isHigh octet = false :=
  Percent.forall_mem_encode ⟨rfl, rfl⟩ (by decide) fun octet _ => inPath_of_literal octet

theorem inQuery_encode (octets : Octets) : ∀ octet ∈ Percent.encode literalInQuery octets,
    Target.inQuery octet = true ∧ Target.isHigh octet = false :=
  Percent.forall_mem_encode ⟨rfl, rfl⟩ (by decide) fun octet _ => inQuery_of_literal octet

theorem slash_not_mem_encode {segment : Octets} (plain : slash ∉ segment) :
    slash ∉ Percent.encode literalInPath segment := by
  intro member
  refine Percent.forall_mem_encode (P := (· ≠ slash)) (by decide) (by decide) ?_ slash member rfl
  rintro octet there - rfl
  exact plain there

/-- Slashes and backslashes become slashes. -/
def toSlash (octet : UInt8) : UInt8 := if isSlash octet then slash else octet

/-- The segments of a path, without the slash that it begins with. -/
def parts (octets : Octets) : List Octets := (octets.map toSlash).splitOn slash

theorem normalize_slash (octets : Octets) :
    normalize (slash :: octets) =
      (walkAll [] (parts octets)).reverse.flatMap fun segment =>
        slash :: Percent.encode literalInPath segment := rfl

theorem map_toSlash {octets : Octets} (plain : ∀ octet ∈ octets, isSlash octet = false) :
    octets.map toSlash = octets := by
  conv_rhs => rw [← List.map_id octets]
  exact List.map_congr_left fun octet member => by simp [toSlash, plain octet member]

theorem slash_not_mem {octets : Octets} (plain : ∀ octet ∈ octets, isSlash octet = false) : slash ∉ octets :=
  fun member => absurd (plain slash member) (by decide)

theorem parts_append {word : Octets} (plain : ∀ octet ∈ word, isSlash octet = false) (rest : Octets) :
    parts (word ++ slash :: rest) = word :: parts rest := by
  rw [parts, List.map_append, map_toSlash plain]
  exact List.splitOn_append_cons_self_of_not_mem (slash_not_mem plain) _

theorem parts_plain {octets : Octets} (plain : ∀ octet ∈ octets, isSlash octet = false) :
    parts octets = [octets] := by
  rw [parts, map_toSlash plain]
  exact List.splitOn_eq_singleton (slash_not_mem plain)

theorem parts_ne_nil (octets : Octets) : parts octets ≠ [] := List.splitOn_ne_nil _ _

theorem slash_not_mem_splitOn (octets : Octets) : ∀ segment ∈ octets.splitOn slash, slash ∉ segment := by
  induction octets with
  | nil => simp
  | cons octet rest ih =>
    rw [List.splitOn_cons_eq_if_modifyHead]
    split
    · simpa using ih
    · rename_i other
      cases found : rest.splitOn slash with
      | nil => simp
      | cons head tail =>
        rw [found] at ih
        obtain ⟨first, others⟩ := List.forall_mem_cons.1 ih
        refine List.forall_mem_cons.2 ⟨fun member => ?_, others⟩
        rcases List.mem_cons.1 member with rfl | member
        · exact other (beq_self_eq_true slash)
        · exact first member

/-- Segments between slashes are told apart again. -/
theorem splitOn_append_flatMap {segment : Octets} {rest : List Octets} (plain : slash ∉ segment)
    (others : ∀ other ∈ rest, slash ∉ other) :
    (segment ++ rest.flatMap (slash :: ·)).splitOn slash = segment :: rest := by
  induction rest generalizing segment with
  | nil => rw [List.flatMap_nil, List.append_nil, List.splitOn_eq_singleton plain]
  | cons next more ih =>
    obtain ⟨first, others⟩ := List.forall_mem_cons.1 others
    rw [List.flatMap_cons, List.cons_append, List.splitOn_append_cons_self_of_not_mem plain, ih first others]

/-- A segment that leads along the path instead of being part of it. -/
def Dotted (segment : Octets) : Prop := isDots 1 segment = true ∨ isDots 2 segment = true

instance (segment : Octets) : Decidable (Dotted segment) := inferInstanceAs (Decidable (_ ∨ _))

theorem walk_plain {segment : Octets} (plain : ¬Dotted segment) (path : List Octets) (last : Bool) :
    walk path segment last = segment :: path := by
  obtain ⟨one, two⟩ := not_or.1 plain
  rw [walk, if_neg two, if_neg one]

theorem walk_last (path : List Octets) (segment : Octets) :
    ∃ below, walk path segment true = (if Dotted segment then [] else segment) :: below := by
  by_cases dotted : Dotted segment
  · rw [if_pos dotted, walk]
    split
    · exact ⟨path.tail, rfl⟩
    · rw [if_pos (dotted.resolve_right ‹_›)]
      exact ⟨path, rfl⟩
  · rw [if_neg dotted]
    exact ⟨path, walk_plain dotted path true⟩

theorem walkAll_cons (path : List Octets) (segment : Octets) {rest : List Octets} (more : rest ≠ []) :
    walkAll path (segment :: rest) = walkAll (walk path segment false) rest := by
  obtain ⟨next, rest, rfl⟩ := List.exists_cons_of_ne_nil more
  rfl

/-- Without dots the path is as long as it is written. -/
theorem walkAll_plain {segments : List Octets} (plain : ∀ segment ∈ segments, ¬Dotted segment)
    (path : List Octets) : walkAll path segments = segments.reverse ++ path := by
  induction segments generalizing path with
  | nil => rfl
  | cons segment rest ih =>
    obtain ⟨first, others⟩ := List.forall_mem_cons.1 plain
    by_cases more : rest = []
    · subst more
      exact walk_plain first path true
    · rw [walkAll_cons path segment more, walk_plain first, ih others]
      simp

/-- Wherever dots lead, the path ends with what stands last, or with nothing. -/
theorem walkAll_concat (path before : List Octets) (last : Octets) :
    ∃ below, walkAll path (before ++ [last]) = (if Dotted last then [] else last) :: below := by
  induction before generalizing path with
  | nil => exact walk_last path last
  | cons segment rest ih =>
    rw [List.cons_append, walkAll_cons path segment (by simp)]
    exact ih _

theorem mem_walk {path : List Octets} {segment : Octets} {last : Bool} {x : Octets}
    (member : x ∈ walk path segment last) : x = [] ∨ x = segment ∨ x ∈ path := by
  rw [walk] at member
  split at member
  · cases last
    · exact .inr (.inr (List.mem_of_mem_tail member))
    · rcases List.mem_cons.1 member with rfl | member
      · exact .inl rfl
      · exact .inr (.inr (List.mem_of_mem_tail member))
  · split at member
    · cases last
      · exact .inr (.inr member)
      · rcases List.mem_cons.1 member with rfl | member
        · exact .inl rfl
        · exact .inr (.inr member)
    · exact .inr (List.mem_cons.1 member)

theorem slash_not_mem_walkAll {path segments : List Octets} (above : ∀ x ∈ path, slash ∉ x)
    (ahead : ∀ x ∈ segments, slash ∉ x) : ∀ x ∈ walkAll path segments, slash ∉ x := by
  induction segments generalizing path with
  | nil => exact above
  | cons segment rest ih =>
    obtain ⟨first, others⟩ := List.forall_mem_cons.1 ahead
    have step (last : Bool) : ∀ x ∈ walk path segment last, slash ∉ x := by
      intro x member
      rcases mem_walk member with rfl | rfl | member
      · exact List.not_mem_nil
      · exact first
      · exact above x member
    by_cases more : rest = []
    · subst more
      exact step true
    · rw [walkAll_cons path segment more]
      exact ih (step false) others

/-- The segments of a path in its plain form, from the root on. -/
def landing (octets : Octets) : List Octets := (walkAll [] (parts octets)).reverse

theorem splitOn_normalize (octets : Octets) :
    (normalize (slash :: octets)).splitOn slash =
      [] :: (landing octets).map (Percent.encode literalInPath) := by
  have plain : ∀ segment ∈ (landing octets).map (Percent.encode literalInPath), slash ∉ segment := by
    intro written member
    obtain ⟨segment, found, rfl⟩ := List.mem_map.1 member
    have root : ∀ x ∈ ([] : List Octets), slash ∉ x := by simp
    have walked := slash_not_mem_walkAll root (slash_not_mem_splitOn (octets.map toSlash))
    exact slash_not_mem_encode (walked segment (List.mem_reverse.1 found))
  rw [← splitOn_append_flatMap List.not_mem_nil plain, normalize_slash, List.flatMap_map]
  rfl

theorem landing_ne_nil (octets : Octets) : landing octets ≠ [] := by
  obtain ⟨before, last, split⟩ := List.eq_nil_or_concat (parts octets) |>.resolve_left (parts_ne_nil octets)
  obtain ⟨below, walked⟩ := walkAll_concat [] before last
  rw [landing, split, List.concat_eq_append, walked]
  simp

theorem normalize_eq (octets : Octets) : ∃ rest, normalize (slash :: octets) = slash :: rest := by
  obtain ⟨first, others, walked⟩ := List.exists_cons_of_ne_nil (landing_ne_nil octets)
  rw [normalize_slash, ← landing, walked]
  exact ⟨_, rfl⟩

theorem inPath_normalize (octets : Octets) : ∀ octet ∈ normalize (slash :: octets),
    Target.inPath octet = true ∧ Target.isHigh octet = false := by
  intro octet member
  obtain ⟨segment, -, written⟩ := List.mem_flatMap.1 (normalize_slash octets ▸ member)
  rcases List.mem_cons.1 written with rfl | written
  · exact ⟨rfl, rfl⟩
  · exact inPath_encode segment octet written

/-! Addresses of a host, and what is asked of it. -/

def isBreak (octet : UInt8) : Bool := octet == 0x09 || octet == 0x0a || octet == 0x0d

/-- An address without the blanks behind it. -/
def trim (octets : Octets) : Octets := (octets.reverse.dropWhile isBlank).reverse

/-- What counts of the end of an address. -/
def tidy (octets : Octets) : Octets := (trim octets).filter (!isBreak ·)

/-- What of it belongs to the path. -/
def pathOf (octets : Octets) : Octets := (Target.dropFragment (tidy octets)).takeWhile (· != question)

/-- The target that is asked for, given what follows the slash behind a host. -/
def targetOf (octets : Octets) : Target where
  path := normalize (slash :: pathOf octets)
  query := match (Target.dropFragment (tidy octets)).dropWhile (· != question) with
    | [] => none
    | _ :: query => some (Percent.encode literalInQuery query)

/-- A host, as an address has it behind its scheme. -/
structure IsPlace (octets : Octets) : Prop where
  visible : ∀ octet ∈ octets, isBlank octet = false
  plain : ∀ octet ∈ octets, (isSlash octet || octet == question || octet == Target.hash) = false
  known : (authority octets).isSome = true

theorem visible_unbroken : ∀ octet, isBlank octet = false → (!isBreak octet) = true :=
  forall_octet (by decide +kernel)

theorem tidy_append {octets : Octets} (visible : ∀ octet ∈ octets, isBlank octet = false) (rest : Octets) :
    tidy (octets ++ slash :: rest) = octets ++ slash :: tidy rest := by
  have stops : (slash :: octets.reverse).dropWhile isBlank = slash :: octets.reverse := rfl
  have behind : (octets ++ slash :: rest).reverse.dropWhile isBlank =
      rest.reverse.dropWhile isBlank ++ slash :: octets.reverse := by
    rw [List.reverse_append, List.reverse_cons, List.append_assoc, List.singleton_append, List.dropWhile_append,
      stops]
    split <;> simp_all
  have unbroken : octets.filter (!isBreak ·) = octets :=
    List.filter_eq_self.2 fun octet member => visible_unbroken octet (visible octet member)
  rw [tidy, trim, behind, List.reverse_append, List.reverse_cons, List.reverse_reverse, List.append_assoc,
    List.filter_append, unbroken, List.singleton_append]
  rfl

theorem clean_append {octets : Octets} (visible : ∀ octet ∈ octets, isBlank octet = false) (rest : Octets) :
    clean (octets ++ slash :: rest) = octets ++ slash :: tidy rest := by
  have ahead : (octets ++ slash :: rest).dropWhile isBlank = octets ++ slash :: rest := by
    cases octets with
    | nil => rfl
    | cons octet more =>
      rw [List.cons_append, List.dropWhile_cons_of_neg]
      simp [visible octet List.mem_cons_self]
  rw [← tidy_append visible rest, clean, ahead]
  rfl

theorem pathOf_append {octets : Octets} (visible : ∀ octet ∈ octets, isBlank octet = false)
    (within : ∀ octet ∈ octets, octet ≠ question ∧ octet ≠ Target.hash) (rest : Octets) :
    pathOf (octets ++ slash :: rest) = octets ++ slash :: pathOf rest := by
  have no_hash : ∀ octet ∈ octets, (octet != Target.hash) = true :=
    fun octet member => bne_iff_ne.2 (within octet member).2
  have no_question : ∀ octet ∈ octets, (octet != question) = true :=
    fun octet member => bne_iff_ne.2 (within octet member).1
  rw [pathOf, tidy_append visible, Target.dropFragment, List.takeWhile_append_of_pos no_hash,
    List.takeWhile_cons_of_pos (by decide), List.takeWhile_append_of_pos no_question,
    List.takeWhile_cons_of_pos (by decide)]
  rfl

theorem trim_sublist (octets : Octets) : (trim octets).Sublist octets := by
  have dropped := (List.dropWhile_suffix isBlank (l := octets.reverse)).reverse
  rw [List.reverse_reverse] at dropped
  exact dropped.sublist

theorem pathOf_sublist_tidy (octets : Octets) : (pathOf octets).Sublist (tidy octets) :=
  (List.takeWhile_prefix _).sublist.trans (List.takeWhile_prefix _).sublist

theorem pathOf_sublist (octets : Octets) : (pathOf octets).Sublist octets :=
  ((pathOf_sublist_tidy octets).trans List.filter_sublist).trans (trim_sublist octets)

theorem dropWhile_isBlank {octets : Octets} :
    octets.dropWhile isBlank = octets ↔ ∀ octet ∈ octets.head?, isBlank octet = false := by
  cases octets with
  | nil => simp
  | cons octet rest =>
    cases blank : isBlank octet with
    | false => simp [blank]
    | true =>
      refine iff_of_false (fun same => ?_) (by simp [blank])
      have shorter := List.length_dropWhile_le isBlank rest
      rw [List.dropWhile_cons_of_pos blank] at same
      rw [same, List.length_cons] at shorter
      omega

theorem trim_eq_self {octets : Octets} :
    trim octets = octets ↔ ∀ octet ∈ octets.getLast?, isBlank octet = false := by
  rw [trim, List.reverse_eq_iff, dropWhile_isBlank, List.head?_reverse]

/-- Octets that belong to a path as they stand. -/
structure Plain (octets : Octets) : Prop where
  within : ∀ octet ∈ octets, octet ≠ question ∧ octet ≠ Target.hash ∧ isBreak octet = false
  ends : ∀ octet ∈ octets.getLast?, isBlank octet = false

theorem within_of_mem_pathOf {octets : Octets} {octet : UInt8} (member : octet ∈ pathOf octets) :
    octet ≠ question ∧ octet ≠ Target.hash ∧ isBreak octet = false := by
  have no_question := List.mem_takeWhile_imp member
  have ahead := (List.takeWhile_prefix _).mem member
  have no_hash := List.mem_takeWhile_imp ahead
  have kept := List.mem_filter.1 ((pathOf_sublist_tidy octets).mem member)
  exact ⟨bne_iff_ne.1 no_question, bne_iff_ne.1 no_hash, by simpa using kept.2⟩

theorem pathOf_eq_self {octets : Octets} : pathOf octets = octets ↔ Plain octets := by
  constructor
  · intro whole
    have trimmed : octets.length ≤ (trim octets).length := by
      have shorter := ((pathOf_sublist_tidy octets).trans List.filter_sublist).length_le
      rwa [whole] at shorter
    refine ⟨fun octet member => ?_, trim_eq_self.1 ((trim_sublist octets).eq_of_length_le trimmed)⟩
    rw [← whole] at member
    exact within_of_mem_pathOf member
  · rintro ⟨within, ends⟩
    have unbroken : ∀ octet ∈ octets, (!isBreak octet) = true := fun octet member => by
      rw [(within octet member).2.2]
      rfl
    rw [pathOf, tidy, trim_eq_self.2 ends, List.filter_eq_self.2 unbroken, Target.dropFragment,
      List.takeWhile_eq_self_iff.2 fun octet member => bne_iff_ne.2 (within octet member).2.1,
      List.takeWhile_eq_self_iff.2 fun octet member => bne_iff_ne.2 (within octet member).1]

theorem intercalate_parts (octets : Octets) : [slash].intercalate (parts octets) = octets.map toSlash :=
  List.intercalate_splitOn slash

/-- A segment that is not the only one is shorter than the path. -/
theorem length_add_le {octets : Octets} {before : List Octets} {last : Octets}
    (split : parts octets = before ++ [last]) : last.length + before.length ≤ octets.length := by
  have joined (before : List Octets) :
      last.length + before.length ≤ ([slash].intercalate (before ++ [last])).length := by
    induction before with
    | nil => rw [List.nil_append, List.intercalate_singleton, List.length_nil, Nat.add_zero]
    | cons segment rest ih =>
      rw [List.cons_append, List.intercalate_cons_of_ne_nil (by simp)]
      simp only [List.length_append, List.length_cons, List.length_nil]
      omega
  calc last.length + before.length
    _ ≤ ([slash].intercalate (parts octets)).length := split ▸ joined before
    _ = octets.length := by rw [intercalate_parts, List.length_map]

/-- What is a single segment has no slash in it. -/
theorem eq_of_parts {octets segment : Octets} (single : parts octets = [segment]) :
    segment = octets ∧ ∀ octet ∈ octets, isSlash octet = false := by
  have whole := intercalate_parts octets
  rw [single, List.intercalate_singleton] at whole
  have apart : slash ∉ octets.map toSlash := by
    rw [← whole]
    exact slash_not_mem_splitOn _ segment (by rw [← parts, single]; exact List.mem_cons_self)
  have plain : ∀ octet ∈ octets, isSlash octet = false := by
    intro octet member
    by_contra is
    refine apart (List.mem_map.2 ⟨octet, member, ?_⟩)
    rw [toSlash, if_pos (by simpa using is)]
  exact ⟨by rw [whole, map_toSlash plain], plain⟩

/-- A word that stands for itself wherever an address has it. -/
structure Word (octets : Octets) : Prop where
  visible : ∀ octet ∈ octets, isBlank octet = false
  within : ∀ octet ∈ octets, octet ≠ question ∧ octet ≠ Target.hash
  undivided : ∀ octet ∈ octets, isSlash octet = false
  undotted : ¬Dotted octets

theorem IsPlace.dropWhile {place : Octets} (is : IsPlace place) (rest : Octets) :
    (slash :: slash :: (place ++ slash :: rest)).dropWhile isSlash = place ++ slash :: rest := by
  cases place with
  | nil => cases is.known
  | cons octet more =>
    have plain := is.plain octet List.mem_cons_self
    simp only [Bool.or_eq_false_iff] at plain
    rw [List.dropWhile_cons_of_pos (by decide), List.dropWhile_cons_of_pos (by decide), List.cons_append,
      List.dropWhile_cons_of_neg (by simp [plain.1.1])]

theorem exists_ofOctets {place : Octets} (is : IsPlace place) (rest : Octets) :
    ∃ url, ofOctets (Utf8.encode "http://" ++ place ++ slash :: rest) = some url ∧
      url.target = targetOf rest := by
  obtain ⟨⟨host, port⟩, known⟩ := Option.isSome_iff_exists.1 is.known
  have visible : ∀ octet ∈ Utf8.encode "http://" ++ place, isBlank octet = false := by
    intro octet member
    have front : ∀ octet ∈ Utf8.encode "http://", isBlank octet = false := by decide +kernel
    exact (List.mem_append.1 member).elim (front octet) (is.visible octet)
  have scheme : (Utf8.encode "http://" ++ place ++ slash :: tidy rest).span (· != Target.colon) =
      (Utf8.encode "http", Target.colon :: slash :: slash :: (place ++ slash :: tidy rest)) := by
    have spelt : Utf8.encode "http://" = Utf8.encode "http" ++ Target.colon :: [slash, slash] := rfl
    have front : ∀ octet ∈ Utf8.encode "http", (octet != Target.colon) = true := by decide +kernel
    rw [spelt, List.append_assoc, List.append_assoc]
    exact span_append front (by decide) _
  have host_ends : (place ++ slash :: tidy rest).span (fun octet =>
      !(isSlash octet || octet == question || octet == Target.hash)) = (place, slash :: tidy rest) := by
    refine span_append (fun octet member => ?_) (by decide) _
    rw [is.plain octet member]
    rfl
  have lower : (Utf8.encode "http").map Target.lower = Utf8.encode "http" := rfl
  have path : (Target.dropFragment (slash :: tidy rest)).span (· != question) =
      (slash :: pathOf rest, (Target.dropFragment (tidy rest)).dropWhile (· != question)) :=
    List.span_eq_takeWhile_dropWhile _ _
  refine ⟨⟨host, looseHost host, port, targetOf rest⟩, ?_, rfl⟩
  rw [ofOctets, clean_append visible]
  simp only [scheme, lower, List.drop_one, List.tail_cons, is.dropWhile, host_ends, known, path, ne_eq,
    not_true_eq_false, decide_false, List.isEmpty_cons, Bool.or_false, Bool.false_eq_true, if_false]
  rfl

end Url

namespace Target

theorem encodeChar_low : ∀ octet, isHigh octet = false →
    String.utf8EncodeChar (Char.ofNat octet.toNat) = [octet] :=
  Url.forall_octet (by decide +kernel)

theorem decode_ascii {octets : Octets} (low : ∀ octet ∈ octets, isHigh octet = false) :
    (Utf8.decode octets).isSome = true := by
  have spelt : octets = Utf8.encode (String.ofList (octets.map fun octet => Char.ofNat octet.toNat)) := by
    rw [Json.encode_ofList]
    induction octets with
    | nil => rfl
    | cons octet rest ih =>
      obtain ⟨first, others⟩ := List.forall_mem_cons.1 low
      rw [List.map_cons, Json.octets_cons, ← ih others, encodeChar_low octet first]
      rfl
  rw [spelt, Utf8.decode_encode]
  rfl

theorem ne_of_inPath {octet : UInt8} (inPath : inPath octet = true) : octet ≠ question ∧ octet ≠ hash := by
  constructor <;> rintro rfl <;> exact absurd inPath (by decide)

theorem ne_of_inQuery {octet : UInt8} (inQuery : inQuery octet = true) : octet ≠ hash := by
  rintro rfl
  exact absurd inQuery (by decide)

/-- What follows a path. -/
def tail : Option Octets → Octets
  | none => []
  | some query => question :: query

variable {path : Octets} {query : Option Octets}

/-- What holds of the path, of the query and of the mark between them holds of a whole target. -/
theorem forall_mem_append_tail {P : UInt8 → Prop} (ahead : ∀ octet ∈ path, P octet) (mark : P question)
    (behind : ∀ octets ∈ query, ∀ octet ∈ octets, P octet) : ∀ octet ∈ path ++ tail query, P octet := by
  intro octet member
  rcases List.mem_append.1 member with member | member
  · exact ahead octet member
  · cases query with
    | none => cases member
    | some octets =>
      rcases List.mem_cons.1 member with rfl | member
      · exact mark
      · exact behind octets rfl octet member

theorem ofPath_append (rooted : path ≠ [])
    (ahead : ∀ octet ∈ path, inPath octet = true ∧ isHigh octet = false)
    (behind : ∀ octets ∈ query, ∀ octet ∈ octets, inQuery octet = true ∧ isHigh octet = false) :
    ofPath (path ++ tail query) = some ⟨path, query⟩ := by
  have whole : dropFragment (path ++ tail query) = path ++ tail query := by
    rw [dropFragment, List.takeWhile_eq_self_iff]
    exact forall_mem_append_tail (fun octet member => bne_iff_ne.2 (ne_of_inPath (ahead octet member).1).2)
      (by decide) fun octets is octet member => bne_iff_ne.2 (ne_of_inQuery (behind octets is octet member).1)
  have low : (Utf8.decode (path ++ tail query)).isSome = true :=
    decode_ascii (forall_mem_append_tail (fun octet member => (ahead octet member).2) rfl
      fun octets is octet member => (behind octets is octet member).2)
  have before : ∀ octet ∈ path, (octet != question) = true :=
    fun octet member => bne_iff_ne.2 (ne_of_inPath (ahead octet member).1).1
  have parted : (path ++ tail query).span (· != question) = (path, tail query) := by
    cases query with
    | none =>
      rw [tail, List.append_nil, List.span_eq_takeWhile_dropWhile, List.takeWhile_eq_self_iff.2 before,
        List.dropWhile_eq_nil_iff.2 before]
    | some octets => exact span_append before (by decide) octets
  have inside : path.all inPath = true := List.all_eq_true.2 fun octet member => (ahead octet member).1
  have after : ((tail query).drop 1).all inQuery = true := by
    cases query with
    | none => rfl
    | some octets => exact List.all_eq_true.2 fun octet member => (behind octets rfl octet member).1
  simp only [ofPath, whole, parted, inside, after, low, Bool.and_self, if_true]
  cases query <;> simp [tail, rooted]

end Target

/-- A target is read as it was meant, if it is not too long. -/
theorem Call.ofOctets_targetOctets {c : Call} {rest : List UInt8} (asked : c.url.target = Url.targetOf rest) :
    Target.ofOctets c.targetOctets =
      if c.targetOctets.length ≤ 65534 then some (Url.targetOf rest) else none := by
  have spelt : c.targetOctets = (Url.targetOf rest).path ++ Target.tail (Url.targetOf rest).query := by
    rw [Call.targetOctets, asked]
    rfl
  obtain ⟨more, rooted⟩ := Url.normalize_eq (Url.pathOf rest)
  have path : (Url.targetOf rest).path = Target.slash :: more := rooted
  have read : Target.ofPath c.targetOctets = some (Url.targetOf rest) := by
    rw [spelt]
    refine Target.ofPath_append (by simp [path]) (Url.inPath_normalize _) fun octets is octet member => ?_
    simp only [Url.targetOf] at is
    split at is
    · cases is
    · cases is
      exact Url.inQuery_encode _ octet member
  have spelt : c.targetOctets = Target.slash :: (more ++ Target.tail (Url.targetOf rest).query) := by
    rw [spelt, path, List.cons_append]
  have star : Target.slash ≠ Target.star := by decide
  rw [← read, Target.ofOctets, spelt]
  simp only [List.isEmpty_cons, Bool.false_or, decide_eq_true_eq, List.cons.injEq, star, false_and, if_false,
    List.head?_cons, if_true]
  split_ifs <;> first | rfl | omega

end Cutover.Http
