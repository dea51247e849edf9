import Cutover.Proofs.Json.Literal
import Cutover.Proofs.Json.Strings

/-! The grammar of JSON texts. A text is read as a value exactly if it is that value written in some way, blanks
before and behind it and wherever two marks meet. -/
namespace Cutover.Json

open Octet

/-- What may stand before and behind a value. -/
def Blank (w : Octets) : Prop := ∀ b ∈ w, isSpace b = true

/-- A name in its quotes. -/
inductive Named (key : Octets) : Octets → Prop
  | quoted {v w : Octets} (before : Blank v) (body : Body key) (after : Blank w) :
      Named key (v ++ quote :: (key ++ quote :: w))

/-- What a text can be derived from. -/
inductive Part where
  | value (r : Raw)
  /-- A value with what stands before and behind it. -/
  | padded (r : Raw)
  /-- What stands between brackets. -/
  | items (rs : List Raw)
  /-- What stands between braces. -/
  | members (ms : List (Octets × Raw))

/-- A value may be written with any literal for a number and any body for a string, also where nobody asks for their
meaning; arrays and objects may be nested as deep as one likes. -/
inductive Derives : Part → Octets → Prop
  | null : Derives (.value .null) (Utf8.encode "null")
  | true : Derives (.value (.bool true)) (Utf8.encode "true")
  | false : Derives (.value (.bool false)) (Utf8.encode "false")
  | number {s : Octets} (literal : Literal s) : Derives (.value (.number s)) s
  | string {s : Octets} (body : Body s) : Derives (.value (.string s)) (quote :: (s ++ [quote]))
  | emptyArray {w : Octets} (blank : Blank w) : Derives (.value (.array [])) (openBracket :: (w ++ [closeBracket]))
  | array {rs : List Raw} {s : Octets} (items : Derives (.items rs) s) :
      Derives (.value (.array rs)) (openBracket :: (s ++ [closeBracket]))
  | emptyObject {w : Octets} (blank : Blank w) : Derives (.value (.object [])) (openBrace :: (w ++ [closeBrace]))
  | object {ms : List (Octets × Raw)} {s : Octets} (members : Derives (.members ms) s) :
      Derives (.value (.object ms)) (openBrace :: (s ++ [closeBrace]))
  | padded {r : Raw} {v s w : Octets} (before : Blank v) (value : Derives (.value r) s) (after : Blank w) :
      Derives (.padded r) (v ++ (s ++ w))
  | item {r : Raw} {s : Octets} (last : Derives (.padded r) s) : Derives (.items [r]) s
  | items {r : Raw} {rs : List Raw} {s t : Octets} (first : Derives (.padded r) s) (others : Derives (.items rs) t) :
      Derives (.items (r :: rs)) (s ++ comma :: t)
  | member {key k s : Octets} {r : Raw} (name : Named key k) (last : Derives (.padded r) s) :
      Derives (.members [(key, r)]) (k ++ colon :: s)
  | members {key k s t : Octets} {r : Raw} {ms : List (Octets × Raw)} (name : Named key k)
      (first : Derives (.padded r) s) (others : Derives (.members ms) t) :
      Derives (.members ((key, r) :: ms)) (k ++ colon :: (s ++ comma :: t))

namespace Raw

theorem skipSpace_cons {b : UInt8} (visible : isSpace b = false) (rest : Octets) :
    skipSpace (b :: rest) = b :: rest := by
  simp [skipSpace, visible]

theorem skipSpace_blank {w : Octets} (blank : Blank w) (rest : Octets) : skipSpace (w ++ rest) = skipSpace rest :=
  List.dropWhile_append_of_pos blank

/-- What is skipped is blank. -/
theorem skipped (bytes : Octets) : ∃ w, Blank w ∧ bytes = w ++ skipSpace bytes :=
  ⟨bytes.takeWhile isSpace, List.all_eq_true.mp List.all_takeWhile, List.takeWhile_append_dropWhile.symm⟩

theorem skipSpace_skipSpace (bytes : Octets) : skipSpace (skipSpace bytes) = skipSpace bytes := by
  obtain ⟨w, blank, split⟩ := skipped bytes
  rw [← skipSpace_blank blank, ← split]

theorem value_skipSpace (fuel : Nat) (bytes : Octets) : value fuel (skipSpace bytes) = value fuel bytes := by
  cases fuel with
  | zero => rfl
  | succ => rw [value, value, skipSpace_skipSpace]

theorem items_skipSpace (fuel : Nat) (bytes : Octets) : items fuel (skipSpace bytes) = items fuel bytes := by
  cases fuel with
  | zero => rfl
  | succ => rw [items, items, value_skipSpace]

theorem members_skipSpace (fuel : Nat) (bytes : Octets) : members fuel (skipSpace bytes) = members fuel bytes := by
  cases fuel with
  | zero => rfl
  | succ => rw [members, members, skipSpace_skipSpace]

theorem after_append (expected rest : Octets) : after expected (expected ++ rest) = some rest := by
  simp [after]

theorem after_sound {expected bytes rest : Octets} (found : after expected bytes = some rest) :
    bytes = expected ++ rest := by
  obtain ⟨starts, ⟨⟩⟩ := Option.ite_none_right_eq_some.mp found
  obtain ⟨more, rfl⟩ := List.isPrefixOf_iff_prefix.mp starts
  rw [List.drop_left]

theorem members_named {key k : Octets} (name : Named key k) (fuel : Nat) (rest : Octets) :
    members (fuel + 1) (k ++ colon :: rest) = (value fuel rest).bind fun (first, behind) =>
      match skipSpace behind with
      | comma :: rest => (members fuel rest).map fun (found, rest) => ((key, first) :: found, rest)
      | closeBrace :: rest => some ([(key, first)], rest)
      | _ => none := by
  obtain ⟨before, body, after⟩ := name
  have colon : skipSpace (_ ++ colon :: rest) = colon :: rest :=
    (skipSpace_blank after _).trans (skipSpace_cons rfl _)
  simp only [List.append_assoc, List.cons_append]
  rw [members, skipSpace_blank before, skipSpace_cons rfl]
  refine (congrArg (Option.bind · _) (stringBody_append body _)).trans ?_
  simp only [Option.bind_some, colon]
  rfl

/-- What is read as members starts with a name. -/
theorem named_of_members {fuel : Nat} {bytes rest : Octets} {ms : List (Octets × Raw)}
    (found : members (fuel + 1) bytes = some (ms, rest)) :
    ∃ key k behind, Named key k ∧ bytes = k ++ colon :: behind := by
  obtain ⟨v, before, outside⟩ := skipped bytes
  rw [members] at found
  split at found
  next named =>
    obtain ⟨⟨key, behind⟩, closing, going⟩ := Option.bind_eq_some_iff.mp found
    obtain ⟨body, spelled⟩ := stringBody_sound closing
    obtain ⟨w, after, inside⟩ := skipped behind
    dsimp only at going
    split at going
    next vs marked =>
      refine ⟨key, _, vs, .quoted before body after, ?_⟩
      rw [outside, named, spelled, inside, marked]
      simp
    next => cases going
  next => cases found

section Soundness

variable {bytes rest : Octets} {fuel : Nat}

/-- A value that was read, with the blanks before it and those behind it that are still to be skipped. -/
theorem padded_of_value {r : Raw} (read : ∃ w s, Blank w ∧ Derives (.value r) s ∧ bytes = w ++ (s ++ rest)) :
    ∃ s, Derives (.padded r) s ∧ bytes = s ++ skipSpace rest := by
  obtain ⟨v, s, before, value, rfl⟩ := read
  obtain ⟨w, after, split⟩ := skipped rest
  refine ⟨v ++ (s ++ w), .padded before value after, ?_⟩
  conv_lhs => rw [split]
  simp only [List.append_assoc]

mutual

theorem value_sound : ∀ {fuel : Nat} {bytes rest : Octets} {r : Raw}, value fuel bytes = some (r, rest) →
    ∃ w s, Blank w ∧ Derives (.value r) s ∧ bytes = w ++ (s ++ rest)
  | fuel + 1, bytes, rest, r, found => by
    obtain ⟨w, blank, split⟩ := skipped bytes
    suffices ∃ s, Derives (.value r) s ∧ skipSpace bytes = s ++ rest by
      obtain ⟨s, value, same⟩ := this
      exact ⟨w, s, blank, value, by rw [← same, ← split]⟩
    rw [value] at found
    -- One case for each octet that a value can start with.
    split at found
    next same =>
      obtain ⟨⟨body, rest⟩, read, ⟨⟩⟩ := Option.map_eq_some_iff.mp found
      obtain ⟨body, rfl⟩ := stringBody_sound read
      exact ⟨_, .string body, by simp [same]⟩
    next inner same =>
      split at found
      next closed =>
        obtain ⟨v, empty, inside⟩ := skipped inner
        cases found
        exact ⟨_, .emptyArray empty, by rw [same, inside, closed]; simp⟩
      next =>
        obtain ⟨⟨rs, _⟩, read, ⟨⟩⟩ := Option.map_eq_some_iff.mp found
        rw [items_skipSpace] at read
        obtain ⟨s, items, rfl⟩ := items_sound read
        exact ⟨_, .array items, by rw [same]; simp⟩
    next inner same =>
      split at found
      next closed =>
        obtain ⟨v, empty, inside⟩ := skipped inner
        cases found
        exact ⟨_, .emptyObject empty, by rw [same, inside, closed]; simp⟩
      next =>
        obtain ⟨⟨ms, _⟩, read, ⟨⟩⟩ := Option.map_eq_some_iff.mp found
        rw [members_skipSpace] at read
        obtain ⟨s, members, rfl⟩ := members_sound read
        exact ⟨_, .object members, by rw [same]; simp⟩
    next same =>
      obtain ⟨_, read, ⟨⟩⟩ := Option.map_eq_some_iff.mp found
      exact ⟨_, .null, by rw [same, after_sound read]; rfl⟩
    next same =>
      obtain ⟨_, read, ⟨⟩⟩ := Option.map_eq_some_iff.mp found
      exact ⟨_, .true, by rw [same, after_sound read]; rfl⟩
    next same =>
      obtain ⟨_, read, ⟨⟩⟩ := Option.map_eq_some_iff.mp found
      exact ⟨_, .false, by rw [same, after_sound read]; rfl⟩
    next =>
      obtain ⟨⟨s, rest⟩, read, ⟨⟩⟩ := Option.map_eq_some_iff.mp found
      obtain ⟨literal, same⟩ := spelling_sound read
      exact ⟨_, .number literal, same⟩

theorem items_sound : ∀ {fuel : Nat} {bytes rest : Octets} {rs : List Raw}, items fuel bytes = some (rs, rest) →
    ∃ s, Derives (.items rs) s ∧ bytes = s ++ closeBracket :: rest
  | fuel + 1, bytes, rest, rs, found => by
    rw [items] at found
    obtain ⟨⟨r, behind⟩, read, going⟩ := Option.bind_eq_some_iff.mp found
    obtain ⟨s, first, shape⟩ := padded_of_value (value_sound read)
    dsimp only at going
    split at going
    next same =>
      obtain ⟨⟨others, _⟩, more, ⟨⟩⟩ := Option.map_eq_some_iff.mp going
      obtain ⟨t, others, rfl⟩ := items_sound more
      exact ⟨_, .items first others, by simp [shape, same]⟩
    next same =>
      cases going
      exact ⟨_, .item first, by simp [shape, same]⟩
    next => cases going

theorem members_sound : ∀ {fuel : Nat} {bytes rest : Octets} {ms : List (Octets × Raw)},
    members fuel bytes = some (ms, rest) → ∃ s, Derives (.members ms) s ∧ bytes = s ++ closeBrace :: rest
  | fuel + 1, bytes, rest, ms, found => by
    obtain ⟨key, k, vs, name, rfl⟩ := named_of_members found
    rw [members_named name] at found
    obtain ⟨⟨r, behind⟩, read, going⟩ := Option.bind_eq_some_iff.mp found
    obtain ⟨s, first, rfl⟩ := padded_of_value (value_sound read)
    dsimp only at going
    split at going
    next same =>
      obtain ⟨⟨others, _⟩, more, ⟨⟩⟩ := Option.map_eq_some_iff.mp going
      obtain ⟨t, others, rfl⟩ := members_sound more
      exact ⟨_, .members name first others, by simp [same]⟩
    next same =>
      cases going
      exact ⟨_, .member name first, by simp [same]⟩
    next => cases going

end
end Soundness

section Completeness

variable {fuel : Nat} {bs rest key : Octets}

theorem stops_of_isSpace {b : UInt8} (space : isSpace b = true) (rest : Octets) : Stops (b :: rest) := by
  simp only [isSpace, Bool.or_eq_true, beq_iff_eq] at space
  rcases space with ((rfl | rfl) | rfl) | rfl <;> exact stops_cons rfl (by decide) (by decide) rest

/-- What can follow a value: nothing, or a mark. -/
inductive Ends : Octets → Prop
  | nil : Ends []
  | mark {b : UInt8} (mark : b = comma ∨ b = closeBracket ∨ b = closeBrace) (rest : Octets) : Ends (b :: rest)

theorem Ends.skipSpace_append {w rest : Octets} (blank : Blank w) (ends : Ends rest) :
    skipSpace (w ++ rest) = rest := by
  rw [skipSpace_blank blank]
  cases ends with
  | nil => rfl
  | mark mark => exact skipSpace_cons (by rcases mark with rfl | rfl | rfl <;> rfl) _

theorem Ends.stops {w rest : Octets} (blank : Blank w) (ends : Ends rest) : Stops (w ++ rest) := by
  cases w with
  | nil =>
    cases ends with
    | nil => exact stops_nil
    | mark mark => rcases mark with rfl | rfl | rfl <;> exact stops_cons rfl (by decide) (by decide) _
  | cons b w => exact stops_of_isSpace (blank b List.mem_cons_self) _

/-- The first octet of a number is like no other. -/
theorem ne_of_head {b : UInt8} (head : isDigit b = true ∨ b = minus) (c : UInt8)
    (letter : isDigit c = false) (sign : c ≠ minus) : b ≠ c := by
  rintro rfl
  rcases head with digit | rfl
  · simp [digit] at letter
  · exact sign rfl

theorem visible_of_head {b : UInt8} (head : isDigit b = true ∨ b = minus) : isSpace b = false := by
  have apart := ne_of_head head
  simp [isSpace, apart 0x20 rfl (by decide), apart 0x0a rfl (by decide), apart 0x09 rfl (by decide),
    apart 0x0d rfl (by decide)]

/-- What starts like a number is read as one. -/
theorem value_of_head {b : UInt8} (fuel : Nat) (bs : Octets) (head : isDigit b = true ∨ b = minus) :
    value (fuel + 1) (b :: bs) = (spelling (b :: bs)).map fun (found, rest) => (.number found, rest) := by
  have apart : ∀ c, isDigit c = false → c ≠ minus → b ≠ c := ne_of_head head
  rw [value, skipSpace_cons (visible_of_head head)]
  split
  next same => exact absurd (by injection same) (apart quote rfl (by decide))
  next same => exact absurd (by injection same) (apart openBracket rfl (by decide))
  next same => exact absurd (by injection same) (apart openBrace rfl (by decide))
  next same => exact absurd (by injection same) (apart letterN rfl (by decide))
  next same => exact absurd (by injection same) (apart letterT rfl (by decide))
  next same => exact absurd (by injection same) (apart letterF rfl (by decide))
  next => rfl

theorem value_of_close (closed : skipSpace bs = closeBracket :: rest) : value fuel bs = none := by
  cases fuel with
  | zero => rfl
  | succ =>
    rw [value, closed]
    rfl

theorem items_of_close (closed : skipSpace bs = closeBracket :: rest) : items fuel bs = none := by
  cases fuel with
  | zero => rfl
  | succ =>
    rw [items, value_of_close closed]
    rfl

theorem members_of_close (closed : skipSpace bs = closeBrace :: rest) : members fuel bs = none := by
  cases fuel with
  | zero => rfl
  | succ =>
    rw [members, closed]
    rfl

theorem value_openBracket (fuel : Nat) (bs : Octets) : value (fuel + 1) (openBracket :: bs) =
    match skipSpace bs with
    | closeBracket :: rest => some (.array [], rest)
    | rest => (items fuel rest).map fun (found, rest) => (.array found, rest) := by
  rw [value, skipSpace_cons rfl]
  rfl

theorem value_openBrace (fuel : Nat) (bs : Octets) : value (fuel + 1) (openBrace :: bs) =
    match skipSpace bs with
    | closeBrace :: rest => some (.object [], rest)
    | rest => (members fuel rest).map fun (found, rest) => (.object found, rest) := by
  rw [value, skipSpace_cons rfl]
  rfl

theorem value_array {rs : List Raw} (found : items fuel bs = some (rs, rest)) :
    value (fuel + 1) (openBracket :: bs) = some (.array rs, rest) := by
  rw [value_openBracket]
  split
  next closed => rw [items_of_close closed] at found; cases found
  next => rw [items_skipSpace, found]; rfl

theorem value_object {ms : List (Octets × Raw)} (found : members fuel bs = some (ms, rest)) :
    value (fuel + 1) (openBrace :: bs) = some (.object ms, rest) := by
  rw [value_openBrace]
  split
  next closed => rw [members_of_close closed] at found; cases found
  next => rw [members_skipSpace, found]; rfl

/-- What a part is read as. The reader goes down at most as often as there are octets. -/
def Reads : Part → Octets → Prop
  | .value r, s => ∀ fuel rest, s.length ≤ fuel → Stops rest → value fuel (s ++ rest) = some (r, rest)
  | .padded r, s => ∀ fuel rest, s.length ≤ fuel → Ends rest →
      ∃ behind, value fuel (s ++ rest) = some (r, behind) ∧ skipSpace behind = rest
  | .items rs, s => ∀ fuel rest, s.length < fuel → items fuel (s ++ closeBracket :: rest) = some (rs, rest)
  | .members ms, s => ∀ fuel rest, s.length < fuel → members fuel (s ++ closeBrace :: rest) = some (ms, rest)

namespace Reads

variable {r : Raw} {rs : List Raw} {ms : List (Octets × Raw)} {s t k : Octets}

theorem of_succ (some : s ≠ []) (read : ∀ fuel rest, s.length ≤ fuel + 1 → Stops rest →
    Raw.value (fuel + 1) (s ++ rest) = .some (r, rest)) : Reads (.value r) s := by
  rintro (_ | fuel) rest enough stops
  · exact absurd (List.length_eq_zero_iff.mp (Nat.le_zero.mp enough)) some
  · exact read fuel rest enough stops

theorem word {b : UInt8} {more : Octets} (opens : ∀ fuel bs,
    Raw.value (fuel + 1) (b :: bs) = (after more bs).map fun rest => (r, rest)) : Reads (.value r) (b :: more) := by
  refine of_succ (List.cons_ne_nil _ _) fun fuel rest _ _ => ?_
  rw [List.cons_append, opens, after_append, Option.map_some]

theorem number (literal : Literal s) : Reads (.value (.number s)) s := by
  obtain ⟨b, t, rfl, head⟩ := literal.head
  refine of_succ (List.cons_ne_nil _ _) fun fuel rest _ stops => ?_
  rw [List.cons_append, value_of_head fuel _ head, ← List.cons_append, spelling_append literal stops, Option.map_some]

theorem string (body : Body s) : Reads (.value (.string s)) (quote :: (s ++ [quote])) := by
  refine of_succ (List.cons_ne_nil _ _) fun fuel rest _ _ => ?_
  have read := stringBody_append body rest
  rw [List.cons_append, List.append_assoc, List.singleton_append, Raw.value, skipSpace_cons rfl]
  exact congrArg (Option.map _) read

theorem emptyArray {w : Octets} (blank : Blank w) :
    Reads (.value (.array [])) (openBracket :: (w ++ [closeBracket])) := by
  refine of_succ (List.cons_ne_nil _ _) fun fuel rest _ _ => ?_
  have closed := (skipSpace_blank blank (closeBracket :: rest)).trans (skipSpace_cons rfl rest)
  rw [List.cons_append, List.append_assoc, List.singleton_append, value_openBracket, closed]
  rfl

theorem emptyObject {w : Octets} (blank : Blank w) :
    Reads (.value (.object [])) (openBrace :: (w ++ [closeBrace])) := by
  refine of_succ (List.cons_ne_nil _ _) fun fuel rest _ _ => ?_
  have closed := (skipSpace_blank blank (closeBrace :: rest)).trans (skipSpace_cons rfl rest)
  rw [List.cons_append, List.append_assoc, List.singleton_append, value_openBrace, closed]
  rfl

theorem array (held : Reads (.items rs) s) : Reads (.value (.array rs)) (openBracket :: (s ++ [closeBracket])) := by
  refine of_succ (List.cons_ne_nil _ _) fun fuel rest enough _ => ?_
  simp only [List.length_cons, List.length_append] at enough
  rw [List.cons_append, List.append_assoc]
  exact value_array (held fuel rest (by omega))

theorem object (held : Reads (.members ms) s) : Reads (.value (.object ms)) (openBrace :: (s ++ [closeBrace])) := by
  refine of_succ (List.cons_ne_nil _ _) fun fuel rest enough _ => ?_
  simp only [List.length_cons, List.length_append] at enough
  rw [List.cons_append, List.append_assoc]
  exact value_object (held fuel rest (by omega))

theorem padded {v w : Octets} (before : Blank v) (held : Reads (.value r) s) (after : Blank w) :
    Reads (.padded r) (v ++ (s ++ w)) := by
  intro fuel rest enough ends
  simp only [List.length_append] at enough
  refine ⟨w ++ rest, ?_, ends.skipSpace_append after⟩
  rw [← value_skipSpace, List.append_assoc, skipSpace_blank before, value_skipSpace, List.append_assoc]
  exact held fuel (w ++ rest) (by omega) (ends.stops after)

theorem item (last : Reads (.padded r) s) : Reads (.items [r]) s := by
  rintro (_ | fuel) rest enough
  · cases enough
  · obtain ⟨behind, held, closed⟩ := last fuel (closeBracket :: rest) (by omega) (.mark (by simp) rest)
    rw [Raw.items, held]
    simp only [Option.bind_eq_bind, Option.bind_some, closed]
    rfl

theorem items (first : Reads (.padded r) s) (others : Reads (.items rs) t) :
    Reads (.items (r :: rs)) (s ++ comma :: t) := by
  rintro (_ | fuel) rest enough
  · cases enough
  · simp only [List.length_append, List.length_cons] at enough
    obtain ⟨behind, held, more⟩ := first fuel (comma :: (t ++ closeBracket :: rest)) (by omega) (.mark (by simp) _)
    rw [List.append_assoc, List.cons_append, Raw.items, held]
    simp only [Option.bind_eq_bind, Option.bind_some, more]
    exact congrArg (Option.map _) (others fuel rest (by omega))

theorem member (name : Named key k) (last : Reads (.padded r) s) : Reads (.members [(key, r)]) (k ++ colon :: s) := by
  rintro (_ | fuel) rest enough
  · cases enough
  · simp only [List.length_append, List.length_cons] at enough
    obtain ⟨behind, held, closed⟩ := last fuel (closeBrace :: rest) (by omega) (.mark (by simp) rest)
    rw [List.append_assoc, List.cons_append, members_named name, held]
    simp only [Option.bind_some, closed]
    rfl

theorem members (name : Named key k) (first : Reads (.padded r) s) (others : Reads (.members ms) t) :
    Reads (.members ((key, r) :: ms)) (k ++ colon :: (s ++ comma :: t)) := by
  rintro (_ | fuel) rest enough
  · cases enough
  · simp only [List.length_append, List.length_cons] at enough
    obtain ⟨behind, held, more⟩ := first fuel (comma :: (t ++ closeBrace :: rest)) (by omega) (.mark (by simp) _)
    simp only [List.append_assoc, List.cons_append]
    rw [members_named name, held]
    simp only [Option.bind_some, more]
    exact congrArg (Option.map _) (others fuel rest (by omega))

end Reads

/-- What is derived is read, whatever may follow it. -/
theorem reads_of_derives {p : Part} {s : Octets} (derived : Derives p s) : Reads p s := by
  induction derived with
  | null =>
    refine Reads.word (b := letterN) fun fuel bs => ?_
    rw [value, skipSpace_cons rfl]
    rfl
  | true =>
    refine Reads.word (b := letterT) fun fuel bs => ?_
    rw [value, skipSpace_cons rfl]
    rfl
  | false =>
    refine Reads.word (b := letterF) fun fuel bs => ?_
    rw [value, skipSpace_cons rfl]
    rfl
  | number literal => exact .number literal
  | string body => exact .string body
  | emptyArray blank => exact .emptyArray blank
  | array _ held => exact .array held
  | emptyObject blank => exact .emptyObject blank
  | object _ held => exact .object held
  | padded before _ after held => exact .padded before held after
  | item _ last => exact .item last
  | items _ _ first others => exact .items first others
  | member name _ last => exact .member name last
  | members name _ _ first others => exact .members name first others

end Completeness

/-- A text is read as a value exactly if it can be derived from it. -/
theorem read_eq_some_iff {message : Octets} {r : Raw} : read message = some r ↔ Derives (.padded r) message := by
  constructor
  · intro found
    rw [read] at found
    split at found
    next rest read =>
      obtain ⟨last, ⟨⟩⟩ := Option.ite_none_right_eq_some.mp found
      obtain ⟨s, derived, rfl⟩ := padded_of_value (value_sound read)
      rwa [List.isEmpty_iff.mp last, List.append_nil]
    next => cases found
  · intro derived
    obtain ⟨behind, held, last⟩ := reads_of_derives derived (message.length + 1) [] (by omega) .nil
    rw [List.append_nil] at held
    rw [read, held]
    simp [last]

end Raw

end Cutover.Json
