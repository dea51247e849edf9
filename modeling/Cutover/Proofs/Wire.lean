import Cutover.Answer
import Cutover.Interactive
import Cutover.Proofs.Event.Wire

/-! All that travels as JSON: what the control plane and its clients say to each other, the records and
the events. Whatever is written is read back as itself. -/
namespace Cutover

namespace Json

theorem uint64?_numeral (n : UInt64) : uint64? (.number (numeral n.toNat)) = some n := by
  have bound := n.toNat_lt
  have fits : 0 ≤ (n.toNat : Int) ∧ (n.toNat : Int) < 0x10000000000000000 := by omega
  rw [uint64?, int?, intOf_numeral, Option.bind_some, if_pos fits, Int.toNat_natCast, UInt64.ofNat_toNat]

theorem int32?_numeral (n : Int32) : int32? (.number (numeral n.toInt)) = some n := by
  have low := n.le_toInt
  have high := n.toInt_lt
  simp only [int32?, int?, intOf_numeral, Option.bind_some]
  rw [if_pos (by omega), Int32.ofInt_toInt]

@[simp] theorem string?_body (s : String) : string? (.string (body s)) = some s := textOf_body s

end Json

namespace Pattern

theorem ofJson_written (p : Pattern) : ofJson (Json.written (.string p.name)) = some p := by
  simp [ofJson, Json.written, ofName?_eq_some_iff]

end Pattern

namespace Answer

theorem ofJson_written {a : Answer} (proper : a.data.Proper) (shallow : a.data.depth ≤ 126) :
    ofJson (Json.written a.toJson) = some a := by
  rw [ofJson, toJson, Json.record_written rfl (by decide)]
  simp [Json.written, Json.int32?_numeral, Json.ofRaw_written _ 126 proper shallow]

end Answer

namespace IncrementalStart

theorem ofJson_written (s : IncrementalStart) : ofJson (Json.written s.toJson) = some s := by
  rw [ofJson, toJson, Json.record_written rfl (by decide)]
  simp [Json.written, Json.int64?_numeral]

end IncrementalStart

namespace SessionReport

theorem ofJson_written (s : SessionReport) : ofJson (Json.written s.toJson) = some s := by
  rw [ofJson, toJson, Json.record_written rfl (by decide)]
  simp [Json.written, Json.uint64?_numeral, Json.int64?_numeral, Json.bool?]

end SessionReport

namespace Status

theorem option?_written (report : Option SessionReport) :
    Json.option? SessionReport.ofJson (some (Json.written (optional report))) = some report := by
  cases report with
  | none => rfl
  | some s =>
    have read := s.ofJson_written
    rw [SessionReport.toJson, Json.written] at read
    rw [optional, SessionReport.toJson, Json.written, Json.option?, read]
    · rfl
    · rintro ⟨⟩

theorem ofJson_written (s : Status) : ofJson (Json.written s.toJson) = some s := by
  rw [ofJson, toJson, Json.record_written rfl (by decide)]
  simp [Pattern.ofJson_written, option?_written]

end Status

namespace Interactive

theorem ofJson_written (e : Interactive) : ofJson (Json.written e.toJson) = some e := by
  rw [ofJson, toJson, Json.record_written rfl (by decide)]
  simp [Json.written, Json.int64?_numeral]

end Interactive

namespace Wire

/-- The types of values that travel. -/
inductive Kind where
  | pattern
  | answer
  | incrementalStart
  | sessionReport
  | status
  | record
  | event
  deriving DecidableEq

namespace Kind

@[reducible] def Value : Kind → Type
  | pattern => Pattern
  | answer => Answer
  | incrementalStart => IncrementalStart
  | sessionReport => SessionReport
  | status => Status
  | record => Interactive
  | event => Event

def toJson : (k : Kind) → k.Value → Json
  | pattern, p => .string p.name
  | answer, a => a.toJson
  | incrementalStart, s => s.toJson
  | sessionReport, s => s.toJson
  | status, s => s.toJson
  | record, e => e.toJson
  | event, e => e.toJson

def ofJson : (k : Kind) → Json.Raw → Option k.Value
  | pattern => Pattern.ofJson
  | answer => Answer.ofJson
  | incrementalStart => IncrementalStart.ofJson
  | sessionReport => SessionReport.ofJson
  | status => Status.ofJson
  | record => Interactive.ofJson
  | event => Event.ofJson

def encode (k : Kind) (x : k.Value) : Json.Octets := Utf8.encode (k.toJson x).text

def decode (k : Kind) (message : Json.Octets) : Option k.Value := (Json.Raw.read message).bind k.ofJson

/-- A message read and written again. -/
def rewrite (k : Kind) (message : Json.Octets) : Option Json.Octets := (k.decode message).map k.encode

/-- The data of an answer are bounded: in their numbers, and in their nesting, in which the answer itself
is one level. -/
def Fits : (k : Kind) → k.Value → Prop
  | answer, a => a.data.Proper ∧ a.data.depth + 1 ≤ 127
  | _, _ => True

variable {k : Kind} {x : k.Value}

theorem floatless_of_fits (fits : k.Fits x) : (k.toJson x).floatless = true := by
  cases k with
  | answer =>
    have data := Json.floatless_of_proper fits.1
    simp [toJson, Answer.toJson, Json.floatless, Json.floatlessMembers, data]
  | status =>
    obtain ⟨_, _ | _, _ | _⟩ := x <;> rfl
  | pattern | incrementalStart | sessionReport | record | event => rfl

theorem ofJson_written (fits : k.Fits x) : k.ofJson (Json.written (k.toJson x)) = some x := by
  cases k with
  | pattern => exact Pattern.ofJson_written x
  | answer => exact Answer.ofJson_written fits.1 (Nat.le_of_succ_le_succ fits.2)
  | incrementalStart => exact IncrementalStart.ofJson_written x
  | sessionReport => exact SessionReport.ofJson_written x
  | status => exact Status.ofJson_written x
  | record => exact Interactive.ofJson_written x
  | event => exact Event.ofJson_written x

theorem decode_encode (fits : k.Fits x) : k.decode (k.encode x) = some x := by
  rw [decode, encode, Json.read_text (floatless_of_fits fits), Option.bind_some, ofJson_written fits]

/-- What is written is read back as itself. So a message from elsewhere, however it is spelled, has one
form in which it is written again, and that form is kept from then on. -/
theorem round_trip (fits : k.Fits x) :
    k.decode (k.encode x) = some x ∧
      ∀ message, k.decode message = some x →
        k.rewrite message = some (k.encode x) ∧ k.rewrite (k.encode x) = some (k.encode x) := by
  have back := decode_encode fits
  refine ⟨back, fun message read => ?_⟩
  simp only [rewrite, read, back, Option.map_some, and_self]

/-- The largest number there may be, and a text with a line break and a character beyond the first plane. -/
def laden : Answer := ⟨0, "OK", .object [("a", .int 0xffffffffffffffff), ("b", .array [.string "\n😀"])]⟩

/-- The same answer: without its code, its fields and members in another order, with escapes, blanks and
a field that nobody knows. -/
def respelt : Json.Octets := Utf8.encode
  " \x7b\"data\": \x7b\"b\": [\"\\u000a\\ud83d\\ude00\"], \"a\": 18446744073709551615\x7d, \"x\": -0, \"msg\": \"\\u004fK\"\x7d\n"

theorem round_trip_laden : Fits .answer laden ∧ decode .answer respelt = some laden ∧
    decode .answer (encode .answer laden) = some laden ∧
      rewrite .answer respelt = some (encode .answer laden) := by
  have sorted : ["a", "b"].Pairwise (· < ·) := by decide
  have proper : laden.data.Proper :=
    ⟨sorted, by simp [Json.ProperMembers, Json.ProperItems, Json.Proper]⟩
  have fits : Fits .answer laden := ⟨proper, by decide⟩
  have read : decode .answer respelt = some laden := rfl
  obtain ⟨back, again⟩ := round_trip fits
  exact ⟨fits, read, back, (again respelt read).1⟩

end Kind

end Wire
end Cutover
