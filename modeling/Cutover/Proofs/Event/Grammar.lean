import Cutover.Proofs.Event.Wire
import Cutover.Proofs.Json.Record

/-! Messages that are events, told from those that are none. An event is a record of an id, a direction and a type,
and nothing else that a queue may carry is taken for one. -/
namespace Cutover

theorem Side.ofLabel?_eq_some_iff {text : String} {s : Side} : Side.ofLabel? text = some s ↔ text = s.label := by
  constructor
  · intro found
    exact (beq_iff_eq.mp (List.find?_some (p := fun s : Side => s.label == text) found)).symm
  · rintro rfl
    exact Event.ofLabel?_label s

theorem Drift.ofName?_eq_some_iff {text : String} {d : Drift} : Drift.ofName? text = some d ↔ text = d.name := by
  constructor
  · intro found
    exact (beq_iff_eq.mp (List.find?_some (p := fun d : Drift => d.name == text) found)).symm
  · rintro rfl
    exact Event.ofName?_name d

namespace Event

open Json

/-- The values of the fields of an event. The id is the plain numeral: no other literal of a number is an integer
of 64 bits. -/
structure Parts (e : Event) (id direction drift : Raw) : Prop where
  id : id = .number (numeral e.id.toInt)
  direction : Names e.direction.label direction
  drift : Names e.drift.name drift

/-- What is taken for an event: its three fields in order, or each of them once under its name, among any others. -/
def Denotes (e : Event) (r : Raw) : Prop :=
  ∃ id direction drift, Holds ["id", "direction", "type"] [id, direction, drift] r ∧ Parts e id direction drift

theorem ofJson_eq_some_iff {r : Raw} {e : Event} : ofJson r = some e ↔ ∃ id direction drift,
    record fields r = some [some id, some direction, some drift] ∧ int64? id = some e.id ∧
      (choice? direction).bind Side.ofLabel? = some e.direction ∧
      (choice? drift).bind Drift.ofName? = some e.drift := by
  constructor
  · intro found
    obtain ⟨parts, recorded, going⟩ := Option.bind_eq_some_iff.mp found
    split at going
    next id direction drift =>
      obtain ⟨n, whole, going⟩ := Option.bind_eq_some_iff.mp going
      obtain ⟨side, directed, going⟩ := Option.bind_eq_some_iff.mp going
      obtain ⟨kind, typed, ⟨⟩⟩ := Option.bind_eq_some_iff.mp going
      exact ⟨id, direction, drift, recorded, whole, directed, typed⟩
    next => cases going
  · rintro ⟨id, direction, drift, recorded, whole, directed, typed⟩
    simp [ofJson, recorded, whole, directed, typed]

theorem parts_iff {e : Event} {id direction drift : Raw} {t u v : Octets} (first : Derives (.value id) t)
    (second : Derives (.value direction) u) (third : Derives (.value drift) v) :
    Parts e id direction drift ↔ int64? id = some e.id ∧ (choice? direction).bind Side.ofLabel? = some e.direction ∧
      (choice? drift).bind Drift.ofName? = some e.drift := by
  have directed : (choice? direction).bind Side.ofLabel? = some e.direction ↔ Names e.direction.label direction := by
    simp [Option.bind_eq_some_iff, choice?_eq_some_iff second, Side.ofLabel?_eq_some_iff]
  have typed : (choice? drift).bind Drift.ofName? = some e.drift ↔ Names e.drift.name drift := by
    simp [Option.bind_eq_some_iff, choice?_eq_some_iff third, Drift.ofName?_eq_some_iff]
  rw [int64?_eq_some_iff first, directed, typed]
  exact ⟨fun parts => ⟨parts.id, parts.direction, parts.drift⟩, fun ⟨id, direction, drift⟩ => ⟨id, direction, drift⟩⟩

theorem ofJson_iff_denotes {r : Raw} {t : Octets} (derived : Derives (.value r) t) {e : Event} :
    ofJson r = some e ↔ Denotes e r := by
  have required : ∀ f ∈ fields, f.presence = .required := by decide
  rw [ofJson_eq_some_iff]
  refine exists_congr fun id => exists_congr fun direction => exists_congr fun drift => ?_
  have recorded : record fields r = some [some id, some direction, some drift] ↔
      Holds ["id", "direction", "type"] [id, direction, drift] r := by
    rw [record_eq_some_iff required derived]
    constructor
    · rintro ⟨values, same, holds⟩
      obtain rfl : [id, direction, drift] = values := (List.map_inj_right fun _ _ => Option.some.inj).mp same
      exact holds
    · exact fun holds => ⟨_, rfl, holds⟩
  rw [recorded]
  refine and_congr_right fun holds => ?_
  have all := holds.derives derived
  obtain ⟨_, first⟩ := all id (by simp)
  obtain ⟨_, second⟩ := all direction (by simp)
  obtain ⟨_, third⟩ := all drift (by simp)
  exact (parts_iff first second third).symm

/-- A message is an event exactly if its whole text, but for blanks around it, is a value that denotes the event. It
is none if there is no such event. -/
theorem decode_exactly (message : List UInt8) :
    (∀ e, decode message = some e ↔ ∃ r, Derives (.padded r) message ∧ Denotes e r) ∧
      (decode message = none ↔ ¬∃ e r, Derives (.padded r) message ∧ Denotes e r) := by
  have taken : ∀ e, decode message = some e ↔ ∃ r, Derives (.padded r) message ∧ Denotes e r := by
    intro e
    rw [decode, Option.bind_eq_some_iff]
    refine exists_congr fun r => ?_
    rw [Raw.read_eq_some_iff]
    refine and_congr_right fun derived => ?_
    obtain ⟨t, value⟩ := derived.of_padded
    exact ofJson_iff_denotes value
  refine ⟨taken, ?_⟩
  rw [Option.eq_none_iff_forall_ne_some]
  simp only [ne_eq, taken, not_exists]

example : decode (Utf8.encode
    "\x7b\"x\": [\x7b\x7d], \"typ\\u0065\": \x7b\"neq\": null\x7d, \"direction\": \"SRC\", \"id\": -7\x7d ") =
    some ⟨-7, .src, .neq⟩ := by decide +kernel

end Event
end Cutover
