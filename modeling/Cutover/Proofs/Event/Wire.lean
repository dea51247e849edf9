import Cutover.Event
import Cutover.Proofs.Json.Record
import Cutover.Proofs.Json.Recovery

/-! Events on the wire. An event that is written is read back as itself, so that a queue that loses and
alters no message delivers the events that were published. -/
namespace Cutover

namespace Json

theorem choice?_body (s : String) : choice? (.string (body s)) = some s := textOf_body s

end Json

namespace Event

theorem ofLabel?_label (s : Side) : Side.ofLabel? s.label = some s := by cases s <;> decide

theorem ofName?_name (d : Drift) : Drift.ofName? d.name = some d := by cases d <;> decide

theorem ofJson_written (e : Event) : ofJson (Json.written e.toJson) = some e := by
  rw [ofJson, toJson, Json.record_written rfl (by decide)]
  simp [Json.written, Json.int64?_numeral, Json.choice?_body, ofLabel?_label, ofName?_name]

theorem decode_encode (e : Event) : decode e.encode = some e := by
  rw [decode, encode, Json.read_text rfl, Option.bind_some, ofJson_written]

end Event
end Cutover
