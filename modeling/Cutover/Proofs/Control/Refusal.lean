import Cutover.Proofs.Control.Roster
import Cutover.Proofs.Wire

/-! What a refusal leaves behind. Every request that leads to the scheduler is answered with success by
HTTP; where the answer says that it was not carried out, the pattern, the comparisons that were ever
started and the hold on them are as they were. -/
namespace Cutover

namespace Json

theorem length_numeral_le (n : Int64) : (numeral n.toInt).length ≤ 20 := by
  have low := n.le_toInt
  have high := n.toInt_lt
  have short (k : Nat) (bound : k < 10 ^ 19) : (digitsOf k).length ≤ 19 := by
    rw [digitsOf, List.length_map]
    exact (Nat.length_toDigits_le_iff (by decide) (by decide)).2 bound
  rw [numeral_eq]
  split
  · exact Nat.le_succ_of_le (short n.toInt.toNat (by omega))
  · exact Nat.succ_le_succ (short (-n.toInt).toNat (by omega))

end Json

namespace IncrementalStart

/-- A start is read back from its text. -/
theorem ofJson_text (s : IncrementalStart) :
    (Json.Raw.read (Utf8.encode s.toJson.text)).bind ofJson = some s := by
  rw [Json.read_text rfl, Option.bind_some, ofJson_written]

theorem length_text_le (s : IncrementalStart) : (Utf8.encode s.toJson.text).length ≤ 62 := by
  have utime := Json.length_numeral_le s.utime
  have interval := Json.length_numeral_le s.interval
  have names : (Json.octets (Json.quotedText "utime") ++
      Json.octets (Json.quotedText "interval")).length = 17 := by decide
  have marks : (String.utf8EncodeChar '\x7b').length = 1 ∧ (String.utf8EncodeChar ':').length = 1 ∧
      (String.utf8EncodeChar ',').length = 1 ∧ (String.utf8EncodeChar '\x7d').length = 1 :=
    ⟨rfl, rfl, rfl, rfl⟩
  rw [List.length_append] at names
  simp only [Json.text, Json.encode_ofList, IncrementalStart.toJson, Json.compact, Json.compactMembers,
    Json.octets_append, Json.octets_cons, Json.octets_nil, List.length_append, List.length_nil, marks,
    ← Json.numeral.eq_1]
  omega

end IncrementalStart

namespace Answer

@[simp] theorem isOk_okWith (data : Json) : (okWith data).isOk = true := rfl

@[simp] theorem isOk_ok : ok.isOk = true := rfl

end Answer

namespace Control

/-- The places of the scheduler. -/
def Place.governing : Place → Bool
  | .healthcheck | .metrics => false
  | _ => true

/-- Path and method of a request lead to a place of the scheduler. A name in the path may be any text. -/
structure Request.Reaches (r : Request) (p : Place) : Prop where
  place : placeOf r.target.segments = some p
  accepted : accepts p r.method = true
  governing : p.governing = true
  text : ∀ octets, p = .named octets → (Utf8.decode (Http.Percent.decode octets)).isSome = true

namespace Request

variable {r : Request} {p : Place}

theorem Reaches.route_eq (reaches : r.Reaches p) : route r = arrive r p := by
  rw [route, reaches.place]
  exact if_pos reaches.accepted

theorem Reaches.exists_command (reaches : r.Reaches p) : ∃ command, route r = .command command := by
  rw [reaches.route_eq]
  cases p with
  | healthcheck | metrics => cases reaches.governing
  | named octets =>
    obtain ⟨name, text⟩ := Option.isSome_iff_exists.1 (reaches.text octets rfl)
    exact ⟨commandNamed name, by rw [arrive, text]⟩
  | _ => exact ⟨_, rfl⟩

/-- A start that is sent as JSON arrives. -/
theorem extract_text {s : IncrementalStart} (declared : r.contentType = some "application/json")
    (body : r.body = Utf8.encode s.toJson.text) : r.extract = some s := by
  have json : Http.MediaType.ofText "application/json" = some ⟨"application", "json", none⟩ := by decide
  have short : ¬bodyLimit < r.body.length := by
    have := s.length_text_le
    rw [body, bodyLimit]
    omega
  have read := s.ofJson_text
  rw [← body] at read
  simp [extract, declared, json, short, read, Http.MediaType.isJson]

/-- A body is of no use if it cannot be made out, or time is to run backwards. -/
theorem incrementalStart_eq_none (r : Request) :
    incrementalStart r = none ↔ r.extract = none ∨ ∃ s, r.extract = some s ∧ s.interval < 0 := by
  rw [incrementalStart]
  cases r.extract with
  | none => simp
  | some s => simp [Option.filter, Int64.not_le]

end Request

/-- A move that leaves all as it is. -/
structure Plane.Unmoved {α : Type} (p : Plane) (m : Move α) : Prop where
  plane : m.plane = p
  orders : m.orders = []
  count : m.count = id

namespace Plane

variable {α β : Type} {p : Plane} {c : Circumstances} {e : SchedulerError}

theorem Unmoved.map {m : Move α} (unmoved : p.Unmoved m) (f : α → β) : p.Unmoved (m.map f) :=
  ⟨unmoved.plane, unmoved.orders, unmoved.count⟩

theorem unmoved_still (p : Plane) (result : α) : p.Unmoved (p.still result) := ⟨rfl, rfl, rfl⟩

/-- A router that does not follow is the only reason for a switch to fail. -/
theorem unmoved_switch {pattern : Pattern} (failed : (p.switch c pattern).result = .error e) :
    p.Unmoved (p.switch c pattern) := by
  simp only [switch, Scheduler.switch] at failed ⊢
  cases verdict : c.verdict pattern with
  | ok => simp [verdict] at failed
  | error cause => exact ⟨rfl, rfl, rfl⟩

theorem unmoved_startFull (failed : (p.startFull c).result = .error e) : p.Unmoved (p.startFull c) := by
  simp only [startFull, Scheduler.startFull] at failed ⊢
  cases closed : p.scheduler.closed with
  | true => exact ⟨rfl, rfl, rfl⟩
  | false => simp [closed, launched] at failed

theorem unmoved_startIncremental {utime : Int64} {interval : Duration}
    (failed : (p.startIncremental c utime interval).result = .error e) :
    p.Unmoved (p.startIncremental c utime interval) := by
  simp only [startIncremental, Scheduler.startIncremental] at failed ⊢
  cases closed : p.scheduler.closed with
  | true => exact ⟨rfl, rfl, rfl⟩
  | false => simp [closed, launched] at failed

theorem isOk_told {refusal : Answer} (no : refusal.isOk = false) (r : Except SchedulerError α) :
    (told refusal r).isOk = true ↔ ∃ a, r = .ok a := by
  cases r with
  | ok a => simp [told]
  | error e => simp [told, no]

theorem error_of_told {refusal : Answer} {r : Except SchedulerError α}
    (refused : (told refusal r).isOk = false) : ∃ e, r = .error e := by
  cases r with
  | ok => simp [told] at refused
  | error e => exact ⟨e, rfl⟩

/-- A command that was not carried out has changed nothing. -/
theorem unmoved_perform {command : Command} (refused : (p.perform c command).result.isOk = false) :
    p.Unmoved (p.perform c command) := by
  cases command with
  | switch pattern =>
    obtain ⟨e, failed⟩ := error_of_told refused
    exact (unmoved_switch failed).map _
  | startFull =>
    obtain ⟨e, failed⟩ := error_of_told refused
    exact (unmoved_startFull failed).map _
  | startIncremental start =>
    cases start with
    | none => exact p.unmoved_still _
    | some start =>
      obtain ⟨e, failed⟩ := error_of_told refused
      exact (unmoved_startIncremental failed).map _
  | unknownPattern name => exact p.unmoved_still _
  | stopFull | stopIncremental | status => simp [perform, Move.map, still] at refused

theorem perform_commandNamed (p : Plane) (c : Circumstances) (name : String) :
    let answer := (p.perform c (commandNamed name)).result
    (∃ q : Pattern, q.name = name ∧ (answer.isOk = true ↔ c.verdict q = .ok ())) ∨
      (∀ q : Pattern, q.name ≠ name) ∧ answer.isOk = false ∧ answer.code = 400001 ∧
        answer.data = .string name := by
  cases found : Pattern.ofName? name with
  | some q =>
    refine .inl ⟨q, (Pattern.ofName?_eq_some_iff name q).1 found, ?_⟩
    have no : Answer.notOk.isOk = false := rfl
    simp only [commandNamed, found, perform, Move.map, isOk_told no, switch, Scheduler.switch]
    cases c.verdict q <;> simp
  | none =>
    refine .inr ⟨fun q same => ?_, ?_⟩
    · rw [(Pattern.ofName?_eq_some_iff name q).2 same] at found
      cases found
    · simp only [commandNamed, found]
      exact ⟨rfl, rfl, rfl⟩

theorem code_startIncremental (p : Plane) (c : Circumstances) (start : Option IncrementalStart) :
    (p.perform c (.startIncremental start)).result.code = 501001 ↔ start = none := by
  cases start with
  | none => exact iff_of_true rfl rfl
  | some start =>
    refine iff_of_false ?_ (Option.some_ne_none start)
    simp only [perform, Move.map]
    generalize (p.startIncremental ..).result = r
    cases r <;> simp [told, Answer.ok, Answer.systemFail, Answer.plain]

end Plane

namespace Roster

theorem carry_of_unmoved {α : Type} {x : Roster} {m : Move α} (unmoved : x.plane.Unmoved m) :
    x.carry m = x := by
  rw [carry, unmoved.orders, unmoved.plane]
  rfl

/-- A request that leads to the scheduler is answered with success by HTTP, and if its answer says
otherwise, all comparisons, the hold on them and the pattern are as before and nothing is counted. A
pattern is switched to if the name is one of those and the router follows; any other is sent back. To
follow updates takes a body that can be made out and an interval that is not negative. -/
theorem refused_unchanged (x : Roster) (c : Circumstances) {r : Request} {p : Place}
    (reaches : r.Reaches p) :
    ∃ command, route r = .command command ∧
      let served := x.plane.serve c r command
      let answer := (x.plane.perform c command).result
      served.result = respond r.method answer ∧ served.result.status = 200 ∧
      (answer.isOk = false → x.carry served = x ∧ served.count = id) ∧
      (∀ octets name, p = .named octets → Utf8.decode (Http.Percent.decode octets) = some name →
        (∃ q : Pattern, q.name = name ∧ (answer.isOk = true ↔ c.verdict q = .ok ())) ∨
          (∀ q : Pattern, q.name ≠ name) ∧ answer.isOk = false ∧ answer.code = 400001 ∧
            answer.data = .string name) ∧
      (p = .startIncremental →
        (answer.code = 501001 ↔ r.extract = none ∨ ∃ s, r.extract = some s ∧ s.interval < 0) ∧
        ∀ s : IncrementalStart, r.contentType = some "application/json" →
          r.body = Utf8.encode s.toJson.text → r.extract = some s) := by
  obtain ⟨command, routed⟩ := reaches.exists_command
  refine ⟨command, routed, rfl, rfl, fun refused => ?_, ?_, ?_⟩
  · have unmoved := (Plane.unmoved_perform refused).map (respond r.method)
    exact ⟨carry_of_unmoved unmoved, unmoved.count⟩
  · rintro octets name rfl text
    rw [reaches.route_eq, arrive, text] at routed
    cases routed
    exact x.plane.perform_commandNamed c name
  · rintro rfl
    rw [reaches.route_eq] at routed
    cases routed
    exact ⟨(x.plane.code_startIncremental c _).trans r.incrementalStart_eq_none,
      fun s => Request.extract_text⟩

/-- Comparisons are under way, and the plane was shut down meanwhile. -/
def closing : Roster :=
  (start .srcFirst .standard).run [.startFull ⟨fun _ => .ok (), 0, fun _ => true⟩, .shutDown]

/-- A pattern that there is none of. -/
def misspelt : Request := ⟨"POST", ⟨Utf8.encode "/migrator/pattern/both", none⟩, none, []⟩

theorem refused_unchanged_misspelt :
    ∃ command, route misspelt = .command command ∧ ∀ c : Circumstances,
      (closing.plane.perform c command).result.data = .string "both" ∧
        closing.carry (closing.plane.serve c misspelt command) = closing := by
  have reaches : misspelt.Reaches (.named (Utf8.encode "both")) := ⟨rfl, rfl, rfl, by rintro _ ⟨⟩; rfl⟩
  refine ⟨.unknownPattern "both", rfl, fun c => ?_⟩
  obtain ⟨command, routed, -, -, unchanged, named, -⟩ := closing.refused_unchanged c reaches
  obtain rfl : .unknownPattern "both" = command := by
    rw [reaches.route_eq] at routed
    cases routed
    rfl
  rcases named _ "both" rfl rfl with ⟨q, same, -⟩ | ⟨-, refused, -, data⟩
  · cases q <;> simp [Pattern.name] at same
  · exact ⟨data, (unchanged refused).1⟩

end Roster
end Control
end Cutover
