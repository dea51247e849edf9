import Cutover.Operator
import Cutover.Proofs.Control.Refusal
import Cutover.Proofs.Http.Path

/-! Switching by name, from the operator's command line to the control plane. A name that is no pattern's is put
into the address as it is given; so what the control plane gets to see is the name only if nothing in it means
anything to those who read addresses. -/
namespace Cutover

namespace Control

/-- What becomes of a plane that gets a request, and its response; `figures` shows what has been counted. -/
def Plane.receive (p : Plane) (c : Circumstances) (figures : Response) (r : Request) : Move Response :=
  match route r with
  | .command command => p.serve c r command
  | .healthcheck => p.still (healthy r.method)
  | .metrics => p.still figures
  | .notFound => p.still notFound
  | .notAllowed allow => p.still (notAllowed allow)
  | .badName => p.still badName

end Control

namespace Operator

open Http Control
open Target (slash)
open Url (parts pathOf Dotted)

/-- The place of a control plane that has a host to itself, slashes behind it left out. -/
structure At (plane : String) (place : List UInt8) : Prop where
  spelt : Utf8.encode (String.ofList (plane.toList.reverse.dropWhile (· == '/')).reverse) =
    Utf8.encode "http://" ++ place
  is : Url.IsPlace place

variable {plane : String} {place : List UInt8}

theorem exists_call (here : At plane place) (o : Operation) :
    ∃ c, call plane o = some c ∧ c.method = o.method ∧
      c.url.target = Url.targetOf (Utf8.encode "migrator" ++ slash :: Utf8.encode o.place) := by
  obtain ⟨url, read, target⟩ :=
    Url.exists_ofOctets here.is (Utf8.encode "migrator" ++ slash :: Utf8.encode o.place)
  have spelt : Utf8.encode (address plane o) =
      Utf8.encode "http://" ++ place ++ slash :: (Utf8.encode "migrator" ++ slash :: Utf8.encode o.place) := by
    have between : Utf8.encode "/migrator/" = slash :: (Utf8.encode "migrator" ++ [slash]) := rfl
    rw [address, Utf8.encode_append, Utf8.encode_append, here.spelt, between]
    simp
  rw [← spelt] at read
  exact ⟨_, by rw [call, Url.ofText, read, Option.map_some], rfl, target⟩

/-- The request that a call arrives as. -/
def request? (c : Http.Call) : Option Request :=
  (Target.ofOctets c.targetOctets).map fun target => ⟨c.method, target, c.contentType, c.body⟩

variable {name : String} {c : Http.Call}

theorem request?_eq {octets : List UInt8} (asked : c.url.target = Url.targetOf octets) :
    request? c = if c.targetOctets.length ≤ 65534 then
      some ⟨c.method, Url.targetOf octets, c.contentType, c.body⟩ else none := by
  rw [request?, Call.ofOctets_targetOctets asked]
  split <;> rfl

/-- The places that a call may be answered at. -/
def Finds (c : Http.Call) (place : Control.Place) : Prop :=
  ∃ r, request? c = some r ∧ placeOf r.target.segments = some place ∧ accepts place r.method = true

/-- What is left of a name in the path. -/
def kept (name : String) : List UInt8 := pathOf (Utf8.encode name)

/-- Where a name leads to, as a path kept backwards. -/
def walked (name : String) : List (List UInt8) :=
  Url.walkAll [Utf8.encode "pattern", Utf8.encode "migrator"] (parts (kept name))

/-- The segments that arrive when a name is asked for. -/
def arriving (name : String) : List (List UInt8) :=
  [] :: (walked name).reverse.map (Percent.encode Url.literalInPath)

theorem word_migrator : Url.Word (Utf8.encode "migrator") := by
  constructor <;> decide +kernel

theorem word_pattern : Url.Word (Utf8.encode "pattern") := by
  constructor <;> decide +kernel

theorem segments_targetOf (name : String) :
    (Url.targetOf (Utf8.encode "migrator" ++ slash :: Utf8.encode ("pattern/" ++ name))).segments =
      arriving name := by
  have spelt : Utf8.encode ("pattern/" ++ name) = Utf8.encode "pattern" ++ slash :: Utf8.encode name := by
    rw [Utf8.encode_append]
    rfl
  have path : pathOf (Utf8.encode "migrator" ++ slash :: Utf8.encode ("pattern/" ++ name)) =
      Utf8.encode "migrator" ++ slash :: (Utf8.encode "pattern" ++ slash :: kept name) := by
    rw [spelt, Url.pathOf_append word_migrator.visible word_migrator.within,
      Url.pathOf_append word_pattern.visible word_pattern.within]
    rfl
  rw [Target.segments, Url.targetOf, path, Url.splitOn_normalize, Url.landing,
    Url.parts_append word_migrator.undivided, Url.parts_append word_pattern.undivided,
    Url.walkAll_cons _ _ (List.cons_ne_nil _ _), Url.walk_plain word_migrator.undotted,
    Url.walkAll_cons _ _ (Url.parts_ne_nil _), Url.walk_plain word_pattern.undotted]
  rfl

/-- A name that reads the same to everybody: no mark divides it or ends it, it is not made of dots, and no percent
sign in it stands for an octet. -/
structure Straight (name : String) : Prop where
  plain : Url.Plain (Utf8.encode name)
  undivided : ∀ octet ∈ Utf8.encode name, Url.isSlash octet = false
  undotted : name ≠ "." ∧ name ≠ ".."
  unescaped : Percent.decode (Utf8.encode name) = Utf8.encode name

/-- The place that takes the name of a pattern, with a name of these octets. -/
def Names (octets : List UInt8) (place : Control.Place) : Prop :=
  ∃ written, place = .named written ∧ Percent.decode written = octets

theorem arriving_undotted (undotted : ∀ segment ∈ parts (kept name), ¬Dotted segment) :
    arriving name = [] :: Utf8.encode "migrator" :: Utf8.encode "pattern" ::
      (parts (kept name)).map (Percent.encode Url.literalInPath) := by
  rw [arriving, walked, Url.walkAll_plain undotted, List.reverse_append, List.reverse_reverse, List.map_append]
  rfl

/-- Without dots a call is answered at the one place, or nowhere. -/
theorem placeOf_undotted (undotted : ∀ segment ∈ parts (kept name), ¬Dotted segment) {place : Control.Place}
    (found : placeOf (arriving name) = some place) :
    place = .named (Percent.encode Url.literalInPath (kept name)) := by
  rw [arriving_undotted undotted] at found
  have short := length_of_placeOf found
  obtain ⟨segment, more, split⟩ := List.exists_cons_of_ne_nil (Url.parts_ne_nil (kept name))
  simp only [split, List.map_cons, List.length_cons, List.length_map] at short
  obtain rfl : more = [] := List.eq_nil_of_length_eq_zero (by omega)
  obtain ⟨rfl, -⟩ := Url.eq_of_parts split
  rw [split, List.map_singleton] at found
  rw [placeOf_pattern] at found
  split at found <;> cases found
  rfl

theorem Straight.kept_eq (straight : Straight name) : kept name = Utf8.encode name :=
  Url.pathOf_eq_self.2 straight.plain

theorem Straight.not_dotted (straight : Straight name) : ¬Dotted (Utf8.encode name) := by
  have dots {n : Nat} (dotted : Url.isDots n (Utf8.encode name) = true) :
      Utf8.encode name = List.replicate n Url.dot := by
    rw [← straight.unescaped]
    simpa using (Bool.and_eq_true_iff.1 dotted).2
  rintro (one | two)
  · exact straight.undotted.1 (Utf8.eq_of_encode (dots one))
  · exact straight.undotted.2 (Utf8.eq_of_encode (dots two))

theorem Straight.parts_eq (straight : Straight name) : parts (kept name) = [Utf8.encode name] := by
  rw [straight.kept_eq, Url.parts_plain straight.undivided]

/-- A name that reads the same to everybody arrives. -/
theorem placeOf_straight (straight : Straight name) (nonempty : name ≠ "") :
    placeOf (arriving name) = some (.named (Percent.encode Url.literalInPath (Utf8.encode name))) := by
  have undotted : ∀ segment ∈ parts (kept name), ¬Dotted segment := by
    simpa [straight.parts_eq] using straight.not_dotted
  have octets : Utf8.encode name ≠ [] := fun none => nonempty (Utf8.eq_of_encode none)
  rw [placeOf_eq_named, arriving_undotted undotted, straight.parts_eq]
  exact ⟨rfl, mt Percent.encode_eq_nil.1 octets⟩

theorem straight_empty : Straight "" where
  plain := ⟨by simp [Utf8.encode], by simp [Utf8.encode]⟩
  undivided := by simp [Utf8.encode]
  undotted := by decide
  unescaped := rfl

/-- What arrives last is what stands last in the name, or nothing. -/
theorem exists_last (name : String) : ∃ before last, parts (kept name) = before ++ [last] ∧
    (arriving name).getLast? = some (Percent.encode Url.literalInPath (if Dotted last then [] else last)) := by
  obtain ⟨before, last, split⟩ := (parts (kept name)).eq_nil_or_concat.resolve_left (Url.parts_ne_nil _)
  rw [List.concat_eq_append] at split
  obtain ⟨below, walk⟩ := Url.walkAll_concat [Utf8.encode "pattern", Utf8.encode "migrator"] before last
  refine ⟨before, last, split, ?_⟩
  rw [arriving, walked, split, walk, List.reverse_cons, List.map_append, ← List.cons_append, List.map_singleton,
    List.getLast?_append, List.getLast?_singleton, Option.some_or]

/-- Nothing is lost of a name that arrives: every step on the way can only shorten it. -/
theorem straight_of_names {place : Control.Place} (found : placeOf (arriving name) = some place)
    (same : Names (Utf8.encode name) place) : Straight name := by
  obtain ⟨written, rfl, decoded⟩ := same
  obtain ⟨before, last, split, ends⟩ := exists_last name
  rw [(placeOf_eq_named.1 found).1] at ends
  obtain rfl : written = _ := Option.some.inj ends
  rw [Percent.decode_encode Url.leaves_path] at decoded
  by_cases dotted : Dotted last
  · rw [if_pos dotted] at decoded
    obtain rfl : "" = name := Utf8.eq_of_encode decoded
    exact straight_empty
  rw [if_neg dotted] at decoded
  -- The name is as long as what its last segment stands for, so none of the three lengths between can be less.
  have first := Percent.length_decode_le last
  have second := Url.length_add_le split
  have third := (Url.pathOf_sublist (Utf8.encode name)).length_le
  rw [decoded] at first
  rw [kept] at second
  have whole : kept name = Utf8.encode name := (Url.pathOf_sublist _).eq_of_length_le (by omega)
  obtain rfl : before = [] := List.eq_nil_of_length_eq_zero (by omega)
  obtain ⟨rfl, undivided⟩ := Url.eq_of_parts split
  have unescaped : Percent.decode (kept name) = kept name := Percent.decode_eq_self (by rw [decoded, whole])
  rw [whole] at undivided unescaped dotted
  refine ⟨Url.pathOf_eq_self.1 whole, undivided, ⟨?_, ?_⟩, unescaped⟩
  · rintro rfl
    exact dotted (by decide)
  · rintro rfl
    exact dotted (by decide)

theorem ofName?_eq_none (unknown : ∀ q : Pattern, q.name ≠ name) : Pattern.ofName? name = none :=
  Option.eq_none_iff_forall_ne_some.2 fun q found => unknown q ((Pattern.ofName?_eq_some_iff name q).1 found)

/-- Nothing has come of a call, and the tool fails and says why. -/
structure Refused (c : Http.Call) (p : Plane) (m : Move Response) : Prop where
  unmoved : p.Unmoved m
  code : (concluded c m.result.status m.result.body).code = 1
  told : (concluded c m.result.status m.result.body).failure.isSome = true

theorem failure_concluded {status : Nat} (low : 400 ≤ status) (high : status < 600) (body : List UInt8) :
    (concluded c status body).failure = some .request := by
  simp [concluded, conclude, low, high]

/-- The tool fails on every answer that is read unless it says that all is well. -/
theorem failure_answered {a : Answer} (proper : a.data.Proper) (shallow : a.data.depth ≤ 126) {method : String}
    (seen : method ≠ "HEAD") :
    (concluded c (respond method a).status (respond method a).body).failure =
      if a.isOk then none else some (.refused a.msg a.code) := by
  have floatless : a.toJson.floatless = true :=
    Wire.Kind.floatless_of_fits (k := .answer) ⟨proper, Nat.succ_le_succ shallow⟩
  have read : (Json.Raw.read (Utf8.encode a.toJson.text)).bind Answer.ofJson = some a := by
    rw [Json.read_text floatless, Option.bind_some, Answer.ofJson_written proper shallow]
  simp [concluded, conclude, respond, withBody, seen, bodiless, read]

theorem code_concluded (c : Http.Call) (status : Nat) (body : List UInt8) :
    (concluded c status body).code = if (concluded c status body).failure.isSome then 1 else 0 := rfl

variable {p : Plane} {m : Move Response} {r : Request}

theorem Refused.of_failure {f : Failure} (unmoved : p.Unmoved m)
    (failed : (concluded c m.result.status m.result.body).failure = some f) : Refused c p m := by
  refine ⟨unmoved, ?_, ?_⟩
  · rw [code_concluded, failed]
    rfl
  · rw [failed]
    rfl

theorem refused_of_status {response : Response} (low : 400 ≤ response.status) (high : response.status < 600) :
    Refused c p (p.still response) :=
  .of_failure (p.unmoved_still response) (failure_concluded low high response.body)

theorem refused_unknown (circumstances : Circumstances) (seen : r.method ≠ "HEAD") :
    Refused c p (p.serve circumstances r (.unknownPattern name)) :=
  .of_failure ((p.unmoved_still _).map _)
    (failure_answered (a := .unknownPattern name) trivial (Nat.zero_le _) seen)

/-- A call that is answered under a name, if at all, switches to the pattern of this name or is refused. -/
theorem switched_or_refused {octets : List UInt8} (post : r.method = "POST")
    (only : ∀ place, placeOf r.target.segments = some place → accepts place r.method = true →
      Names octets place) :
    (∃ q : Pattern, Utf8.encode q.name = octets ∧ route r = .command (.switch q)) ∨
      ∀ (p : Plane) (circumstances : Circumstances) (figures : Response),
        Refused c p (p.receive circumstances figures r) := by
  have seen : r.method ≠ "HEAD" := by
    rw [post]
    decide
  cases found : placeOf r.target.segments with
  | none =>
    refine .inr fun p circumstances figures => ?_
    simp only [Plane.receive, route, found]
    exact refused_of_status (by decide) (by decide)
  | some place =>
    by_cases accepted : accepts place r.method = true
    · obtain ⟨written, rfl, decoded⟩ := only place found accepted
      cases text : Utf8.decode octets with
      | none =>
        refine .inr fun p circumstances figures => ?_
        simp only [Plane.receive, route, found, if_pos accepted, arrive, decoded, text]
        exact refused_of_status (by decide) (by decide)
      | some given =>
        have routed : route r = .command (commandNamed given) := by
          simp only [route, found, if_pos accepted, arrive, decoded, text]
        cases known : Pattern.ofName? given with
        | some q =>
          obtain rfl := (Pattern.ofName?_eq_some_iff given q).1 known
          rw [commandNamed, known] at routed
          exact .inl ⟨q, (Utf8.decode_eq_some_iff.1 text).symm, routed⟩
        | none =>
          refine .inr fun p circumstances figures => ?_
          rw [commandNamed, known] at routed
          simp only [Plane.receive, routed]
          exact refused_unknown circumstances seen
    · refine .inr fun p circumstances figures => ?_
      simp only [Plane.receive, route, found, if_neg accepted]
      exact refused_of_status (by decide : 400 ≤ 405) (by decide : 405 < 600)

/-- What a call for a pattern does: it arrives, and the plane switches to this pattern if the router does. -/
structure Obeyed (c : Http.Call) (q : Pattern) : Prop where
  arrives : ∃ r, request? c = some r
  follows : ∀ r, request? c = some r → ∀ (p : Plane) (circumstances : Circumstances) (figures : Response),
    circumstances.verdict q = .ok () →
      let m := p.receive circumstances figures r
      m.plane = { p with scheduler := { p.scheduler with pattern := q }, router := q } ∧ m.orders = [] ∧
        (concluded c m.result.status m.result.body).code = 0
  stays : ∀ r, request? c = some r → ∀ (p : Plane) (circumstances : Circumstances) (figures : Response) e,
    circumstances.verdict q = .error e → Refused c p (p.receive circumstances figures r)

/-- What a call does with a name that no pattern has. -/
structure Meant (c : Http.Call) (name : String) : Prop where
  /-- If it is answered anywhere, it is answered as this name exactly if the name reads the same to everybody. -/
  names_iff : ∀ place, Finds c place → (Names (Utf8.encode name) place ↔ Straight name)
  arrives : Straight name → name ≠ "" → c.targetOctets.length ≤ 65534 → ∃ place, Finds c place
  /-- Then it is refused, and so it is if there is no place for it. -/
  refused : (∀ place, Finds c place → Names (Utf8.encode name) place) → ∀ r, request? c = some r →
    ∀ (p : Plane) (circumstances : Circumstances) (figures : Response),
      Refused c p (p.receive circumstances figures r)
  /-- It takes dots to get anywhere but where patterns are taken by name; without them, what is left of the name
  must be that of a pattern for anything to happen. -/
  undotted : (∀ segment ∈ parts (kept name), ¬Dotted segment) →
    (∀ place, Finds c place → Names (Percent.decode (kept name)) place) ∧
      ∀ r, request? c = some r →
        (∃ q : Pattern, Utf8.encode q.name = Percent.decode (kept name) ∧ route r = .command (.switch q)) ∨
          ∀ (p : Plane) (circumstances : Circumstances) (figures : Response),
            Refused c p (p.receive circumstances figures r)

theorem obeyed {q : Pattern} (post : c.method = "POST")
    (asked : c.url.target = Url.targetOf (Utf8.encode "migrator" ++ slash :: Utf8.encode q.name)) : Obeyed c q := by
  have short : c.targetOctets.length ≤ 65534 := by
    rw [Call.targetOctets, asked]
    cases q <;> decide
  have request := request?_eq asked
  rw [if_pos short] at request
  have routed {r : Request} (arrived : request? c = some r) :
      r.method ≠ "HEAD" ∧ route r = .command (.switch q) := by
    rw [request] at arrived
    cases arrived
    rw [post]
    refine ⟨(by decide : "POST" ≠ "HEAD"), ?_⟩
    cases q <;> rfl
  refine ⟨⟨_, request⟩, fun r arrived p circumstances figures accepts => ?_,
    fun r arrived p circumstances figures e refuses => ?_⟩
  · obtain ⟨seen, routed⟩ := routed arrived
    have received : p.receive circumstances figures r =
        ⟨respond r.method .ok, { p with scheduler := { p.scheduler with pattern := q }, router := q }, [],
          Scheduler.countSwitch q⟩ := by
      simp only [Plane.receive, routed, Plane.serve, Plane.perform, Plane.switch, Scheduler.switch, accepts,
        Move.map, Plane.told]
    rw [received]
    refine ⟨rfl, rfl, ?_⟩
    rw [code_concluded, failure_answered (a := .ok) trivial (by decide) seen]
    rfl
  · obtain ⟨seen, routed⟩ := routed arrived
    have received : p.receive circumstances figures r = p.still (respond r.method .notOk) := by
      simp only [Plane.receive, routed, Plane.serve, Plane.perform, Plane.switch, Scheduler.switch, refuses,
        Move.map, Plane.told, Plane.still]
    rw [received]
    exact .of_failure (p.unmoved_still _) (failure_answered (a := .notOk) trivial (by decide) seen)

section Unknown

variable (post : c.method = "POST")
  (asked : c.url.target = Url.targetOf (Utf8.encode "migrator" ++ slash :: Utf8.encode ("pattern/" ++ name)))
include post asked

theorem arrived_iff : request? c = some r ↔ c.targetOctets.length ≤ 65534 ∧
    r = ⟨"POST", Url.targetOf (Utf8.encode "migrator" ++ slash :: Utf8.encode ("pattern/" ++ name)),
      c.contentType, c.body⟩ := by
  rw [request?_eq asked, post]
  split <;> simp_all [eq_comm]

theorem placeOf_of_finds {place : Control.Place} (found : Finds c place) :
    placeOf (arriving name) = some place := by
  obtain ⟨r, arrived, found, -⟩ := found
  rw [((arrived_iff post asked).1 arrived).2, segments_targetOf] at found
  exact found

theorem refused_of_names {octets : List UInt8} (only : ∀ place, Finds c place → Names octets place)
    (arrived : request? c = some r) :
    (∃ q : Pattern, Utf8.encode q.name = octets ∧ route r = .command (.switch q)) ∨
      ∀ (p : Plane) (circumstances : Circumstances) (figures : Response),
        Refused c p (p.receive circumstances figures r) := by
  refine switched_or_refused ?_ fun place found accepted => only place ⟨r, arrived, found, accepted⟩
  rw [((arrived_iff post asked).1 arrived).2]

theorem meant (unknown : ∀ q : Pattern, q.name ≠ name) : Meant c name where
  names_iff place found := by
    have found := placeOf_of_finds post asked found
    refine ⟨straight_of_names found, fun straight => ?_⟩
    have nonempty : name ≠ "" := by
      rintro rfl
      cases found
    rw [placeOf_straight straight nonempty] at found
    cases found
    exact ⟨_, rfl, by rw [Percent.decode_encode Url.leaves_path, straight.unescaped]⟩
  arrives straight nonempty fits := by
    have found := placeOf_straight straight nonempty
    rw [← segments_targetOf] at found
    exact ⟨_, _, (arrived_iff post asked).2 ⟨fits, rfl⟩, found, rfl⟩
  refused promise r arrived := by
    refine (refused_of_names post asked promise arrived).resolve_left ?_
    rintro ⟨q, same, -⟩
    exact unknown q (Utf8.eq_of_encode same)
  undotted plain := by
    have only (place : Control.Place) (found : Finds c place) : Names (Percent.decode (kept name)) place :=
      ⟨_, placeOf_undotted plain (placeOf_of_finds post asked found), Percent.decode_encode Url.leaves_path _⟩
    exact ⟨only, fun r => refused_of_names post asked only⟩

end Unknown

/-- The tool sends what it is asked to. -/
theorem plan_switch (called : call plane (.switch name) = some c) :
    plan [(planeVariable, plane)] ["switch", "--", name] = .send c := by
  have read : commandLine.read [(planeVariable, plane)] ["switch", "--", name] =
      .ok ⟨["migctl", "switch"], [("api", plane)], some name⟩ := rfl
  have filter : (Log.Filter.ofText .warn (([(planeVariable, plane)].lookup Log.variableName).getD "")).isNone =
      false := rfl
  rw [plan, read]
  simp only [filter]
  simp [Operation.ofRequest, CommandLine.Request.value?, called]

/-- To switch by name sends one call. A name that a pattern has switches to that pattern; any other name is
taken for what it is, and refused, just if nothing in it means anything in an address. -/
theorem switch_meant (here : At plane place) (name : String) :
    ∃ c, plan [(planeVariable, plane)] ["switch", "--", name] = .send c ∧
      (∀ q : Pattern, q.name = name → Obeyed c q) ∧ ((∀ q : Pattern, q.name ≠ name) → Meant c name) := by
  obtain ⟨c, sent, post, asked⟩ := exists_call here (.switch name)
  refine ⟨c, plan_switch sent, ?_, fun unknown => ?_⟩
  · rintro q rfl
    have known : Pattern.ofName? q.name = some q := (Pattern.ofName?_eq_some_iff _ _).2 rfl
    rw [Operation.place, known] at asked
    exact obeyed post asked
  · rw [Operation.place, ofName?_eq_none unknown] at asked
    exact meant post asked unknown

theorem at_standardPlane : At standardPlane (Utf8.encode "127.0.0.1:20690") where
  spelt := by decide
  is := by constructor <;> decide +kernel

/-- A blank, a percent sign and a letter beyond ASCII do no harm. -/
def misspelt : String := "src önly 5%"

def misspeltCall : Http.Call where
  method := "POST"
  url := ⟨Utf8.encode "127.0.0.1", some [127, 0, 0, 1], 20690,
    ⟨Utf8.encode "/migrator/pattern/src%20%C3%B6nly%205%", none⟩⟩
  contentType := none
  body := []

theorem switch_meant_misspelt :
    plan [(planeVariable, standardPlane)] ["switch", "--", misspelt] = .send misspeltCall ∧
      Finds misspeltCall (.named (Utf8.encode "src%20%C3%B6nly%205%")) ∧ Straight misspelt ∧
      ∀ r, request? misspeltCall = some r → ∀ p circumstances figures,
        Refused misspeltCall p (p.receive circumstances figures r) := by
  obtain ⟨c, sent, -, meant⟩ := switch_meant at_standardPlane misspelt
  have called : plan [(planeVariable, standardPlane)] ["switch", "--", misspelt] = .send misspeltCall := rfl
  obtain rfl : c = misspeltCall := Plan.send.inj (sent.symm.trans called)
  have meant := meant fun q => by cases q <;> decide
  have found : Finds misspeltCall (.named (Utf8.encode "src%20%C3%B6nly%205%")) := ⟨_, rfl, rfl, rfl⟩
  have straight : Straight misspelt := (meant.names_iff _ found).1 ⟨_, rfl, rfl⟩
  exact ⟨called, found, straight, meant.refused fun place found => (meant.names_iff place found).2 straight⟩

/-- Neither is the name of a pattern; yet the one starts a comparison, and the other switches. -/
theorem switch_astray :
    (∀ q : Pattern, q.name ≠ "../full/start" ∧ q.name ≠ "src_only?") ∧
      (∃ c r, plan [] ["switch", "../full/start"] = .send c ∧ request? c = some r ∧
        route r = .command .startFull) ∧
      ∃ c r, plan [] ["switch", "src_only?"] = .send c ∧ request? c = some r ∧
        route r = .command (.switch .srcOnly) := by
  exact ⟨fun q => by cases q <;> decide, ⟨_, _, rfl, rfl, rfl⟩, ⟨_, _, rfl, rfl, rfl⟩⟩

end Operator
end Cutover
