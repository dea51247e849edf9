import Cutover.Proofs.DualWrite.Traffic

/-! How statements outside of transactions are routed, whatever the pools make of them. A plain interpreter
keeps nothing but the pattern that was stored last, and reads off a table who leads under it and who
follows; the router gives the same answers, after the same calls, and counts what the follower fails. -/
namespace Cutover.DualWrite

/-- What may be done with the router outside of transactions. -/
inductive Errand where
  | exec (s : Sql.Statement)
  | query (s : Sql.Statement)
  | queryRow (s : Sql.Statement)
  | prepare (text : String)
  | set (p : Pattern)
  | switch (text : String)

def Errand.deed : Errand → Deed
  | .exec s => .call (.exec none s)
  | .query s => .call (.query none s)
  | .queryRow s => .call (.queryRow none s)
  | .prepare text => .call (.prepare none text)
  | .set p => .set p
  | .switch text => .switch text

/-- Who leads under a pattern, and who follows with the writes. -/
def legs : Pattern → Side × Option Side
  | .srcOnly => (.src, none)
  | .srcFirst => (.src, some .dst)
  | .dstFirst => (.dst, some .src)
  | .dstOnly => (.dst, none)

def patterns : List (String × Pattern) :=
  [("src_only", .srcOnly), ("src_first", .srcFirst), ("dst_first", .dstFirst), ("dst_only", .dstOnly)]

/-- The pattern that was stored last, and the pools. -/
structure Interpreter (σ : Type) where
  pattern : Pattern
  lower : σ

namespace Interpreter

variable {σ : Type} (below : (q : pools.Ask) → σ → pools.Reply q × σ)

/-- The one in the lead is asked, and its answer is the answer. -/
def read (x : Interpreter σ) (q : Sql.Call) : Entry × Interpreter σ :=
  let (lead, _) := legs x.pattern
  let (reply, lower) := below (lead, q) x.lower
  (⟨.call q, [⟨lead, q, reply⟩], reply⟩, { x with lower })

def step (x : Interpreter σ) : Errand → Entry × Interpreter σ
  | .exec s =>
    let q : Sql.Call := .exec none s
    let (lead, follower) := legs x.pattern
    let (reply, lower) := below (lead, q) x.lower
    match reply, follower with
    | .ok _, some side =>
      let (ignored, last) := below (side, q) lower
      (⟨.call q, [⟨lead, q, reply⟩, ⟨side, q, ignored⟩], reply⟩, { x with lower := last })
    | _, _ => (⟨.call q, [⟨lead, q, reply⟩], reply⟩, { x with lower })
  | .query s => x.read below (.query none s)
  | .queryRow s => x.read below (.queryRow none s)
  | .prepare text => (⟨.call (.prepare none text), [], .error (.prepareUnsupported "dual-write")⟩, x)
  | .set p => (⟨.set p, [], ()⟩, { x with pattern := p })
  | .switch text =>
    match patterns.lookup text with
    | some p => (⟨.switch text, [], .ok p⟩, { x with pattern := p })
    | none => (⟨.switch text, [], .error (.pattern (.unknownName text))⟩, x)

def run : Interpreter σ → List Errand → List Entry × Interpreter σ
  | x, [] => ([], x)
  | x, e :: rest =>
    let (entry, x) := x.step below e
    let (entries, x) := x.run rest
    (entry :: entries, x)

end Interpreter

/-- The calls of a turn that went to another pool than the one in the lead, and failed. -/
def Turn.failures (t : Turn) : List Exchange :=
  t.exchanges.filter fun x => x.side != (legs t.before.pattern).1 && x.lapse?.isSome

theorem legs_eq (p : Pattern) : legs p = (p.primary, secondary? p) := by
  cases p <;> rfl

theorem secondary_ne {p : Pattern} {side : Side} (follower : secondary? p = some side) :
    side ≠ p.primary := by
  simp only [secondary?, Option.ite_none_right_eq_some, Option.some.injEq] at follower
  rw [← follower.2]
  exact Side.other_ne _

theorem lookup_patterns (text : String) : patterns.lookup text = Pattern.ofName? text := by
  simp only [patterns, Pattern.ofName?, Pattern.all, List.lookup_cons, List.lookup_nil, List.find?,
    Pattern.name]
  repeat' split
  all_goals simp_all

namespace Router

variable {σ : Type} (below : (q : pools.Ask) → σ → pools.Reply q × σ)

theorem turn_read (r : Router) (s : σ) {q : Sql.Call}
    (asks : r.answer q = (Dialogue.call (I := pools) (r.pattern.primary, q)).bind fun a => .done (a, r)) :
    let t := (r.turn below s (.call q)).1
    (t.toEntry, (⟨t.after.pattern, (r.turn below s (.call q)).2⟩ : Interpreter σ)) =
        Interpreter.read below ⟨r.pattern, s⟩ q ∧
      lapses t.after .exec = lapses r .exec + t.failures.length := by
  simp only [turn, serve, asks, Interpreter.read, Turn.failures]
  rw [legs_eq]
  refine ⟨rfl, ?_⟩
  have alone : ∀ x : Exchange, x.side = r.pattern.primary →
      [x].filter (fun x => x.side != r.pattern.primary && x.lapse?.isSome) = [] := by
    intro x side
    simp [side]
  exact (congrArg (lapses r .exec + ·.length) (alone ⟨r.pattern.primary, q, _⟩ rfl)).symm

/-- One errand: what the router says to it, what the pools were asked, and what is counted. -/
theorem turn_errand (r : Router) (s : σ) (e : Errand) :
    let t := (r.turn below s e.deed).1
    (t.toEntry, (⟨t.after.pattern, (r.turn below s e.deed).2⟩ : Interpreter σ)) =
        Interpreter.step below ⟨r.pattern, s⟩ e ∧
      lapses t.after .exec = lapses r .exec + t.failures.length := by
  cases e with
  | exec q =>
    simp only [turn, Errand.deed, serve, answer, DualWrite.exec, Dialogue.run_bind, run_lead_eq, run_askExec,
      Interpreter.step, Turn.failures]
    rw [legs_eq]
    simp only [recorded]
    rcases below (r.pattern.primary, .exec none q) s with ⟨e | a, lower⟩
    · exact ⟨rfl, by simp [routed, count]⟩
    · cases follower : secondary? r.pattern with
      | none => exact ⟨rfl, by simp [routed, count]⟩
      | some side =>
        have apart : side ≠ r.pattern.primary := secondary_ne follower
        simp only [Option.map, run_askExec, recorded]
        rcases below (side, .exec none q) lower with ⟨e | b, last⟩
        · refine ⟨rfl, (value_count (some .exec) r.metrics .exec).trans ?_⟩
          simp [apart, Exchange.lapse?, lapses]
        · exact ⟨rfl, by simp [Exchange.lapse?, routed, count, lapseOf]⟩
  | query q => exact r.turn_read below s rfl
  | queryRow q => exact r.turn_read below s rfl
  | prepare text => exact ⟨rfl, rfl⟩
  | set p => exact ⟨rfl, rfl⟩
  | switch text =>
    simp only [turn, Errand.deed, switchNamed, patternNamed, Pattern.ofName, Interpreter.step,
      lookup_patterns]
    cases Pattern.ofName? text with
    | none => exact ⟨rfl, rfl⟩
    | some p => exact ⟨rfl, rfl⟩

/-- Errand after errand, the router does what the interpreter does. -/
theorem traffic_errands (r : Router) (s : σ) (errands : List Errand) :
    let y := r.traffic below s (errands.map Errand.deed)
    let z := Interpreter.run below ⟨r.pattern, s⟩ errands
    y.1.map Turn.toEntry = z.1 ∧ (⟨y.2.1.pattern, y.2.2⟩ : Interpreter σ) = z.2 ∧
      lapses y.2.1 .exec = lapses r .exec + (y.1.flatMap Turn.failures).length := by
  induction errands generalizing r s with
  | nil => exact ⟨rfl, rfl, rfl⟩
  | cons e rest ih =>
    obtain ⟨same, counted⟩ := r.turn_errand below s e
    obtain ⟨entries, last, more⟩ := ih (r.turn below s e.deed).1.after (r.turn below s e.deed).2
    simp only [List.map_cons, traffic, Interpreter.run, ← same]
    refine ⟨congrArg _ entries, last, ?_⟩
    rw [more, counted, List.flatMap_cons, List.length_append, Nat.add_assoc]

/-- Whatever the pools do, and in whatever order statements, switches and plain settings of the pattern
come, the router says what the interpreter says, after the same calls to the pools, and counts as many
failures under `exec` as there were failed calls to a pool that was not in the lead. -/
theorem routes_like_interpreter (p : Pattern) (s : σ) (errands : List Errand) :
    let y := (start p).traffic below s (errands.map Errand.deed)
    let z := Interpreter.run below ⟨p, s⟩ errands
    y.1.map Turn.toEntry = z.1 ∧ y.2.1.pattern = z.2.pattern ∧ y.2.2 = z.2.lower ∧
      lapses y.2.1 .exec = (y.1.flatMap Turn.failures).length := by
  obtain ⟨entries, same, counted⟩ := (start p).traffic_errands below s errands
  refine ⟨entries, congrArg Interpreter.pattern same, congrArg Interpreter.lower same, ?_⟩
  simpa [lapses, start, Metrics.value] using counted

end Router
end Cutover.DualWrite
