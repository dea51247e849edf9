import Mathlib.Data.List.Nodup
import Mathlib.Data.List.Pairwise
import Cutover.Proofs.DualWrite.Traffic

/-! The parts that a transaction has at the two pools, and what one turn of the router makes of them. A
call in a transaction goes to the part that leads, and the other part is sent what follows from the answer;
no call ever reaches the parts of another transaction. -/
namespace Cutover

namespace Sql.Call

/-- The transaction that a call is made in. -/
def within? : Call → Option Handle
  | .begin _ => none
  | .exec w _ => w
  | .query w _ => w
  | .queryRow w _ => w
  | .prepare w _ => w
  | .commit h => some h
  | .rollback h => some h
  | .abandon h => some h

/-- Whether its transaction ends with it. -/
def ends : Call → Bool
  | .commit _ | .rollback _ | .abandon _ => true
  | _ => false

end Sql.Call

namespace DualWrite

def Deed.within? : Deed → Option Sql.Handle
  | .call q => q.within?
  | .set _ => none
  | .switch _ => none

namespace Exchange

/-- The part of a transaction that a call went to. -/
def leg (x : Exchange) : Option (Side × Sql.Handle) := x.call.within?.map (x.side, ·)

/-- The part of a transaction that came into being. -/
def opened : Exchange → Option (Side × Sql.Handle)
  | ⟨side, .begin _, .ok h⟩ => some (side, h)
  | _ => none

/-- What the other part is sent once the leading one has answered: a write that it took, its commit or its
rollback. If the leading part ends in any other way the other one is given up. -/
def echo (other : Sql.Handle) : Exchange → Option Sql.Call
  | ⟨_, .exec _ s, .ok _⟩ => some (.exec (some other) s)
  | ⟨_, .commit _, .ok _⟩ => some (.commit other)
  | ⟨_, .rollback _, .ok _⟩ => some (.rollback other)
  | ⟨_, .commit _, .error _⟩ => some (.abandon other)
  | ⟨_, .rollback _, .error _⟩ => some (.abandon other)
  | ⟨_, .abandon _, _⟩ => some (.abandon other)
  | _ => none

theorem loose (x : Exchange) (free : x.call.within? = none) (plain : ∀ o, x.call ≠ .begin o) :
    x.leg = none ∧ x.opened = none := by
  obtain ⟨side, q, reply⟩ := x
  refine ⟨by rw [leg, free]; rfl, ?_⟩
  cases q with
  | begin o => exact absurd rfl (plain o)
  | _ => rfl

end Exchange

/-- A call in a transaction is answered as its leading part answers the same call, which comes first; only
preparation is refused without asking. -/
def Told (side : Side) (part : Sql.Handle) : (q : Sql.Call) → q.Reply → List Exchange → Prop
  | .exec _ s, reply, xs => xs.head? = some ⟨side, .exec (some part) s, reply⟩
  | .query _ s, reply, xs => xs = [⟨side, .query (some part) s, reply⟩]
  | .queryRow _ s, reply, xs => xs = [⟨side, .queryRow (some part) s, reply⟩]
  | .prepare _ _, reply, xs => reply = .error (.prepareUnsupported "dual-write") ∧ xs = []
  | .commit _, reply, xs => xs.head? = some ⟨side, .commit part, reply⟩
  | .rollback _, reply, xs => xs.head? = some ⟨side, .rollback part, reply⟩
  | .abandon _, reply, xs => xs.head? = some ⟨side, .abandon part, reply⟩
  | .begin _, _, _ => False

/-- After the leading part the other one is asked, if there is one, and nothing but what follows. -/
def Echoed (side : Side) (other : Option Sql.Handle) (xs : List Exchange) : Prop :=
  xs.tail.map (fun x => (x.side, x.call)) =
    ((xs.head?.bind fun x => other.bind fun b => x.echo b).map (side, ·)).toList

/-- Failures of calls to a side are counted, each in its way. -/
def Counted (side : Side) (xs : List Exchange) (r r' : Router) : Prop :=
  ∀ l, lapses r' l = lapses r l + xs.countP fun x => x.side == side && x.lapse? == some l

namespace Counted

variable {side : Side} {x : Exchange} {xs : List Exchange} {r r' : Router}

theorem nothing (same : r'.metrics = r.metrics) : Counted side [] r r' := by
  intro l
  rw [lapses, same]
  rfl

theorem behind (apart : x.side ≠ side) (counted : Counted side xs r r') : Counted side (x :: xs) r r' := by
  intro l
  rw [counted l, List.countP_cons_of_neg (by simp [apart])]

theorem answer (there : x.side = side) (same : r'.metrics = count x.lapse? r.metrics) :
    Counted side [x] r r' := by
  intro l
  rw [lapses, same, value_count, lapses, List.countP_singleton]
  simp [there]

end Counted

/-- A call in an open transaction. -/
structure Conducted (r : Router) (t : Transaction) (h : Sql.Handle) (q : Sql.Call) (xs : List Exchange)
    (reply : q.Reply) (r' : Router) : Prop where
  told : Told t.pattern.primary t.primary q reply xs
  echoed : Echoed t.pattern.secondary t.secondary xs
  counted : Counted t.pattern.secondary xs r r'
  transactions : r'.transactions = if q.ends then r.transactions.filter (·.1 != h) else r.transactions
  begun : r'.begun = r.begun

/-- The leading part is begun first, and the other one only under a dual pattern, and after it; the
transaction goes on without the other part if that one could not be begun. -/
inductive Begun (p : Pattern) (o : Sql.TransactionOptions) :
    List Exchange → Sql.Handle → Option Sql.Handle → Prop
  | alone (a : Sql.Handle) (single : p.dual = false) : Begun p o [⟨p.primary, .begin o, .ok a⟩] a none
  | joined (a b : Sql.Handle) (dual : p.dual = true) :
    Begun p o [⟨p.primary, .begin o, .ok a⟩, ⟨p.secondary, .begin o, .ok b⟩] a (some b)
  | deprived (a : Sql.Handle) (e : Sql.Error) (dual : p.dual = true) :
    Begun p o [⟨p.primary, .begin o, .ok a⟩, ⟨p.secondary, .begin o, .error e⟩] a none

/-- What one turn can come to. -/
inductive Lawful (r : Router) : (d : Deed) → List Exchange → d.Outcome → Router → Prop
  /-- No transaction is begun, and no open one is concerned. -/
  | outside {d : Deed} {xs : List Exchange} {outcome : d.Outcome} {r' : Router}
    (plain : ∀ o, d ≠ .call (.begin o))
    (aside : ∀ h, d.within? = some h → r.transaction? h = none ∧ xs = [])
    (loose : ∀ x ∈ xs, x.leg = none ∧ x.opened = none)
    (transactions : r'.transactions = r.transactions) (begun : r'.begun = r.begun) :
    Lawful r d xs outcome r'
  | refused {o : Sql.TransactionOptions} (e : Sql.Error) :
    Lawful r (.call (.begin o)) [⟨r.pattern.primary, .begin o, .error e⟩] (.error e) r
  | begun {o : Sql.TransactionOptions} {xs : List Exchange} {a : Sql.Handle} {b : Option Sql.Handle}
    {r' : Router} (parts : Begun r.pattern o xs a b) (counted : Counted r.pattern.secondary xs r r')
    (transactions : r'.transactions = (r.begun, ⟨r.pattern, a, b⟩) :: r.transactions)
    (begun : r'.begun = r.begun + 1) : Lawful r (.call (.begin o)) xs (.ok r.begun) r'
  | inside {q : Sql.Call} {xs : List Exchange} {reply : q.Reply} {r' : Router} {h : Sql.Handle}
    {t : Transaction} (within : q.within? = some h) (found : r.transaction? h = some t)
    (conducted : Conducted r t h q xs reply r') : Lawful r (.call q) xs reply r'

/-- What is put down of a turn can come of its deed. -/
def Turn.Lawful (t : Turn) : Prop := DualWrite.Lawful t.before t.deed t.exchanges t.outcome t.after

namespace Router

variable {σ : Type} (below : (q : pools.Ask) → σ → pools.Reply q × σ)

theorem turn_inside {r : Router} {s : σ} {h : Sql.Handle} {t : Transaction} {q : Sql.Call}
    (within : q.within? = some h) (found : r.transaction? h = some t) :
    let y := (r.turn below s (.call q)).1
    Conducted r t h q y.exchanges y.outcome y.after := by
  obtain ⟨p, a, b⟩ := t
  have apart : p.primary ≠ p.secondary := (Side.other_ne _).symm
  cases q with
  | begin o => cases within
  | exec w q =>
    cases within
    simp only [turn, serve, answer, inside, found, Transaction.exec, Dialogue.run_bind, run_lead_eq,
      run_askExec]
    simp only [recorded]
    rcases below (p.primary, .exec (some a) q) s with ⟨e | effect, lower⟩
    · exact ⟨rfl, by cases b <;> rfl, .behind apart (.nothing rfl), rfl, rfl⟩
    · -- The leading part has agreed, so the other one is asked if there is one.
      cases b with
      | none => exact ⟨rfl, rfl, .behind apart (.nothing rfl), rfl, rfl⟩
      | some b =>
        simp only [Option.map, run_askExec, recorded]
        rcases below (p.secondary, .exec (some b) q) lower with ⟨e | ignored, last⟩
        all_goals exact ⟨rfl, rfl, .behind apart (.answer rfl rfl), rfl, rfl⟩
  | query w q | queryRow w q =>
    cases within
    simp only [turn, serve, answer, inside, found, Transaction.query, Transaction.queryRow]
    exact ⟨rfl, by cases b <;> rfl, .behind apart (.nothing rfl), rfl, rfl⟩
  | prepare w text =>
    cases within
    simp only [turn, serve, answer, inside, found]
    exact ⟨⟨rfl, rfl⟩, rfl, .nothing rfl, rfl, rfl⟩
  | commit w =>
    cases within
    simp only [turn, serve, answer, inside, found, Transaction.commit, Transaction.finish,
      Dialogue.run_bind, run_askCommit]
    simp only [recorded]
    rcases below (p.primary, .commit a) s with ⟨e | ⟨⟨⟩⟩, lower⟩
    · cases b with
      | none => exact ⟨rfl, rfl, .behind apart (.nothing rfl), rfl, rfl⟩
      | some b => exact ⟨rfl, rfl, .behind apart (.answer rfl rfl), rfl, rfl⟩
    · cases b with
      | none => exact ⟨rfl, rfl, .behind apart (.nothing rfl), rfl, rfl⟩
      | some b =>
        simp only [Option.map, run_follow_some, run_askCommit, recorded]
        rcases below (p.secondary, .commit b) lower with ⟨e | ignored, last⟩
        all_goals exact ⟨rfl, rfl, .behind apart (.answer rfl rfl), rfl, rfl⟩
  | rollback w =>
    cases within
    simp only [turn, serve, answer, inside, found, Transaction.rollback, Transaction.finish,
      Dialogue.run_bind, run_askRollback]
    simp only [recorded]
    rcases below (p.primary, .rollback a) s with ⟨e | ⟨⟨⟩⟩, lower⟩
    · cases b with
      | none => exact ⟨rfl, rfl, .behind apart (.nothing rfl), rfl, rfl⟩
      | some b => exact ⟨rfl, rfl, .behind apart (.answer rfl rfl), rfl, rfl⟩
    · cases b with
      | none => exact ⟨rfl, rfl, .behind apart (.nothing rfl), rfl, rfl⟩
      | some b =>
        simp only [Option.map, run_follow_some, run_askRollback, recorded]
        rcases below (p.secondary, .rollback b) lower with ⟨e | ignored, last⟩
        all_goals exact ⟨rfl, rfl, .behind apart (.answer rfl rfl), rfl, rfl⟩
  | abandon w =>
    cases within
    simp only [turn, serve, answer, found, Transaction.abandon]
    cases b with
    | none => exact ⟨rfl, rfl, .behind apart (.nothing rfl), rfl, rfl⟩
    | some b => exact ⟨rfl, rfl, .behind apart (.answer rfl rfl), rfl, rfl⟩

theorem turn_begin (r : Router) (s : σ) (o : Sql.TransactionOptions) :
    let y := (r.turn below s (.call (.begin o))).1
    Lawful r (.call (.begin o)) y.exchanges y.outcome y.after := by
  have apart : r.pattern.primary ≠ r.pattern.secondary := (Side.other_ne _).symm
  simp only [turn, serve, answer, DualWrite.begin, Dialogue.run_bind, run_askBegin]
  simp only [recorded]
  rcases below (r.pattern.primary, .begin o) s with ⟨e | a, lower⟩
  · exact .refused e
  · cases dual : r.pattern.dual with
    | false =>
      simp only [secondary?, dual]
      exact .begun (.alone a dual) (.behind apart (.nothing rfl)) rfl rfl
    | true =>
      simp only [secondary?, dual, if_true, Dialogue.run_bind, run_askBegin, recorded]
      rcases below (r.pattern.secondary, .begin o) lower with ⟨e | b, last⟩
      · exact .begun (.deprived a e dual) (.behind apart (.answer rfl rfl)) rfl rfl
      · exact .begun (.joined a b dual) (.behind apart (.answer rfl rfl)) rfl rfl

theorem turn_unfound {r : Router} {s : σ} {h : Sql.Handle} {q : Sql.Call}
    (within : q.within? = some h) (unfound : r.transaction? h = none) :
    let y := (r.turn below s (.call q)).1
    y.exchanges = [] ∧ y.after = r := by
  cases q
  all_goals cases within
  all_goals simp only [turn, serve, answer, inside, unfound]
  all_goals exact ⟨rfl, rfl⟩

theorem turn_plain {r : Router} {s : σ} {q : Sql.Call} (free : q.within? = none)
    (plain : ∀ o, q ≠ .begin o) :
    let y := (r.turn below s (.call q)).1
    (∀ x ∈ y.exchanges, x.call = q) ∧ y.after.transactions = r.transactions ∧
      y.after.begun = r.begun := by
  cases q with
  | begin o => exact absurd rfl (plain o)
  | exec w q =>
    cases free
    simp only [turn, serve, answer, DualWrite.exec, Dialogue.run_bind, run_lead_eq, run_askExec]
    simp only [recorded]
    rcases below (r.pattern.primary, .exec none q) s with ⟨e | effect, lower⟩
    · exact ⟨by simp, rfl, rfl⟩
    · cases secondary? r.pattern with
      | none => exact ⟨by simp, rfl, rfl⟩
      | some side => exact ⟨by simp [run_askExec, recorded], rfl, rfl⟩
  | query w q | queryRow w q =>
    cases free
    simp only [turn, serve, answer, DualWrite.query, DualWrite.queryRow]
    exact ⟨List.forall_mem_singleton.2 rfl, rfl, rfl⟩
  | prepare w text =>
    cases free
    exact ⟨by simp [turn, serve, answer], rfl, rfl⟩
  | commit h | rollback h | abandon h => cases free

/-- Whatever the pools do, what is put down of a turn can come of its deed. -/
theorem turn_lawful (r : Router) (s : σ) (d : Deed) : (r.turn below s d).1.Lawful := by
  cases d with
  | set p => exact .outside nofun nofun (List.forall_mem_nil _) rfl rfl
  | switch text =>
    have same : (r.switchNamed text).2.transactions = r.transactions ∧
        (r.switchNamed text).2.begun = r.begun := by
      simp only [switchNamed]
      split <;> exact ⟨rfl, rfl⟩
    exact .outside nofun nofun (List.forall_mem_nil _) same.1 same.2
  | call q =>
    cases within : q.within? with
    | some h =>
      cases found : r.transaction? h with
      | some t => exact .inside within found (turn_inside below within found)
      | none =>
        obtain ⟨silent, same⟩ := turn_unfound below (s := s) within found
        refine .outside ?_ ?_ ?_ (congrArg transactions same) (congrArg Router.begun same)
        · rintro o ⟨⟩
          cases within
        · intro k inside
          obtain rfl : h = k := Option.some.inj (within.symm.trans inside)
          exact ⟨found, silent⟩
        · simp [silent]
    | none =>
      cases q with
      | begin o => exact turn_begin below r s o
      | _ =>
        obtain ⟨calls, transactions, begun⟩ := turn_plain below (r := r) (s := s) within nofun
        refine .outside nofun ?_ ?_ transactions begun
        · intro k inside
          exact absurd (within.symm.trans inside) nofun
        · intro x seen
          exact x.loose (calls x seen ▸ within) (calls x seen ▸ nofun)

end Router
end DualWrite
end Cutover
