import Mathlib.Data.List.Nodup
import Cutover.Sql.Connection

/-! The sessions behind a pool of connections. A server keeps with each connection whether a transaction is
open on it and which isolation level the next one is to have. Both follow from the orders that were given on
the connection and from which of them the server refused. The pool hands a connection on as it is: an open
transaction stays on it if the server refused to end it, and a level if the server refused to start the
transaction that it was meant for. -/
namespace Cutover.Sql

theorem mem_of_lookup {α β : Type} [BEq α] [LawfulBEq α] {a : α} {b : β} {l : List (α × β)}
    (found : l.lookup a = some b) : (a, b) ∈ l := by
  obtain ⟨later, earlier, rfl, -⟩ := List.lookup_eq_some_iff.mp found
  simp

/-- What changes a session. -/
inductive Order where
  /-- The next transaction is to have a level. -/
  | level (i : Isolation)
  | start
  /-- Commits or rolls back. -/
  | close
  deriving DecidableEq

def order? (sql : String) : Option Order :=
  if sql = "START TRANSACTION" ∨ sql = "START TRANSACTION READ ONLY" then some .start
  else if sql = "COMMIT" ∨ sql = "ROLLBACK" then some .close
  else (Isolation.all.find? fun i => sql = "SET TRANSACTION ISOLATION LEVEL " ++ i.sql).map .level

@[ext]
structure Session where
  /-- The level of the open transaction if there is one; without a level it has the server's own. -/
  running : Option (Option Isolation)
  /-- The level that was set for the next transaction. -/
  pending : Option Isolation
  deriving DecidableEq

namespace Session

def fresh : Session := ⟨none, none⟩

def obey (s : Session) : Order → Session
  | .level i => { s with pending := some i }
  | .start => ⟨some s.pending, none⟩
  | .close => { s with running := none }

end Session

/-- The orders that a session was given, the latest first, and whether they were accepted. -/
abbrev Orders := List (Order × Bool)

namespace Orders

/-- What is refused changes nothing. -/
def session : Orders → Session
  | [] => .fresh
  | (o, true) :: past => (session past).obey o
  | (_, false) :: past => session past

/-- A transaction is open exactly if the server refused to end it when that was last tried. -/
def Balanced (past : Orders) : Prop := (session past).running ≠ none ↔ past.lookup .close = some false

/-- And a level waits for a transaction only if the server refused to start one when that was last tried. -/
structure Settled (past : Orders) : Prop where
  balanced : Balanced past
  pending : (session past).pending ≠ none → past.lookup .start = some false

theorem settled_nil : Settled [] where
  balanced := by simp [Balanced, session, Session.fresh]
  pending := by simp [session, Session.fresh]

section Steps

variable {past : Orders} {i : Isolation} {accepted : Bool}

theorem Balanced.level (balanced : Balanced past) : Balanced ((.level i, accepted) :: past) := by
  have other : (Order.close == Order.level i) = false := rfl
  cases accepted <;> simpa [Balanced, session, Session.obey, List.lookup_cons, other] using balanced

/-- A level that the server does not take is not pending. -/
theorem Settled.level_refused (settled : Settled past) : Settled ((.level i, false) :: past) := by
  have other : (Order.start == Order.level i) = false := rfl
  refine ⟨settled.balanced.level, fun pending => ?_⟩
  rw [List.lookup_cons, other]
  exact settled.pending pending

theorem Balanced.start_refused (balanced : Balanced past) : Settled ((.start, false) :: past) := by
  have other : (Order.close == Order.start) = false := rfl
  refine ⟨?_, fun _ => List.lookup_cons_self⟩
  rw [Balanced, List.lookup_cons, other]
  exact balanced

/-- Whatever the server says to that, a transaction that is to end leaves its session settled. -/
theorem settled_close {level : Option Isolation} (inside : session past = ⟨some level, none⟩) :
    Settled ((.close, accepted) :: past) := by
  cases accepted <;>
    exact ⟨by simp [Balanced, session, Session.obey, inside, List.lookup_cons_self],
      fun pending => absurd (by simp [session, Session.obey, inside]) pending⟩

end Steps

/-- Where the server has refused neither to start nor to end a transaction nothing is left over. -/
theorem Settled.fresh {past : Orders} (settled : Settled past) (start : (.start, false) ∉ past)
    (close : (.close, false) ∉ past) : session past = .fresh := by
  have running : (session past).running = none := by
    by_contra running
    exact close (mem_of_lookup (settled.balanced.mp running))
  have pending : (session past).pending = none := by
    by_contra pending
    exact start (mem_of_lookup (settled.pending pending))
  exact Session.ext running pending

end Orders

/-- What a server was sent on a connection, and its answer. -/
structure Exchange where
  connection : Nat
  message : Message
  reply : message.Reply

/-- The order that was given, and whether it was accepted. It makes no difference whether it came as text or
was prepared before. -/
def Exchange.order? : Exchange → Option (Order × Bool)
  | ⟨_, .text sql, reply⟩ => (Sql.order? sql).map (·, reply.isOk)
  | ⟨_, .execute s, reply⟩ => (Sql.order? s.text).map (·, reply.isOk)
  | _ => none

/-- The orders that the session of a connection was given. -/
def ordersOn (n : Nat) (past : List Exchange) : Orders :=
  past.filterMap fun x => if x.connection = n then x.order? else none

theorem ordersOn_cons (n : Nat) (x : Exchange) (past : List Exchange) :
    ordersOn n (x :: past) =
      if x.connection = n then x.order?.toList ++ ordersOn n past else ordersOn n past := by
  by_cases here : x.connection = n
  · cases order : x.order? <;> simp [ordersOn, here, order]
  · simp [ordersOn, here]

/-- An exchange without an order leaves every session as it was. -/
theorem ordersOn_plain {x : Exchange} (plain : x.order? = none) (n : Nat) (past : List Exchange) :
    ordersOn n (x :: past) = ordersOn n past := by
  simp [ordersOn_cons, plain]

theorem order?_setup : order? Connection.setup = none := by decide

theorem order?_start (readOnly : Bool) :
    order? (if readOnly then "START TRANSACTION READ ONLY" else "START TRANSACTION") = some .start := by
  cases readOnly <;> decide

theorem order?_level (i : Isolation) : order? ("SET TRANSACTION ISOLATION LEVEL " ++ i.sql) = some (.level i) := by
  cases i <;> decide

section Leads

variable {α β : Type} {Q R : α → List Exchange → Prop} {past : List Exchange}

/-- Whatever the server answers, a dialogue ends with what is wanted of its result and of all exchanges, the
latest first. -/
def Leads (Q : α → List Exchange → Prop) : Dialogue server α → List Exchange → Prop
  | .done a, past => Q a past
  | .ask q next, past => ∀ reply, Leads Q (next reply) (⟨q.1, q.2, reply⟩ :: past)

theorem Leads.mono (leads : Leads Q d past) (weaker : ∀ a past, Q a past → R a past) : Leads R d past := by
  induction d generalizing past with
  | done a => exact weaker a past leads
  | ask q next ih => exact fun reply => ih reply (leads reply)

theorem leads_bind {Q : β → List Exchange → Prop} {f : α → Dialogue server β} {d : Dialogue server α} :
    Leads Q (d.bind f) past ↔ Leads (fun a past => Leads Q (f a) past) d past := by
  induction d generalizing past with
  | done a => rfl
  | ask q next ih => exact forall_congr' fun reply => ih reply

/-- A server that also keeps what it was sent. -/
def recorded {σ : Type} (below : (q : server.Ask) → σ → server.Reply q × σ) (q : server.Ask)
    (s : σ × List Exchange) : server.Reply q × (σ × List Exchange) :=
  let (reply, lower) := below q s.1
  (reply, (lower, ⟨q.1, q.2, reply⟩ :: s.2))

theorem Leads.run {σ : Type} (below : (q : server.Ask) → σ → server.Reply q × σ) {d : Dialogue server α}
    (leads : Leads Q d past) (s : σ) :
    Q (d.run (recorded below) (s, past)).1 (d.run (recorded below) (s, past)).2.2 := by
  induction d generalizing s past with
  | done a => exact leads
  | ask q next ih => exact ih _ (leads _) _

end Leads

/-- No session was given an order meanwhile. -/
def Quiet (past past' : List Exchange) : Prop := ∀ n, ordersOn n past' = ordersOn n past

/-- One session was given an order, and no other any. -/
def Given (k : Nat) (o : Order) (accepted : Bool) (past past' : List Exchange) : Prop :=
  ∀ n, ordersOn n past' = if k = n then (o, accepted) :: ordersOn n past else ordersOn n past

theorem Given.here {k : Nat} {o : Order} {accepted : Bool} {past past' : List Exchange}
    (given : Given k o accepted past past') : ordersOn k past' = (o, accepted) :: ordersOn k past := by
  rw [given k, if_pos rfl]

theorem Given.elsewhere {k n : Nat} {o : Order} {accepted : Bool} {past past' : List Exchange}
    (given : Given k o accepted past past') (other : n ≠ k) : ordersOn n past' = ordersOn n past := by
  rw [given n, if_neg other.symm]

theorem Quiet.cons {x : Exchange} {past past' : List Exchange} (quiet : Quiet past past')
    (plain : x.order? = none) : Quiet past (x :: past') :=
  fun n => (ordersOn_plain plain n past').trans (quiet n)

namespace Connection

variable {c : Connection} {past : List Exchange}

/-- Making a connection gives no orders, and what is made has the number that it was made for. -/
theorem leads_establish (made : Nat) :
    Leads (fun r past' => (∀ c, r = .ok c → c.number = made) ∧ Quiet past past') (establish made) past := by
  rintro (_ | _)
  · exact ⟨nofun, .cons (fun _ => rfl) rfl⟩
  · intro reply
    have quiet : Quiet past (⟨made, .text setup, reply⟩ :: ⟨made, .connect, true⟩ :: past) :=
      .cons (.cons (fun _ => rfl) rfl) (by simp [Exchange.order?, order?_setup])
    cases reply with
    | error r => exact ⟨nofun, quiet⟩
    | ok => exact ⟨fun c made => by cases made; rfl, quiet⟩

/-- A text that is an order is one for the session of its connection. -/
theorem leads_tell {sql : String} {o : Order} (order : order? sql = some o) :
    Leads (fun r past' => Given c.number o r.isOk past past') (c.tell sql) past := by
  intro reply n
  have verdict : (reply.mapError Fault.refused).isOk = reply.isOk := by cases reply <;> rfl
  simp [ordersOn_cons, Exchange.order?, order, verdict]

theorem leads_prepare (sql : String) :
    Leads (fun r past' => r.2.number = c.number ∧ Quiet past past') (c.prepare sql) past := by
  rw [prepare]
  split
  · exact ⟨rfl, fun _ => rfl⟩
  · rintro (_ | _) <;> exact ⟨rfl, .cons (fun _ => rfl) rfl⟩

/-- Executing what is no order gives none. -/
theorem leads_execute {s : Statement} (plain : order? s.text = none) :
    Leads (fun r past' => r.2.number = c.number ∧ Quiet past past') (c.execute s) past := by
  rw [execute, leads_bind]
  refine (leads_prepare s.text).mono fun (r, c') past₁ ⟨same, quiet⟩ => ?_
  cases r with
  | error => exact ⟨same, quiet⟩
  | ok shape =>
    by_cases fits : s.args.length = shape.parameters
    · simp only [fits, ne_eq, not_true_eq_false, if_false]
      exact fun reply => ⟨same, quiet.cons (by simp [Exchange.order?, plain])⟩
    · simp only [fits, ne_eq, not_false_eq_true, if_true]
      exact ⟨same, quiet⟩

end Connection

/-- The orders of a transaction that is open and no more: the server agreed to start it on what was left over. -/
def Begun (o : TransactionOptions) (before past : Orders) : Prop :=
  past = (.start, true) :: ((o.isolation.map fun i => (.level i, true)).toList ++ before)

theorem Begun.session {o : TransactionOptions} {before past : Orders} (begun : Begun o before past) :
    past.session = ⟨some (o.isolation.or before.session.pending), none⟩ := by
  subst begun
  cases o.isolation <;> simp [Orders.session, Session.obey]

namespace Connection

variable {c : Connection} {past : List Exchange}

/-- The last text of a beginning, where no transaction was left over by a work that succeeded. -/
theorem leads_start (readOnly : Bool) (balanced : (ordersOn c.number past).Balanced) :
    Leads (fun r past' => (∀ n, n ≠ c.number → ordersOn n past' = ordersOn n past) ∧
      match r with
      | .ok () => ordersOn c.number past' = (.start, true) :: ordersOn c.number past
      | .error _ => (ordersOn c.number past').Settled)
      (c.tellAll [if readOnly then "START TRANSACTION READ ONLY" else "START TRANSACTION"]) past := by
  rw [tellAll, leads_bind]
  refine (leads_tell (order?_start readOnly)).mono fun r past' given => ?_
  cases r with
  | error f => exact ⟨fun n => given.elsewhere, given.here ▸ balanced.start_refused⟩
  | ok => exact ⟨fun n => given.elsewhere, given.here⟩

/-- Beginning a transaction concerns one session. It is begun there, or the session is settled as before. -/
theorem leads_begin (o : TransactionOptions) (settled : (ordersOn c.number past).Settled) :
    Leads (fun r past' => (∀ n, n ≠ c.number → ordersOn n past' = ordersOn n past) ∧
      match r with
      | .ok () => Begun o (ordersOn c.number past) (ordersOn c.number past')
      | .error _ => (ordersOn c.number past').Settled) (c.tellAll (beginTexts o)) past := by
  unfold beginTexts
  rcases level : o.isolation with _ | i
  · refine (leads_start o.readOnly settled.balanced).mono fun r past' ⟨others, outcome⟩ => ⟨others, ?_⟩
    cases r with
    | error f => exact outcome
    | ok => simpa [Begun, level] using outcome
  · rw [Option.map_some, Option.toList_some, List.singleton_append, tellAll, leads_bind]
    refine (leads_tell (order?_level i)).mono fun r past₁ given => ?_
    cases r with
    | error f => exact ⟨fun n => given.elsewhere, given.here ▸ settled.level_refused⟩
    | ok =>
      refine (leads_start o.readOnly (given.here ▸ settled.balanced.level)).mono fun r past' ⟨others, outcome⟩ =>
        ⟨fun n other => (others n other).trans (given.elsewhere other), ?_⟩
      cases r with
      | error f => exact outcome
      | ok => simpa [Begun, level, given.here, Except.isOk, Except.toBool] using outcome

end Connection

end Cutover.Sql
