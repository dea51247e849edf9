import Mathlib.Data.List.Induction
import Mathlib.Logic.Function.Basic
import Cutover.Proofs.DualWrite.Mirroring

/-! What becomes permanent of a transaction at the two databases behind the router. A statement that fails
has no effect inside its transaction and leaves it open, and its commit makes permanent what was written.
The following part goes on after a failed statement, as all of its work is best effort: once a commit was
answered, the database in the lead has applied all that the transaction wrote, and the other one what it
took of that, provided that it was begun and its own commit succeeded, and otherwise nothing. -/
namespace Cutover.DualWrite

/-- What a database holds, as it follows from the calls that it answered. -/
structure Holdings where
  /-- What was written in each transaction and is not yet permanent. -/
  pending : Sql.Handle → List Sql.Statement
  /-- What is permanent, with the transaction that it was written in, if any. -/
  applied : List (Option Sql.Handle × Sql.Statement)

namespace Holdings

def empty : Holdings := ⟨fun _ => [], []⟩

def heed (b : Holdings) : Exchange → Holdings
  | ⟨_, .exec none s, .ok _⟩ => { b with applied := b.applied ++ [(none, s)] }
  | ⟨_, .exec (some h) s, .ok _⟩ => { b with pending := Function.update b.pending h (b.pending h ++ [s]) }
  | ⟨_, .commit h, .ok _⟩ =>
    ⟨Function.update b.pending h [], b.applied ++ (b.pending h).map (some h, ·)⟩
  | ⟨_, .commit h, .error _⟩ | ⟨_, .rollback h, _⟩ | ⟨_, .abandon h, _⟩ =>
    { b with pending := Function.update b.pending h [] }
  | _ => b

def appliedIn (b : Holdings) (h : Sql.Handle) : List Sql.Statement :=
  (b.applied.filter (·.1 == some h)).map (·.2)

end Holdings

/-- What the database on a side holds after a log of calls. -/
def holdings (side : Side) (log : List Exchange) : Holdings :=
  (log.filter (·.side == side)).foldl Holdings.heed .empty

namespace Exchange

/-- The statement that was executed. -/
def write? : Exchange → Option Sql.Statement
  | ⟨_, .exec _ s, .ok _⟩ => some s
  | _ => none

end Exchange

section Holdings

variable {b c : Holdings} {x : Exchange} {h : Sql.Handle} {side : Side} {log front : List Exchange}

/-- What a database holds of one transaction. -/
def Holdings.share (b : Holdings) (h : Sql.Handle) : List Sql.Statement × List Sql.Statement :=
  (b.pending h, b.appliedIn h)

theorem Holdings.share_aside (aside : x.call.within? ≠ some h) : (b.heed x).share h = b.share h := by
  obtain ⟨side, q, reply⟩ := x
  cases q with
  | exec w s =>
    cases w with
    | none => cases reply <;> simp [heed, share, appliedIn]
    | some k =>
      have apart : h ≠ k := fun same => aside (congrArg some same.symm)
      cases reply <;> simp [heed, share, appliedIn, apart]
  | commit k =>
    have apart : h ≠ k := fun same => aside (congrArg some same.symm)
    cases reply <;> simp [heed, share, appliedIn, apart, apart.symm, List.filter_map]
  | rollback k | abandon k =>
    have apart : h ≠ k := fun same => aside (congrArg some same.symm)
    simp [heed, share, appliedIn, apart]
  | begin | query | queryRow | prepare => rfl

theorem Holdings.share_open (within : x.call.within? = some h) (goes : x.call.ends = false) :
    (b.heed x).share h = (b.pending h ++ x.write?.toList, b.appliedIn h) := by
  obtain ⟨side, q, reply⟩ := x
  cases q with
  | exec w s =>
    cases within
    cases reply <;> simp [heed, share, appliedIn, Exchange.write?]
  | query w s | queryRow w s | prepare w s => simp [heed, share, Exchange.write?]
  | begin => cases within
  | commit | rollback | abandon => cases goes

theorem Holdings.appliedIn_commit (side : Side) (reply : Except Sql.Error Unit) :
    (b.heed ⟨side, .commit h, reply⟩).appliedIn h =
      b.appliedIn h ++ if reply.isOk then b.pending h else [] := by
  cases reply with
  | ok => simp [heed, appliedIn, List.filter_map, Function.comp_def, Except.isOk, Except.toBool]
  | error e => simp [heed, appliedIn, Except.isOk, Except.toBool]

theorem holdings_concat (side : Side) (log : List Exchange) (x : Exchange) :
    holdings side (log ++ [x]) =
      if x.side = side then (holdings side log).heed x else holdings side log := by
  rw [holdings, List.filter_append, List.foldl_append]
  split
  next here => simp [here, holdings]
  next other => simp [other, holdings]

theorem sent_concat_of_ne (apart : x.leg ≠ some (side, h)) : sent (side, h) (log ++ [x]) = sent (side, h) log := by
  simp [sent, apart]

theorem sent_concat_of_eq (its : x.leg = some (side, h)) :
    sent (side, h) (log ++ [x]) = sent (side, h) log ++ [x] := by
  simp [sent, its]

theorem Exchange.leg_eq_some : x.leg = some (side, h) ↔ x.side = side ∧ x.call.within? = some h := by
  simp [leg, and_comm]

/-- A call that does not reach a part leaves what is held of it. -/
theorem share_concat (apart : x.leg ≠ some (side, h)) :
    (holdings side (log ++ [x])).share h = (holdings side log).share h := by
  rw [holdings_concat]
  split
  next here => exact Holdings.share_aside fun within => apart (Exchange.leg_eq_some.2 ⟨here, within⟩)
  next => rfl

/-- As long as a part was not ended, nothing that was written in it is permanent. -/
theorem share_of_open (goes : ∀ x ∈ sent (side, h) log, x.call.ends = false) :
    (holdings side log).share h = ((sent (side, h) log).filterMap (·.write?), []) := by
  induction log using List.reverseRecOn with
  | nil => rfl
  | append_singleton earlier x ih =>
    by_cases its : x.leg = some (side, h)
    · rw [sent_concat_of_eq its] at goes ⊢
      obtain ⟨here, within⟩ := Exchange.leg_eq_some.1 its
      have before := ih fun y member => goes y (List.mem_append_left _ member)
      simp only [Holdings.share, Prod.mk.injEq] at before
      rw [holdings_concat, if_pos here, Holdings.share_open within (goes x (by simp)), before.1, before.2,
        List.filterMap_append]
      cases wrote : x.write? <;> simp [wrote]
    · rw [sent_concat_of_ne its] at goes ⊢
      rw [share_concat its, ih goes]

/-- A commit makes permanent what was written, if it succeeds. -/
theorem appliedIn_of_committed {reply : Except Sql.Error Unit}
    (all : sent (side, h) log = front ++ [⟨side, .commit h, reply⟩])
    (goes : ∀ x ∈ front, x.call.ends = false) :
    (holdings side log).appliedIn h = if reply.isOk then front.filterMap (·.write?) else [] := by
  induction log using List.reverseRecOn with
  | nil => exact absurd (congrArg List.length all) (by simp [sent])
  | append_singleton earlier x ih =>
    by_cases its : x.leg = some (side, h)
    · rw [sent_concat_of_eq its] at all
      obtain ⟨rfl, last⟩ := List.append_inj' all rfl
      obtain rfl := List.singleton_inj.1 last
      have before := share_of_open goes
      simp only [Holdings.share, Prod.mk.injEq] at before
      rw [holdings_concat, if_pos rfl, Holdings.appliedIn_commit, before.1, before.2, List.nil_append]
    · rw [sent_concat_of_ne its] at all
      exact (congrArg Prod.snd (share_concat its)).trans (ih all)

end Holdings

section Parts

variable {t : Transaction} {ends : Bool} {xs : List Exchange} {h : Sql.Handle} {y : Turn}

/-- The statement that a side took, of which there is one call in a turn. -/
def taken (side : Side) (xs : List Exchange) : Option Sql.Statement :=
  (xs.find? (·.side == side)).bind (·.write?)

/-- The transaction ended with a commit that succeeded. -/
def Turn.Committed (h : Sql.Handle) : Turn → Prop
  | ⟨⟨.call (.commit k), _, .ok ()⟩, _, _⟩ => k = h
  | _ => False

theorem Turn.Committed.conducted (committed : y.Committed h) (conducted : y.Conducted h t) :
    y.deed.ends = true ∧ y.exchanges.head? = some ⟨t.pattern.primary, .commit t.primary, .ok ()⟩ := by
  obtain ⟨⟨q | _ | _, xs, reply⟩, r, r'⟩ := y
  · cases q with
    | commit k =>
      cases reply with
      | ok u => exact ⟨rfl, DualWrite.Conducted.told conducted⟩
      | error e => cases committed
    | _ => cases committed
  all_goals cases committed

@[simp] theorem taken_nil (side : Side) : taken side [] = none := rfl

theorem taken_here {x : Exchange} {side : Side} (here : x.side = side) (rest : List Exchange) :
    taken side (x :: rest) = x.write? := by
  simp [taken, here]

theorem taken_behind {x : Exchange} {side : Side} (apart : x.side ≠ side) (rest : List Exchange) :
    taken side (x :: rest) = taken side rest := by
  simp [taken, apart]

namespace Exchange

variable {x y : Exchange} {c : Sql.Handle} {s : Sql.Statement}

theorem filterMap_write? (x : Exchange) : [x].filterMap (·.write?) = x.write?.toList := by
  cases wrote : x.write? <;> simp [wrote]

theorem write?_eq_some (wrote : x.write? = some s) : ∃ side w effect, x = ⟨side, .exec w s, .ok effect⟩ := by
  obtain ⟨side, q, reply⟩ := x
  cases q with
  | exec w s =>
    cases reply with
    | ok effect =>
      cases wrote
      exact ⟨side, w, effect, rfl⟩
    | error e => cases wrote
  | _ => cases wrote

theorem echo_of_write? (wrote : x.write? = some s) (c : Sql.Handle) : x.echo c = some (.exec (some c) s) := by
  obtain ⟨_, _, _, rfl⟩ := write?_eq_some wrote
  rfl

/-- Nothing but a write follows from a write, and no write from anything else. -/
theorem write?_of_echo (echo : x.echo c = some y.call) (wrote : y.write? = some s) : x.write? = some s := by
  obtain ⟨_, _, _, rfl⟩ := write?_eq_some wrote
  obtain ⟨side, q, reply⟩ := x
  cases q with
  | exec w s | commit w | rollback w => cases reply <;> cases echo <;> rfl
  | _ => cases echo

/-- A write that follows is taken as well, unless it fails. -/
theorem write?_echo (echo : x.echo c = some y.call) (heeds : y.lapse? ≠ some .exec) : y.write? = x.write? := by
  cases wrote : x.write? with
  | some s =>
    obtain ⟨side, q, reply⟩ := y
    obtain rfl : .exec (some c) s = q := Option.some.inj ((echo_of_write? wrote c).symm.trans echo)
    cases reply with
    | ok effect => rfl
    | error e => exact absurd rfl heeds
  | none =>
    rw [← Option.not_isSome_iff_eq_none, Option.isSome_iff_exists]
    rintro ⟨s, also⟩
    cases wrote.symm.trans (write?_of_echo echo also)

end Exchange

namespace Block

theorem side_of_led {x : Exchange} (led : x.leg = some (t.pattern.primary, t.primary)) :
    x.side = t.pattern.primary :=
  (Exchange.leg_eq_some.1 led).1

theorem leading (block : Block t ends xs) :
    (sent (t.pattern.primary, t.primary) xs).filterMap (·.write?) = (taken t.pattern.primary xs).toList := by
  have apart := sides_ne t
  cases block with
  | silent => rfl
  | alone led =>
    rw [taken_here (side_of_led led)]
    simpa [sent, led] using Exchange.filterMap_write? _
  | echoed led ending there side echo =>
    rw [taken_here (side_of_led led)]
    simpa [sent, led, echo_leg side echo, apart.symm] using Exchange.filterMap_write? _

theorem following (block : Block t ends xs) {c : Sql.Handle} (other : t.secondary = some c) :
    (sent (t.pattern.secondary, c) xs).filterMap (·.write?) = (taken t.pattern.secondary xs).toList := by
  have apart := sides_ne t
  cases block with
  | silent => rfl
  | alone led =>
    rw [taken_behind (side_of_led led ▸ apart), taken_nil]
    simp [sent, led, apart]
  | echoed led ending there side echo =>
    obtain rfl := Option.some.inj (other.symm.trans there)
    rw [taken_behind (side_of_led led ▸ apart), taken_here side]
    simpa [sent, led, echo_leg side echo, apart] using Exchange.filterMap_write? _

theorem follows (block : Block t ends xs) {s : Sql.Statement} (wrote : taken t.pattern.secondary xs = some s) :
    taken t.pattern.primary xs = some s := by
  have apart := sides_ne t
  cases block with
  | silent => cases wrote
  | alone led =>
    rw [taken_behind (side_of_led led ▸ apart)] at wrote
    cases wrote
  | echoed led ending there side echo =>
    rw [taken_behind (side_of_led led ▸ apart), taken_here side] at wrote
    rw [taken_here (side_of_led led)]
    exact Exchange.write?_of_echo echo wrote

theorem followed (block : Block t ends xs) {c : Sql.Handle} (other : t.secondary = some c)
    (heeds : ∀ x ∈ xs, x.side = t.pattern.secondary → x.lapse? ≠ some .exec) :
    taken t.pattern.secondary xs = taken t.pattern.primary xs := by
  have apart := sides_ne t
  cases block with
  | silent => rfl
  | @alone x led ending unechoed =>
    rw [taken_behind (side_of_led led ▸ apart), taken_here (side_of_led led), taken_nil, eq_comm,
      ← Option.not_isSome_iff_eq_none, Option.isSome_iff_exists]
    rintro ⟨s, wrote⟩
    rw [other, Option.bind_some, Exchange.echo_of_write? wrote] at unechoed
    cases unechoed
  | echoed led ending there side echo =>
    rw [taken_behind (side_of_led led ▸ apart), taken_here side, taken_here (side_of_led led)]
    exact Exchange.write?_echo echo (heeds _ (by simp) side)

/-- A commit that succeeded is the one call to the leading part, and one to the other part follows. -/
theorem committed (block : Block t ends xs)
    (first : xs.head? = some ⟨t.pattern.primary, .commit t.primary, .ok ()⟩) :
    sent (t.pattern.primary, t.primary) xs = [⟨t.pattern.primary, .commit t.primary, .ok ()⟩] ∧
      ∀ c, t.secondary = some c → ∃ reply : Except Sql.Error Unit,
        sent (t.pattern.secondary, c) xs = [⟨t.pattern.secondary, .commit c, reply⟩] ∧
          (reply.isOk = true ↔ (⟨t.pattern.secondary, .commit c, .ok ()⟩ : Exchange) ∈ xs) := by
  have apart := sides_ne t
  cases block with
  | silent => cases first
  | alone led ending unechoed =>
    obtain rfl := Option.some.inj first
    refine ⟨by simp [sent, led], fun c other => ?_⟩
    rw [other] at unechoed
    cases unechoed
  | @echoed _ y d led ending there side echo =>
    obtain rfl := Option.some.inj first
    refine ⟨by simp [sent, led, echo_leg side echo, apart.symm], fun c other => ?_⟩
    obtain rfl := Option.some.inj (other.symm.trans there)
    have leg := echo_leg side echo
    obtain ⟨place, q, reply⟩ := y
    obtain rfl : place = t.pattern.secondary := side
    obtain rfl : .commit c = q := Option.some.inj echo
    refine ⟨reply, by simp [sent, led, leg, apart], ?_⟩
    cases reply with
    | ok u => simp [Except.isOk, Except.toBool]
    | error e => simp [Except.isOk, Except.toBool, apart.symm]

end Block

theorem conversation_concat {later : List Turn} (member : y ∈ conversation h later) (ending : y.deed.ends = true) :
    ∃ talk, conversation h later = talk ++ [y] ∧ ∀ z ∈ talk, z.deed.ends = false := by
  induction later with
  | nil => cases member
  | cons first rest ih =>
    rw [conversation] at member ⊢
    split at member
    next within =>
      rw [if_pos within]
      by_cases last : first.deed.ends = true
      · rw [if_pos last] at member ⊢
        obtain rfl := List.mem_singleton.1 member
        exact ⟨[], rfl, List.forall_mem_nil _⟩
      · rw [if_neg last] at member ⊢
        rcases List.mem_cons.1 member with rfl | later
        · exact absurd ending last
        · obtain ⟨talk, same, goes⟩ := ih later
          rw [same]
          exact ⟨first :: talk, rfl, List.forall_mem_cons.2 ⟨eq_false_of_ne_true last, goes⟩⟩
    next other =>
      rw [if_neg other]
      exact ih member

/-- What is permanent of a transaction that was committed, by a log of all calls. `own` are its turns. -/
structure Permanent (t : Transaction) (own : List Turn) (log : List Exchange) : Prop where
  leading : (holdings t.pattern.primary log).appliedIn t.primary =
    own.filterMap (taken t.pattern.primary ·.exchanges)
  /-- All that the other side took, the side in the lead took in the same turn. -/
  follows : ∀ y ∈ own, ∀ s, taken t.pattern.secondary y.exchanges = some s →
    taken t.pattern.primary y.exchanges = some s
  following : ∀ c, t.secondary = some c →
    (⟨t.pattern.secondary, .commit c, .ok ()⟩ : Exchange) ∈ exchanged own →
      (holdings t.pattern.secondary log).appliedIn c = own.filterMap (taken t.pattern.secondary ·.exchanges)
  uncommitted : ∀ c, t.secondary = some c →
    (⟨t.pattern.secondary, .commit c, .ok ()⟩ : Exchange) ∉ exchanged own →
      (holdings t.pattern.secondary log).appliedIn c = []
  deprived : t.secondary = none → ∀ x ∈ exchanged own, x.side = t.pattern.primary
  /-- All or nothing, if no statement fails. -/
  atomic : (∀ x ∈ exchanged own, x.side = t.pattern.secondary → x.lapse? ≠ some .exec) →
    ∀ c, t.secondary = some c →
      (holdings t.pattern.secondary log).appliedIn c = (holdings t.pattern.primary log).appliedIn t.primary ∨
        (holdings t.pattern.secondary log).appliedIn c = []

section Own

variable {talk : List Turn}

theorem filterMap_sent (part : Side × Sql.Handle)
    (each : ∀ z ∈ talk, (sent part z.exchanges).filterMap (·.write?) = (taken part.1 z.exchanges).toList) :
    (sent part (exchanged talk)).filterMap (·.write?) = talk.filterMap (taken part.1 ·.exchanges) := by
  induction talk with
  | nil => rfl
  | cons z rest ih =>
    obtain ⟨first, later⟩ := List.forall_mem_cons.1 each
    rw [exchanged_cons, sent_append, List.filterMap_append, first, ih later, List.filterMap_cons]
    cases taken part.1 z.exchanges <;> rfl

theorem exchanged_concat (talk : List Turn) (y : Turn) : exchanged (talk ++ [y]) = exchanged talk ++ y.exchanges := by
  simp [exchanged]

/-- A part that was sent no end before the last turn, and its commit there. -/
theorem appliedIn_eq {log : List Exchange} {side : Side} {reply : Except Sql.Error Unit}
    (blocks : ∀ z ∈ talk, Block t z.deed.ends z.exchanges) (goes : ∀ z ∈ talk, z.deed.ends = false)
    (each : ∀ z ∈ talk ++ [y],
      (sent (side, h) z.exchanges).filterMap (·.write?) = (taken side z.exchanges).toList)
    (last : sent (side, h) y.exchanges = [⟨side, .commit h, reply⟩])
    (all : sent (side, h) log = sent (side, h) (exchanged (talk ++ [y]))) :
    (holdings side log).appliedIn h =
      if reply.isOk then (talk ++ [y]).filterMap (taken side ·.exchanges) else [] := by
  have wrote := filterMap_sent (side, h) each
  rw [exchanged_concat, sent_append, last] at all wrote
  rw [appliedIn_of_committed all, ← wrote, List.filterMap_append]
  · simp [Exchange.write?]
  · intro x seen
    obtain ⟨z, there, its⟩ := List.mem_flatMap.1 (List.mem_of_mem_filter seen)
    exact ((blocks z there).ending x its).trans (goes z there)

theorem permanent {log : List Exchange} (blocks : ∀ z ∈ talk ++ [y], Block t z.deed.ends z.exchanges)
    (goes : ∀ z ∈ talk, z.deed.ends = false)
    (ending : y.exchanges.head? = some ⟨t.pattern.primary, .commit t.primary, .ok ()⟩)
    (all : ∀ part ∈ t.parts, sent part log = sent part (exchanged (talk ++ [y]))) :
    Permanent t (talk ++ [y]) log := by
  have before : ∀ z ∈ talk, Block t z.deed.ends z.exchanges := fun z there =>
    blocks z (List.mem_append_left _ there)
  obtain ⟨lead, follow⟩ := (blocks y (by simp)).committed ending
  have leading : (holdings t.pattern.primary log).appliedIn t.primary =
      (talk ++ [y]).filterMap (taken t.pattern.primary ·.exchanges) :=
    appliedIn_eq before goes (fun z there => (blocks z there).leading) lead (all _ List.mem_cons_self)
  have following (c : Sql.Handle) (other : t.secondary = some c) : ∃ reply : Except Sql.Error Unit,
      (reply.isOk = true ↔ (⟨t.pattern.secondary, .commit c, .ok ()⟩ : Exchange) ∈ exchanged (talk ++ [y])) ∧
        (holdings t.pattern.secondary log).appliedIn c =
          if reply.isOk then (talk ++ [y]).filterMap (taken t.pattern.secondary ·.exchanges) else [] := by
    obtain ⟨reply, last, ok⟩ := follow c other
    refine ⟨reply, ?_, appliedIn_eq before goes (fun z there => (blocks z there).following other) last
      (all _ (by simp [Transaction.parts, other]))⟩
    rw [ok, exchanged_concat, List.mem_append, or_iff_right]
    intro early
    obtain ⟨z, there, its⟩ := List.mem_flatMap.1 early
    cases ((before z there).ending _ its).trans (goes z there)
  refine ⟨leading, fun z there s => (blocks z there).follows, fun c other ok => ?_, fun c other failed => ?_,
    fun lone x seen => ?_, fun heeds c other => ?_⟩
  · obtain ⟨reply, iff, applied⟩ := following c other
    rw [applied, if_pos (iff.2 ok)]
  · obtain ⟨reply, iff, applied⟩ := following c other
    rw [applied, if_neg (mt iff.1 failed)]
  · obtain ⟨z, there, its⟩ := List.mem_flatMap.1 seen
    exact (blocks z there).deprived lone x its
  · obtain ⟨reply, -, applied⟩ := following c other
    rw [applied, leading]
    split
    next =>
      left
      refine List.filterMap_congr fun z there => (blocks z there).followed other fun x its => ?_
      exact heeds x (List.mem_flatMap.2 ⟨z, there, its⟩)
    next => exact .inr rfl

end Own

/-- A call in a transaction goes to one that is open. -/
theorem Lawful.reached {r r' : Router} {d : Deed} {outcome : d.Outcome} (lawful : Lawful r d xs outcome r') :
    ∀ x ∈ xs, x.leg = none ∨ ∃ k u, (k, u) ∈ r.transactions ∧ x.of u = true := by
  cases lawful with
  | outside plain aside loose => exact fun x seen => .inl (loose x seen).1
  | refused e => simp [Exchange.leg, Sql.Call.within?]
  | begun parts => exact fun x seen => .inl (parts.leg x seen)
  | inside within found conducted =>
    exact fun x seen => .inr ⟨_, _, Router.mem_transactions found, conducted.block.of x seen⟩

/-- A part that has not come into being was sent nothing. -/
theorem Sound.unsent {past : List (Side × Sql.Handle)} {r : Router} {front back : List Turn}
    (sound : Sound past r) (linked : Linked r (front ++ back)) {part : Side × Sql.Handle}
    (unborn : part ∉ past ++ (exchanged front).filterMap (·.opened)) : sent part (exchanged front) = [] := by
  induction front generalizing past r with
  | nil => rfl
  | cons z rest ih =>
    obtain ⟨rfl, lawful, linked⟩ := linked
    rw [exchanged_cons, List.filterMap_append, ← List.append_assoc] at unborn
    rw [exchanged_cons, sent_append, ih (sound.turn lawful) linked unborn, List.append_nil]
    refine List.filter_eq_nil_iff.2 fun x seen its => ?_
    have its : x.leg = some part := beq_iff_eq.1 its
    obtain loose | ⟨k, u, opened, reached⟩ := lawful.reached x seen
    · cases loose.symm.trans its
    · simp only [Exchange.of, List.any_eq_true, beq_iff_eq] at reached
      obtain ⟨other, there, leg⟩ := reached
      obtain rfl := Option.some.inj (its.symm.trans leg)
      exact unborn (List.mem_append_left _ (List.mem_append_left _ ((sound k u opened).2 there)))

end Parts

namespace Router

variable {σ : Type} (below : (q : pools.Ask) → σ → pools.Reply q × σ)

/-- Whatever was done with the router before and is done with it after, and whatever the pools answer: when a
transaction ended with a commit that succeeded, the database in the lead has applied all that was written in
it, and the other one, if its part was begun and committed, what it took of that, and otherwise nothing. -/
theorem permanent_as_taken (p : Pattern) (s : σ) (deeds : List Deed) {before later : List Turn}
    {o : Sql.TransactionOptions} {xs : List Exchange} {h : Sql.Handle} {r r' : Router} {y : Turn}
    (served : ((start p).traffic below s deeds).1 =
      before ++ ⟨⟨.call (.begin o), xs, .ok h⟩, r, r'⟩ :: later)
    (fresh : ((exchanged ((start p).traffic below s deeds).1).filterMap (·.opened)).Nodup)
    (ending : y ∈ conversation h later) (committed : y.Committed h) :
    ∃ t, t.pattern = r.pattern ∧ Begun r.pattern o xs t.primary t.secondary ∧
      Permanent t (conversation h later) (exchanged ((start p).traffic below s deeds).1) := by
  have linked := traffic_linked below (start p) s deeds
  rw [served] at linked fresh ⊢
  obtain ⟨_, ⟨-, lawful, -⟩, -⟩ := (sound_start p).turns linked
  have lawful : Lawful r (.call (.begin o)) xs (.ok h) r' := lawful
  cases lawful with
  | outside plain => exact absurd rfl (plain o)
  | inside within => cases within
  | @begun _ _ a b _ parts counted same next =>
    refine ⟨⟨r.pattern, a, b⟩, rfl, parts, ?_⟩
    obtain ⟨own, all⟩ := accounted_begun linked fresh parts same next
    obtain ⟨ends, first⟩ := committed.conducted (all y ending)
    obtain ⟨talk, concat, goes⟩ := conversation_concat ending ends
    have blocks : ∀ z ∈ conversation r.begun later,
        Block ⟨r.pattern, a, b⟩ z.deed.ends z.exchanges := fun z its => (all z its).block
    rw [concat] at blocks own ⊢
    refine permanent blocks goes first fun part its => ?_
    have unborn : part ∉ [] ++ (exchanged before).filterMap (·.opened) := by
      intro early
      simp only [exchanged, List.flatMap_append, List.flatMap_cons, List.filterMap_append, parts.opened] at fresh
      exact (List.nodup_append.1 fresh).2.2 part early part (List.mem_append_left _ its) rfl
    have unbegun : sent part xs = [] := by
      refine List.filter_eq_nil_iff.2 fun x seen => ?_
      rw [parts.leg x seen]
      exact Bool.false_ne_true
    have split (front : List Turn) (z : Turn) (back : List Turn) :
        exchanged (front ++ z :: back) = exchanged front ++ (z.exchanges ++ exchanged back) := by
      simp [exchanged]
    rw [← own, sent_of its, split, sent_append, sent_append, (sound_start p).unsent linked unborn, unbegun]
    rfl

/-- Pools that number their transactions and do whatever they are asked, but refuse one statement at the
destination. -/
def picky : (q : pools.Ask) → Nat → pools.Reply q × Nat
  | (.dst, .exec _ ⟨"UPDATE a", _⟩), n => (.error (.backend "dst" "busy"), n)
  | (_, .exec ..), n => (.ok ⟨1, none⟩, n)
  | (_, .begin _), n => (.ok n, n + 1)
  | (_, .query ..), n => (.ok [], n)
  | (_, .queryRow ..), n => (.ok none, n)
  | (_, .prepare _ text), n => (.ok ⟨text, []⟩, n)
  | (_, .commit _), n => (.ok (), n)
  | (_, .rollback _), n => (.ok (), n)
  | (_, .abandon _), n => ((), n)

/-- Two statements in one transaction. -/
def couple : List Deed :=
  [.call (.begin ⟨none, false⟩), .call (.exec (some 0) ⟨"UPDATE a", []⟩),
    .call (.exec (some 0) ⟨"UPDATE b", []⟩), .call (.commit 0)]

theorem committed_couple :
    ∃ y ∈ conversation 0 ((start .srcFirst).traffic picky 0 couple).1.tail, y.Committed 0 :=
  ⟨_, List.mem_cons_of_mem _ (List.mem_cons_of_mem _ List.mem_cons_self), rfl⟩

theorem permanent_as_taken_couple :
    let turns := ((start .srcFirst).traffic picky 0 couple).1
    ((exchanged turns).filterMap (·.opened)).Nodup ∧ (∃ y ∈ conversation 0 turns.tail, y.Committed 0) ∧
      ∃ t, Permanent t (conversation 0 turns.tail) (exchanged turns) := by
  have fresh : ((exchanged ((start .srcFirst).traffic picky 0 couple).1).filterMap (·.opened)).Nodup := by
    decide
  have served : ((start .srcFirst).traffic picky 0 couple).1 =
      [] ++ ⟨⟨.call (.begin ⟨none, false⟩), _, .ok 0⟩, start .srcFirst, _⟩ ::
        ((start .srcFirst).traffic picky 0 couple).1.tail := rfl
  obtain ⟨y, ending, committed⟩ := committed_couple
  obtain ⟨t, -, -, permanent⟩ := permanent_as_taken picky .srcFirst 0 couple served fresh ending committed
  exact ⟨fresh, ⟨y, ending, committed⟩, t, permanent⟩

/-- A transaction may be torn at the database that follows: its first statement fails there, its second does
not, and that one is committed. -/
theorem torn_transaction :
    ¬∀ (deeds : List Deed) (before later : List Turn) (o : Sql.TransactionOptions) (xs : List Exchange)
      (h a c : Sql.Handle) (r r' : Router) (y : Turn),
      ((start .srcFirst).traffic picky 0 deeds).1 =
        before ++ ⟨⟨.call (.begin o), xs, .ok h⟩, r, r'⟩ :: later →
      Begun r.pattern o xs a (some c) → y ∈ conversation h later → y.Committed h →
      let log := exchanged ((start .srcFirst).traffic picky 0 deeds).1
      (holdings r.pattern.secondary log).appliedIn c = (holdings r.pattern.primary log).appliedIn a ∨
        (holdings r.pattern.secondary log).appliedIn c = [] := by
  intro all
  obtain ⟨y, ending, committed⟩ := committed_couple
  rcases all couple [] _ _ _ 0 0 1 _ _ y rfl (.joined 0 1 rfl) ending committed with whole | nothing
  · exact absurd (congrArg List.length whole) (by decide)
  · exact absurd (congrArg List.length nothing) (by decide)

end Router

end Cutover.DualWrite
