import Cutover.Proofs.DualWrite.Legs

/-! Transactions at the router from their beginning to their end, whatever is done with the router in
between and whatever the pools answer. Other turns never reach the parts of a transaction, so its own turns
tell everything that the parts were ever sent: the part that leads is sent what is asked of the
transaction, and the other one, a step behind, what the leading part has taken. -/
namespace Cutover.DualWrite

/-- The parts of a transaction at the pools. -/
def Transaction.parts (t : Transaction) : List (Side × Sql.Handle) :=
  (t.pattern.primary, t.primary) :: (t.secondary.map (t.pattern.secondary, ·)).toList

/-- Whether a call went to one of the parts. -/
def Exchange.of (t : Transaction) (x : Exchange) : Bool := t.parts.any fun part => x.leg == some part

def sent (part : Side × Sql.Handle) (log : List Exchange) : List Exchange :=
  log.filter fun x => x.leg == some part

def Deed.ends : Deed → Bool
  | .call q => q.ends
  | .set _ => false
  | .switch _ => false

/-- The turns that belong to a transaction, to the first that ends it. -/
def conversation (h : Sql.Handle) : List Turn → List Turn
  | [] => []
  | y :: rest =>
    if y.deed.within? = some h then y :: if y.deed.ends then [] else conversation h rest
    else conversation h rest

def Turn.Told (side : Side) (part : Sql.Handle) : Turn → Prop
  | ⟨⟨.call q, xs, reply⟩, _, _⟩ => DualWrite.Told side part q reply xs
  | _ => False

/-- What becomes of a transaction after it was begun. -/
structure Mirrored (h : Sql.Handle) (t : Transaction) (later : List Turn) : Prop where
  /-- Its parts are reached in its own turns only. -/
  own : (exchanged later).filter (·.of t) = exchanged (conversation h later)
  told : ∀ y ∈ conversation h later, y.Told t.pattern.primary t.primary
  counted : ∀ y ∈ conversation h later, Counted t.pattern.secondary y.exchanges y.before y.after
  mirrored : ∀ c, t.secondary = some c →
    (sent (t.pattern.secondary, c) (exchanged later)).map (·.call) =
      (sent (t.pattern.primary, t.primary) (exchanged later)).filterMap (·.echo c)
  /-- At no moment has the other part been sent more than what follows from the leading part's answers. -/
  behind : ∀ c, t.secondary = some c → ∀ log, log <+: exchanged later →
    (sent (t.pattern.secondary, c) log).map (·.call) <+:
      (sent (t.pattern.primary, t.primary) log).filterMap (·.echo c)
  /-- Nothing is sent to a part after what ends it. -/
  once : ∀ part ∈ t.parts, ∀ x ∈ (sent part (exchanged later)).dropLast, x.call.ends = false
  deprived : t.secondary = none → ∀ x ∈ exchanged (conversation h later), x.side = t.pattern.primary

/-- Turn after turn, each begins with the router that the one before it has left. -/
def Linked : Router → List Turn → Prop
  | _, [] => True
  | r, y :: rest => y.before = r ∧ y.Lawful ∧ Linked y.after rest

theorem Router.traffic_linked {σ : Type} (below : (q : pools.Ask) → σ → pools.Reply q × σ)
    (r : Router) (s : σ) (deeds : List Deed) : Linked r (r.traffic below s deeds).1 := by
  induction deeds generalizing r s with
  | nil => trivial
  | cons d rest ih => exact ⟨by cases d <;> rfl, r.turn_lawful below s d, ih _ _⟩

theorem exchanged_cons (y : Turn) (rest : List Turn) :
    exchanged (y :: rest) = y.exchanges ++ exchanged rest := rfl

section Block

variable {t : Transaction} {ends : Bool} {xs : List Exchange}

/-- What is sent in a turn of a transaction, which may be one that ends it. -/
inductive Block (t : Transaction) (ends : Bool) : List Exchange → Prop
  | silent : Block t ends []
  | alone {x : Exchange} (led : x.leg = some (t.pattern.primary, t.primary)) (ending : x.call.ends = ends)
    (unechoed : t.secondary.bind (x.echo ·) = none) : Block t ends [x]
  | echoed {x y : Exchange} {c : Sql.Handle} (led : x.leg = some (t.pattern.primary, t.primary))
    (ending : x.call.ends = ends) (other : t.secondary = some c) (side : y.side = t.pattern.secondary)
    (echo : x.echo c = some y.call) : Block t ends [x, y]

theorem Exchange.echo_within {x : Exchange} {c : Sql.Handle} {q : Sql.Call} (echo : x.echo c = some q) :
    q.within? = some c ∧ q.ends = x.call.ends := by
  obtain ⟨side, call, reply⟩ := x
  cases call with
  | exec w s | commit w | rollback w => cases reply <;> cases echo <;> exact ⟨rfl, rfl⟩
  | abandon w => cases echo; exact ⟨rfl, rfl⟩
  | _ => cases echo

theorem Told.head {side : Side} {part : Sql.Handle} {q : Sql.Call} {reply : q.Reply}
    (told : Told side part q reply xs) :
    xs = [] ∨ ∃ x rest, xs = x :: rest ∧ x.leg = some (side, part) ∧ x.call.ends = q.ends := by
  cases q with
  | begin o => cases told
  | exec w s | commit w | rollback w | abandon w =>
    obtain ⟨rest, rfl⟩ := List.head?_eq_some_iff.1 told
    exact .inr ⟨_, rest, rfl, rfl, rfl⟩
  | query w s | queryRow w s => exact .inr ⟨_, [], told, rfl, rfl⟩
  | prepare w text => exact .inl told.2

theorem Conducted.block {r r' : Router} {h : Sql.Handle} {q : Sql.Call} {reply : q.Reply}
    (conducted : Conducted r t h q xs reply r') : Block t q.ends xs := by
  obtain rfl | ⟨x, rest, rfl, led, ending⟩ := conducted.told.head
  · exact .silent
  have echoed := conducted.echoed
  simp only [Echoed, List.tail_cons, List.head?_cons, Option.bind_some] at echoed
  cases echo : t.secondary.bind (x.echo ·) with
  | none =>
    rw [echo] at echoed
    obtain rfl : rest = [] := List.map_eq_nil_iff.1 echoed
    exact .alone led ending echo
  | some q =>
    rw [echo] at echoed
    obtain ⟨y, rfl, same⟩ := List.map_eq_singleton_iff.1 echoed
    obtain ⟨c, other, echo⟩ := Option.bind_eq_some_iff.1 echo
    obtain ⟨side, rfl⟩ := Prod.mk.inj same
    exact .echoed led ending other side echo

namespace Block

theorem sides_ne (t : Transaction) : t.pattern.primary ≠ t.pattern.secondary := (Side.other_ne _).symm

theorem echo_leg {x y : Exchange} {c : Sql.Handle} (side : y.side = t.pattern.secondary)
    (echo : x.echo c = some y.call) : y.leg = some (t.pattern.secondary, c) := by
  rw [Exchange.leg, (Exchange.echo_within echo).1, side]
  rfl

theorem of (block : Block t ends xs) : ∀ x ∈ xs, x.of t = true := by
  cases block with
  | silent => exact List.forall_mem_nil _
  | alone led ending unechoed => simp [Exchange.of, Transaction.parts, led]
  | echoed led ending other side echo =>
    simp [Exchange.of, Transaction.parts, led, other, echo_leg side echo]

theorem ending (block : Block t ends xs) : ∀ x ∈ xs, x.call.ends = ends := by
  cases block with
  | silent => exact List.forall_mem_nil _
  | alone led ending unechoed => simpa using ending
  | echoed led ending other side echo =>
    simpa [ending] using (Exchange.echo_within echo).2.trans ending

theorem deprived (block : Block t ends xs) (lone : t.secondary = none) :
    ∀ x ∈ xs, x.side = t.pattern.primary := by
  cases block with
  | silent => exact List.forall_mem_nil _
  | @alone x led =>
    obtain ⟨_, _, same⟩ := Option.map_eq_some_iff.1 led
    simp [← (Prod.mk.inj same).1]
  | echoed led ending other => cases lone.symm.trans other

theorem single (block : Block t ends xs) {part : Side × Sql.Handle} : (sent part xs).length ≤ 1 := by
  cases block with
  | silent => simp [sent]
  | alone led => exact List.length_filter_le _ _
  | echoed led ending other side echo =>
    have apart := sides_ne t
    simp only [sent, List.filter_cons, led, echo_leg side echo]
    grind

theorem complete (block : Block t ends xs) {c : Sql.Handle} (other : t.secondary = some c) :
    (sent (t.pattern.secondary, c) xs).map (·.call) =
      (sent (t.pattern.primary, t.primary) xs).filterMap (·.echo c) := by
  have apart := sides_ne t
  cases block with
  | silent => rfl
  | alone led ending unechoed =>
    rw [other] at unechoed
    simp_all [sent]
  | echoed led ending other' side echo =>
    obtain rfl := Option.some.inj (other.symm.trans other')
    simp [sent, led, echo_leg side echo, apart, apart.symm, echo]

theorem unsent {x : Exchange} (led : x.leg = some (t.pattern.primary, t.primary)) (c : Sql.Handle)
    {log : List Exchange} (start : log <+: [x]) : sent (t.pattern.secondary, c) log = [] := by
  apply List.filter_eq_nil_iff.2
  intro y seen
  rw [List.mem_singleton.1 (start.subset seen), led]
  simp [sides_ne t]

theorem behind (block : Block t ends xs) {c : Sql.Handle} (other : t.secondary = some c)
    {log : List Exchange} (start : log <+: xs) :
    (sent (t.pattern.secondary, c) log).map (·.call) <+:
      (sent (t.pattern.primary, t.primary) log).filterMap (·.echo c) := by
  cases block with
  | silent =>
    rw [List.prefix_nil.1 start]
    exact List.prefix_rfl
  | alone led =>
    rw [unsent led c start]
    exact List.nil_prefix
  | @echoed x y _ led ending other' side echo =>
    obtain rfl | start := List.prefix_concat_iff.1 (show log <+: [x] ++ [y] from start)
    · exact ((echoed led ending other' side echo : Block t ends [x, y]).complete other) ▸ List.prefix_rfl
    · rw [unsent led c start]
      exact List.nil_prefix

end Block
end Block

section Conversation

variable {h : Sql.Handle} {t : Transaction} {past : List (Side × Sql.Handle)} {r : Router} {y : Turn}

def Turn.Conducted (h : Sql.Handle) (t : Transaction) : Turn → Prop
  | ⟨⟨.call q, xs, reply⟩, r, r'⟩ => DualWrite.Conducted r t h q xs reply r'
  | _ => False

theorem Turn.Conducted.told (conducted : y.Conducted h t) : y.Told t.pattern.primary t.primary := by
  obtain ⟨⟨q | _ | _, xs, reply⟩, r, r'⟩ := y
  exacts [DualWrite.Conducted.told conducted, conducted, conducted]

theorem Turn.Conducted.counted (conducted : y.Conducted h t) :
    Counted t.pattern.secondary y.exchanges y.before y.after := by
  obtain ⟨⟨q | _ | _, xs, reply⟩, r, r'⟩ := y
  exacts [DualWrite.Conducted.counted conducted, conducted.elim, conducted.elim]

theorem Turn.Conducted.block (conducted : y.Conducted h t) : Block t y.deed.ends y.exchanges := by
  obtain ⟨⟨q | _ | _, xs, reply⟩, r, r'⟩ := y
  exacts [DualWrite.Conducted.block conducted, conducted.elim, conducted.elim]

theorem Turn.Conducted.transactions (conducted : y.Conducted h t) :
    y.after.transactions =
      if y.deed.ends then y.before.transactions.filter (·.1 != h) else y.before.transactions := by
  obtain ⟨⟨q | _ | _, xs, reply⟩, r, r'⟩ := y
  exacts [DualWrite.Conducted.transactions conducted, conducted.elim, conducted.elim]

theorem Router.mem_transactions (found : r.transaction? h = some t) : (h, t) ∈ r.transactions := by
  obtain ⟨⟨k, u⟩, first, rfl⟩ := Option.map_eq_some_iff.1 found
  obtain rfl : k = h := by simpa using List.find?_some first
  exact List.mem_of_find?_eq_some first

theorem Router.transaction?_close (r : Router) (k h : Sql.Handle) :
    (r.close k).transaction? h = if k = h then none else r.transaction? h := by
  simp only [transaction?, close, List.find?_filter]
  split
  case isTrue same => simp [same]
  case isFalse apart =>
    congr 2
    funext x
    grind

theorem Turn.Conducted.transaction? (conducted : y.Conducted h t) :
    y.after.transaction? h = if y.deed.ends then none else y.before.transaction? h := by
  rw [Router.transaction?, conducted.transactions]
  split
  · exact (y.before.transaction?_close h h).trans (if_pos rfl)
  · rfl

theorem Begun.opened {p : Pattern} {o : Sql.TransactionOptions} {xs : List Exchange} {a : Sql.Handle}
    {b : Option Sql.Handle} (begun : Begun p o xs a b) :
    xs.filterMap (·.opened) = Transaction.parts ⟨p, a, b⟩ := by
  cases begun <;> rfl

theorem Begun.leg {p : Pattern} {o : Sql.TransactionOptions} {xs : List Exchange} {a : Sql.Handle}
    {b : Option Sql.Handle} (begun : Begun p o xs a b) : ∀ x ∈ xs, x.leg = none := by
  cases begun <;> simp [Exchange.leg, Sql.Call.within?]

namespace Lawful

variable {d : Deed} {xs : List Exchange} {outcome : d.Outcome} {r' : Router}

theorem conducted (lawful : Lawful r d xs outcome r') (within : d.within? = some h)
    (found : r.transaction? h = some t) : Turn.Conducted h t ⟨⟨d, xs, outcome⟩, r, r'⟩ := by
  cases lawful with
  | outside plain aside => cases found.symm.trans (aside h within).1
  | refused e => cases within
  | begun parts => cases within
  | inside within' found' conducted =>
    obtain rfl := Option.some.inj (within.symm.trans within')
    obtain rfl := Option.some.inj (found.symm.trans found')
    exact conducted

/-- Nothing comes of what is asked of a transaction that is not open. -/
theorem unfound (lawful : Lawful r d xs outcome r') (within : d.within? = some h)
    (unfound : r.transaction? h = none) : xs = [] ∧ r'.transactions = r.transactions := by
  cases lawful with
  | outside plain aside loose same => exact ⟨(aside h within).2, same⟩
  | refused e => cases within
  | begun parts => cases within
  | inside within' found =>
    obtain rfl := Option.some.inj (within.symm.trans within')
    cases unfound.symm.trans found

/-- An open transaction was open before, or its parts have just come into being. -/
theorem known (lawful : Lawful r d xs outcome r') {k : Sql.Handle} {u : Transaction}
    (opened : (k, u) ∈ r'.transactions) :
    (k, u) ∈ r.transactions ∨
      k = r.begun ∧ k < r'.begun ∧ u.parts = xs.filterMap (·.opened) := by
  cases lawful with
  | outside plain aside loose same => exact .inl (same ▸ opened)
  | refused e => exact .inl opened
  | begun parts counted same next =>
    simp only [same, List.mem_cons, Prod.mk.injEq] at opened
    obtain ⟨rfl, rfl⟩ | opened := opened
    · exact .inr ⟨rfl, by simp [next], parts.opened.symm⟩
    · exact .inl opened
  | inside within found conducted =>
    rw [conducted.transactions] at opened
    split at opened
    · exact .inl (List.mem_of_mem_filter opened)
    · exact .inl opened

theorem begun_le (lawful : Lawful r d xs outcome r') : r.begun ≤ r'.begun := by
  cases lawful with
  | outside plain aside loose same next => exact Nat.le_of_eq next.symm
  | refused e => exact Nat.le_refl _
  | begun parts counted same next => exact next ▸ Nat.le_succ _
  | inside within found conducted => exact Nat.le_of_eq conducted.begun.symm

/-- A turn that does not belong to a transaction leaves it alone, and makes calls in others at most. -/
theorem elsewhere (lawful : Lawful r d xs outcome r') (other : d.within? ≠ some h)
    (numbered : h < r.begun) :
    r'.transaction? h = r.transaction? h ∧
      ∀ x ∈ xs, x.leg = none ∨ ∃ k u, k ≠ h ∧ (k, u) ∈ r.transactions ∧ x.of u = true := by
  cases lawful with
  | outside plain aside loose same =>
    exact ⟨by rw [Router.transaction?, same]; rfl, fun x seen => .inl (loose x seen).1⟩
  | refused e => exact ⟨rfl, by simp [Exchange.leg, Sql.Call.within?]⟩
  | begun parts counted same next =>
    refine ⟨?_, fun x seen => .inl (parts.leg x seen)⟩
    rw [Router.transaction?, same, List.find?_cons_of_neg (by simpa using Nat.ne_of_gt numbered)]
    rfl
  | @inside q _ _ _ k u within found conducted =>
    have apart : k ≠ h := fun same => other (same ▸ within)
    have opened : (k, u) ∈ r.transactions := Router.mem_transactions found
    refine ⟨?_, fun x seen => .inr ⟨k, u, apart, opened, conducted.block.of x seen⟩⟩
    rw [Router.transaction?, conducted.transactions]
    split
    · exact (r.transaction?_close k h).trans (if_neg apart)
    · rfl

end Lawful

/-- The transactions that are open were begun some time, each with parts of its own. -/
def Sound (past : List (Side × Sql.Handle)) (r : Router) : Prop :=
  ∀ k u, (k, u) ∈ r.transactions → k < r.begun ∧ u.parts ⊆ past

theorem sound_start (p : Pattern) : Sound [] (Router.start p) :=
  fun _ _ opened => absurd opened List.not_mem_nil

theorem Sound.turn (sound : Sound past y.before) (lawful : y.Lawful) :
    Sound (past ++ y.exchanges.filterMap (·.opened)) y.after := by
  intro k u opened
  obtain known | ⟨rfl, below, parts⟩ := lawful.known opened
  · obtain ⟨below, parts⟩ := sound k u known
    exact ⟨Nat.lt_of_lt_of_le below lawful.begun_le, List.Subset.trans parts (List.subset_append_left ..)⟩
  · exact ⟨below, parts ▸ List.subset_append_right ..⟩

theorem Sound.turns {front back : List Turn} (sound : Sound past r) (linked : Linked r (front ++ back)) :
    ∃ r', Linked r' back ∧ Sound (past ++ (exchanged front).filterMap (·.opened)) r' := by
  induction front generalizing past r with
  | nil => exact ⟨r, linked, by simpa [exchanged] using sound⟩
  | cons y rest ih =>
    obtain ⟨rfl, lawful, linked⟩ := linked
    rw [exchanged_cons, List.filterMap_append, ← List.append_assoc]
    exact ih (sound.turn lawful) linked

/-- A transaction that was begun shares no part with any other that is open. -/
structure Kept (h : Sql.Handle) (t : Transaction) (past : List (Side × Sql.Handle)) (r : Router) : Prop where
  numbered : h < r.begun
  opened : t.parts ⊆ past
  apart : ∀ k u, (k, u) ∈ r.transactions → k ≠ h → ∀ part ∈ u.parts, part ∉ t.parts

namespace Kept

theorem turn (kept : Kept h t past y.before) (lawful : y.Lawful)
    (fresh : (past ++ y.exchanges.filterMap (·.opened)).Nodup) :
    Kept h t (past ++ y.exchanges.filterMap (·.opened)) y.after := by
  refine ⟨Nat.lt_of_lt_of_le kept.numbered lawful.begun_le,
    List.Subset.trans kept.opened (List.subset_append_left ..), ?_⟩
  intro k u opened other part its shared
  obtain known | ⟨rfl, below, parts⟩ := lawful.known opened
  · exact kept.apart k u known other part its shared
  · exact (List.nodup_append.1 fresh).2.2 part (kept.opened shared) part (parts ▸ its) rfl

theorem unreached (kept : Kept h t past y.before) (lawful : y.Lawful) (other : y.deed.within? ≠ some h) :
    y.exchanges.filter (·.of t) = [] := by
  apply List.filter_eq_nil_iff.2
  intro x seen mine
  simp only [Exchange.of, List.any_eq_true, beq_iff_eq] at mine
  obtain ⟨part, its, leg⟩ := mine
  obtain loose | ⟨k, u, apart, opened, foreign⟩ := (lawful.elsewhere other kept.numbered).2 x seen
  · cases loose.symm.trans leg
  · simp only [Exchange.of, List.any_eq_true, beq_iff_eq] at foreign
    obtain ⟨part', foreign, leg'⟩ := foreign
    obtain rfl := Option.some.inj (leg.symm.trans leg')
    exact kept.apart k u opened apart part foreign its

theorem silent {later : List Turn} (kept : Kept h t past r) (linked : Linked r later)
    (fresh : (past ++ (exchanged later).filterMap (·.opened)).Nodup) (ended : r.transaction? h = none) :
    (exchanged later).filter (·.of t) = [] := by
  induction later generalizing past r with
  | nil => rfl
  | cons y rest ih =>
    obtain ⟨rfl, lawful, linked⟩ := linked
    rw [exchanged_cons, List.filterMap_append, ← List.append_assoc] at fresh
    have kept' := kept.turn lawful (List.nodup_append.1 fresh).1
    rw [exchanged_cons, List.filter_append]
    by_cases within : y.deed.within? = some h
    · obtain ⟨none, same⟩ := lawful.unfound within ended
      rw [none, ih kept' linked fresh (by rw [Router.transaction?, same]; exact ended)]
      rfl
    · rw [kept.unreached lawful within,
        ih kept' linked fresh ((lawful.elsewhere within kept.numbered).1.trans ended)]
      rfl

/-- While it is open, its own turns are all that reach the parts of a transaction. -/
theorem accounted {later : List Turn} (kept : Kept h t past r) (linked : Linked r later)
    (fresh : (past ++ (exchanged later).filterMap (·.opened)).Nodup) (found : r.transaction? h = some t) :
    (exchanged later).filter (·.of t) = exchanged (conversation h later) ∧
      ∀ y ∈ conversation h later, y.Conducted h t := by
  -- That the transaction is open carries the induction up to the turn that ends it; after that turn,
  -- `silent` takes over.
  induction later generalizing past r with
  | nil => exact ⟨rfl, List.forall_mem_nil _⟩
  | cons y rest ih =>
    obtain ⟨rfl, lawful, linked⟩ := linked
    rw [exchanged_cons, List.filterMap_append, ← List.append_assoc] at fresh
    have kept' := kept.turn lawful (List.nodup_append.1 fresh).1
    rw [exchanged_cons, List.filter_append, conversation]
    split
    case isTrue within =>
      have conducted : y.Conducted h t := lawful.conducted within found
      have after := conducted.transaction?
      rw [List.filter_eq_self.2 conducted.block.of]
      split
      case isTrue ends =>
        rw [ends, if_pos rfl] at after
        rw [kept'.silent linked fresh after]
        exact ⟨rfl, by simpa using conducted⟩
      case isFalse goes =>
        rw [if_neg goes, found] at after
        obtain ⟨same, all⟩ := ih kept' linked fresh after
        exact ⟨by rw [same, exchanged_cons], by simpa using ⟨conducted, all⟩⟩
    case isFalse other =>
      rw [kept.unreached lawful other]
      exact ih kept' linked fresh ((lawful.elsewhere other kept.numbered).1.trans found)

end Kept

section Log

variable {turns : List Turn}

theorem sent_append (part : Side × Sql.Handle) (front back : List Exchange) :
    sent part (front ++ back) = sent part front ++ sent part back := List.filter_append ..

/-- What a part was sent is among what reached the transaction. -/
theorem sent_of {part : Side × Sql.Handle} (its : part ∈ t.parts) (log : List Exchange) :
    sent part (log.filter (·.of t)) = sent part log := by
  rw [sent, List.filter_filter]
  apply List.filter_congr
  intro x _
  cases leg : x.leg == some part with
  | false => rfl
  | true => exact List.any_eq_true.2 ⟨part, its, leg⟩

theorem complete (blocks : ∀ y ∈ turns, Block t y.deed.ends y.exchanges) {c : Sql.Handle}
    (other : t.secondary = some c) :
    (sent (t.pattern.secondary, c) (exchanged turns)).map (·.call) =
      (sent (t.pattern.primary, t.primary) (exchanged turns)).filterMap (·.echo c) := by
  induction turns with
  | nil => rfl
  | cons y rest ih =>
    obtain ⟨block, blocks⟩ := List.forall_mem_cons.1 blocks
    simp only [exchanged_cons, sent_append, List.map_append, List.filterMap_append, block.complete other,
      ih blocks]

theorem behind (blocks : ∀ y ∈ turns, Block t y.deed.ends y.exchanges) {c : Sql.Handle}
    (other : t.secondary = some c) {log : List Exchange} (start : log <+: exchanged turns) :
    (sent (t.pattern.secondary, c) log).map (·.call) <+:
      (sent (t.pattern.primary, t.primary) log).filterMap (·.echo c) := by
  induction turns generalizing log with
  | nil =>
    rw [List.prefix_nil.1 start]
    exact List.prefix_rfl
  | cons y rest ih =>
    obtain ⟨block, blocks⟩ := List.forall_mem_cons.1 blocks
    rw [exchanged_cons] at start
    -- The log breaks off within this turn, or it has all of the turn's calls and goes on.
    obtain within | ⟨further, rfl⟩ := List.prefix_or_prefix_of_prefix start (List.prefix_append ..)
    · exact block.behind other within
    · simp only [sent_append, List.map_append, List.filterMap_append, block.complete other]
      exact (List.prefix_append_right_inj _).2 (ih blocks ((List.prefix_append_right_inj _).1 start))

/-- Only the last call to a part can be one that ends it. -/
theorem once {later : List Turn} (blocks : ∀ y ∈ conversation h later, Block t y.deed.ends y.exchanges)
    (part : Side × Sql.Handle) :
    ∀ x ∈ (sent part (exchanged (conversation h later))).dropLast, x.call.ends = false := by
  induction later with
  | nil => exact List.forall_mem_nil _
  | cons y rest ih =>
    rw [conversation] at blocks ⊢
    split
    case isFalse other =>
      rw [if_neg other] at blocks
      exact ih blocks
    case isTrue within =>
      rw [if_pos within] at blocks
      obtain ⟨block, blocks⟩ := List.forall_mem_cons.1 blocks
      split
      case isTrue ends =>
        have single : (sent part (exchanged [y])).length ≤ 1 := by
          simpa [exchanged] using block.single
        have none : (sent part (exchanged [y])).dropLast = [] := by
          rw [← List.length_eq_zero_iff, List.length_dropLast]
          omega
        rw [none]
        exact List.forall_mem_nil _
      case isFalse goes =>
        rw [if_neg goes] at blocks
        have open' : ∀ x ∈ sent part y.exchanges, x.call.ends = false := fun x its =>
          (block.ending x (List.mem_of_mem_filter its)).trans (Bool.not_eq_true _ ▸ goes)
        intro x its
        rw [exchanged_cons, sent_append, List.dropLast_append] at its
        split at its
        · exact open' x (List.dropLast_subset _ its)
        · exact (List.mem_append.1 its).elim (open' x) (ih blocks x)

end Log

theorem mirrored {later : List Turn}
    (own : (exchanged later).filter (·.of t) = exchanged (conversation h later))
    (all : ∀ y ∈ conversation h later, y.Conducted h t) : Mirrored h t later := by
  have blocks : ∀ y ∈ conversation h later, Block t y.deed.ends y.exchanges :=
    fun y its => (all y its).block
  have leading : (t.pattern.primary, t.primary) ∈ t.parts := List.mem_cons_self
  have its {c : Sql.Handle} (other : t.secondary = some c) : (t.pattern.secondary, c) ∈ t.parts := by
    simp [Transaction.parts, other]
  refine ⟨own, fun y its => (all y its).told, fun y its => (all y its).counted, ?_, ?_, ?_, ?_⟩
  · intro c other
    rw [← sent_of (its other), ← sent_of leading, own]
    exact complete blocks other
  · intro c other log start
    rw [← sent_of (its other) log, ← sent_of leading log]
    exact behind blocks other (own ▸ start.filter _)
  · intro part its
    rw [← sent_of its, own]
    exact once blocks part
  · intro lone x seen
    obtain ⟨y, its, seen⟩ := List.mem_flatMap.1 seen
    exact (blocks y its).deprived lone x seen

end Conversation

namespace Router

variable {σ : Type} (below : (q : pools.Ask) → σ → pools.Reply q × σ)

/-- A transaction that was begun has turns of its own, which are all that reaches its parts, if no part comes
into being twice. -/
theorem accounted_begun {p : Pattern} {before later : List Turn} {o : Sql.TransactionOptions}
    {xs : List Exchange} {out : Except Sql.Error Sql.Handle} {r r' : Router} {a : Sql.Handle}
    {b : Option Sql.Handle}
    (linked : Linked (start p) (before ++ ⟨⟨.call (.begin o), xs, out⟩, r, r'⟩ :: later))
    (fresh : ((exchanged (before ++ ⟨⟨.call (.begin o), xs, out⟩, r, r'⟩ :: later)).filterMap
      (·.opened)).Nodup)
    (parts : Begun r.pattern o xs a b)
    (same : r'.transactions = (r.begun, ⟨r.pattern, a, b⟩) :: r.transactions) (next : r'.begun = r.begun + 1) :
    (exchanged later).filter (·.of ⟨r.pattern, a, b⟩) = exchanged (conversation r.begun later) ∧
      ∀ y ∈ conversation r.begun later, y.Conducted r.begun ⟨r.pattern, a, b⟩ := by
  obtain ⟨_, ⟨rfl, lawful, linked⟩, sound⟩ := (sound_start p).turns linked
  simp only [exchanged, List.flatMap_append, List.flatMap_cons, List.filterMap_append] at fresh
  rw [parts.opened, ← List.append_assoc] at fresh
  -- Whatever is open has parts from before, and the two that have just been opened are new.
  have kept : Kept r.begun ⟨r.pattern, a, b⟩
      ((exchanged before).filterMap (·.opened) ++ Transaction.parts ⟨r.pattern, a, b⟩) r' := by
    refine ⟨next ▸ Nat.lt_succ_self _, List.subset_append_right .., ?_⟩
    intro k u opened other part its shared
    rw [same, List.mem_cons, Prod.mk.injEq] at opened
    have known := opened.resolve_left (fun new => other new.1)
    have past : part ∈ (exchanged before).filterMap (·.opened) := (sound k u known).2 its
    exact (List.nodup_append.1 (List.nodup_append.1 fresh).1).2.2 part past part shared rfl
  have found : r'.transaction? r.begun = some ⟨r.pattern, a, b⟩ := by
    rw [transaction?, same, List.find?_cons_of_pos (by simp)]
    rfl
  exact kept.accounted linked fresh found

/-- Whatever was done with the router before and is done with it after, and whatever the pools answer, as
long as neither hands out the same handle twice: a transaction is begun under the pattern in force or
refused as its primary refuses it, and from then to its end the one who uses it is told what its leading
part says. -/
theorem transactions_mirrored (p : Pattern) (s : σ) (deeds : List Deed) {before later : List Turn}
    {o : Sql.TransactionOptions} {xs : List Exchange} {out : Except Sql.Error Sql.Handle} {r r' : Router}
    (served : ((start p).traffic below s deeds).1 =
      before ++ ⟨⟨.call (.begin o), xs, out⟩, r, r'⟩ :: later)
    (fresh : ((exchanged ((start p).traffic below s deeds).1).filterMap (·.opened)).Nodup) :
    (∃ e, xs = [⟨r.pattern.primary, .begin o, .error e⟩] ∧ out = .error e ∧ r' = r) ∨
      ∃ h t, out = .ok h ∧ t.pattern = r.pattern ∧ Begun r.pattern o xs t.primary t.secondary ∧
        Counted r.pattern.secondary xs r r' ∧ Mirrored h t later := by
  have linked := traffic_linked below (start p) s deeds
  rw [served] at linked fresh
  obtain ⟨_, ⟨-, lawful, -⟩, -⟩ := (sound_start p).turns linked
  have lawful : Lawful r (.call (.begin o)) xs out r' := lawful
  cases lawful with
  | outside plain => exact absurd rfl (plain o)
  | refused e => exact .inl ⟨e, rfl, rfl, rfl⟩
  | inside within => cases within
  | @begun _ _ a b _ parts counted same next =>
    obtain ⟨own, all⟩ := accounted_begun linked fresh parts same next
    exact .inr ⟨r.begun, ⟨r.pattern, a, b⟩, rfl, rfl, parts, counted, mirrored own all⟩

/-- Pools that number their transactions and do whatever they are asked, but let no one write to the
destination. -/
def reluctant : (q : pools.Ask) → Nat → pools.Reply q × Nat
  | (_, .begin _), n => (.ok n, n + 1)
  | (.src, .exec ..), n => (.ok ⟨1, none⟩, n)
  | (.dst, .exec ..), n => (.error (.backend "dst" "read-only"), n)
  | (_, .query ..), n => (.ok [], n)
  | (_, .queryRow ..), n => (.ok none, n)
  | (_, .prepare _ text), n => (.ok ⟨text, []⟩, n)
  | (_, .commit _), n => (.ok (), n)
  | (_, .rollback _), n => (.ok (), n)
  | (_, .abandon _), n => ((), n)

/-- A transaction writes, reads and is committed, while a second one comes and goes under another pattern. -/
def crossing : List Deed :=
  [.call (.begin ⟨none, false⟩), .call (.exec (some 0) ⟨"UPDATE a", []⟩), .switch "dst_only",
    .call (.begin ⟨none, false⟩), .call (.query (some 0) ⟨"SELECT 1", []⟩),
    .call (.exec (some 1) ⟨"UPDATE b", []⟩), .call (.rollback 1), .call (.commit 0)]

theorem transactions_mirrored_crossing :
    let turns := ((start .srcFirst).traffic reluctant 0 crossing).1
    ((exchanged turns).filterMap (·.opened)).Nodup ∧ ∃ t, Mirrored 0 t turns.tail := by
  have fresh : ((exchanged ((start .srcFirst).traffic reluctant 0 crossing).1).filterMap
      (·.opened)).Nodup := by decide
  have served : ((start .srcFirst).traffic reluctant 0 crossing).1 =
      [] ++ ⟨⟨.call (.begin ⟨none, false⟩), _, .ok 0⟩, start .srcFirst, _⟩ :: _ := rfl
  refine ⟨fresh, ?_⟩
  obtain ⟨e, _, refused, _⟩ | ⟨h, t, begun, _, _, _, mirrored⟩ :=
    transactions_mirrored reluctant .srcFirst 0 crossing served fresh
  · cases refused
  · cases begun
    exact ⟨t, mirrored⟩

/-- Preparation is the exception to what a leading part has to say: it would have prepared the statement,
and is not asked. -/
theorem preparation_unanswered :
    ¬∀ (deeds : List Deed) (before later : List Turn) (o : Sql.TransactionOptions) (xs : List Exchange)
      (h : Sql.Handle) (r r' : Router),
      ((start .srcFirst).traffic reluctant 0 deeds).1 =
        before ++ ⟨⟨.call (.begin o), xs, .ok h⟩, r, r'⟩ :: later →
      ∀ y ∈ conversation h later,
        ∃ x ∈ y.exchanges, x.side = r.pattern.primary ∧ HEq x.reply y.outcome := by
  intro all
  obtain ⟨x, asked, _⟩ := all [.call (.begin ⟨none, false⟩), .call (.prepare (some 0) "SELECT 1")]
    [] _ _ _ _ _ _ rfl _ List.mem_cons_self
  cases asked

end Router
end Cutover.DualWrite
