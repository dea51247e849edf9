import Cutover.Proofs.Sql.Session

/-! What a pool hands on with its connections. Each connection is idle or belongs to one open transaction, and
on an idle one nothing is left over but what the server refused to end or to start. A transaction that is
begun on it takes over the level that was left over if it asked for none itself. -/
namespace Cutover.Sql

namespace Call

/-- What a transaction was begun with, if one was. -/
def opened : (q : Call) → q.Reply → List TransactionOptions
  | .begin o, .ok _ => [o]
  | _, _ => []

/-- It has no order of its own for a session. -/
def Plain : Call → Prop
  | .exec _ s | .query _ s | .queryRow _ s => order? s.text = none
  | _ => True

end Call

namespace ConnectionPool

/-- The connections that there are, idle or not. -/
def numbers (p : ConnectionPool) : List Nat := p.idle.map (·.number) ++ p.held.map (·.2.number)

/-- Every connection is in one place, and its session is as befits that place. -/
structure Orderly (p : ConnectionPool) (past : List Exchange) (opened : List TransactionOptions) : Prop where
  distinct : p.numbers.Nodup
  made : ∀ n ∈ p.numbers, n < p.made
  unmade : ∀ n, p.made ≤ n → ordersOn n past = []
  idle : ∀ c ∈ p.idle, (ordersOn c.number past).Settled
  begun : opened.length = p.begun
  held : ∀ h c, (h, c) ∈ p.held → ∃ o before, opened[h]? = some o ∧ before.Settled ∧
    Begun o before (ordersOn c.number past)

/-- A connection that was taken out of the pool. -/
structure Out (p : ConnectionPool) (n : Nat) : Prop where
  fresh : n ∉ p.numbers
  made : n < p.made

namespace Orderly

variable {p : ConnectionPool} {past past' : List Exchange} {opened : List TransactionOptions} {c : Connection}

/-- The sessions of the connections in the pool are what counts. -/
theorem carry (orderly : Orderly p past opened)
    (same : ∀ n, n ∈ p.numbers ∨ p.made ≤ n → ordersOn n past' = ordersOn n past) : Orderly p past' opened where
  distinct := orderly.distinct
  made := orderly.made
  unmade n unmade := (same n (.inr unmade)).trans (orderly.unmade n unmade)
  idle c idle := by
    rw [same c.number (.inl (List.mem_append_left _ (List.mem_map_of_mem idle)))]
    exact orderly.idle c idle
  begun := orderly.begun
  held h c held := by
    rw [same c.number (.inl (List.mem_append_right _ (List.mem_map_of_mem (f := fun x => x.2.number) held)))]
    exact orderly.held h c held

theorem quiet (orderly : Orderly p past opened) (quiet : Quiet past past') : Orderly p past' opened :=
  orderly.carry fun n _ => quiet n

/-- What is said on a connection that is out is no matter of the pool. -/
theorem aside (orderly : Orderly p past opened) {n : Nat} (out : Out p n)
    (others : ∀ k, k ≠ n → ordersOn k past' = ordersOn k past) : Orderly p past' opened := by
  refine orderly.carry fun k there => others k fun same => ?_
  subst same
  rcases there with inside | unmade
  · exact out.fresh inside
  · exact absurd out.made (by omega)

theorem release (orderly : Orderly p past opened) (out : Out p c.number)
    (settled : (ordersOn c.number past).Settled) : Orderly (p.release c) past opened := by
  have numbers : (p.release c).numbers.Perm (c.number :: p.numbers) := by
    simp [ConnectionPool.numbers, ConnectionPool.release]
  refine ⟨numbers.nodup_iff.mpr (List.nodup_cons.mpr ⟨out.fresh, orderly.distinct⟩), fun n there => ?_,
    orderly.unmade, fun d idle => ?_, orderly.begun, orderly.held⟩
  · rcases List.mem_cons.mp (numbers.mem_iff.mp there) with rfl | there
    · exact out.made
    · exact orderly.made n there
  · rcases List.mem_append.mp idle with idle | same
    · exact orderly.idle d idle
    · exact List.mem_singleton.mp same ▸ settled

/-- A connection goes to a transaction. -/
theorem keep (orderly : Orderly p past opened) (out : Out p c.number) {h : Handle} {o : TransactionOptions}
    {before : Orders} (options : opened[h]? = some o) (settled : before.Settled)
    (begun : Begun o before (ordersOn c.number past)) :
    Orderly { p with held := (h, c) :: p.held } past opened := by
  have numbers : ({ p with held := (h, c) :: p.held } : ConnectionPool).numbers.Perm (c.number :: p.numbers) := by
    simp [ConnectionPool.numbers]
  refine ⟨numbers.nodup_iff.mpr (List.nodup_cons.mpr ⟨out.fresh, orderly.distinct⟩), fun n there => ?_,
    orderly.unmade, orderly.idle, orderly.begun, fun k d held => ?_⟩
  · rcases List.mem_cons.mp (numbers.mem_iff.mp there) with rfl | there
    · exact out.made
    · exact orderly.made n there
  · rcases List.mem_cons.mp held with same | held
    · cases same
      exact ⟨o, before, options, settled, begun⟩
    · exact orderly.held k d held

/-- The next handle stands for the options of the transaction that is begun. -/
theorem name (orderly : Orderly p past opened) (o : TransactionOptions) :
    Orderly { p with begun := p.begun + 1 } past (opened ++ [o]) where
  distinct := orderly.distinct
  made := orderly.made
  unmade := orderly.unmade
  idle := orderly.idle
  begun := by simp [orderly.begun]
  held h c held := by
    obtain ⟨o', before, options, inside⟩ := orderly.held h c held
    exact ⟨o', before, List.getElem?_append_left (List.getElem?_eq_some_iff.mp options).1 ▸ options, inside⟩

/-- What the pool gives out is one of its idle connections or a new one. -/
theorem acquire (orderly : Orderly p past opened) :
    Leads (fun (r, p') past' => Quiet past past' ∧ Orderly p' past' opened ∧
      ∀ c, r = .ok c → Out p' c.number ∧ (ordersOn c.number past').Settled) p.acquire past := by
  obtain ⟨name, idle, held, made, begun⟩ := p
  rcases idle with _ | ⟨c, idle⟩
  · rw [ConnectionPool.acquire, leads_bind]
    refine (Connection.leads_establish made).mono fun r past' ⟨number, quiet⟩ => ?_
    refine ⟨quiet, ?_, fun c established => ?_⟩
    · have same := orderly.quiet quiet
      exact { same with
        made := fun n there => Nat.lt_succ_of_lt (same.made n there)
        unmade := fun n unmade => same.unmade n (Nat.le_of_succ_le unmade) }
    · rw [number c established]
      refine ⟨⟨fun there => absurd (orderly.made _ there) (Nat.lt_irrefl _), Nat.lt_succ_self _⟩, ?_⟩
      rw [quiet made, orderly.unmade made (Nat.le_refl _)]
      exact Orders.settled_nil
  · obtain ⟨alone, distinct⟩ := List.nodup_cons.mp orderly.distinct
    refine ⟨fun _ => rfl, ⟨distinct, fun n there => orderly.made n (List.mem_cons_of_mem _ there), orderly.unmade,
      fun d there => orderly.idle d (List.mem_cons_of_mem _ there), orderly.begun, orderly.held⟩, ?_⟩
    rintro _ ⟨⟩
    exact ⟨⟨alone, orderly.made c.number List.mem_cons_self⟩, orderly.idle c List.mem_cons_self⟩

/-- The connection of a transaction is in no other place. -/
theorem without (orderly : Orderly p past opened) {h : Handle} (held : p.held.lookup h = some c) :
    Orderly (p.without h) past opened ∧ Out (p.without h) c.number := by
  have there := mem_of_lookup held
  have fewer : (p.without h).numbers.Sublist p.numbers :=
    (List.Sublist.refl _).append ((List.filter_sublist (l := p.held)).map _)
  refine ⟨⟨orderly.distinct.sublist fewer, fun n there => orderly.made n (fewer.mem there), orderly.unmade,
    orderly.idle, orderly.begun, fun k d held => orderly.held k d (List.mem_filter.mp held).1⟩, ?_, ?_⟩
  · obtain ⟨-, apart, disjoint⟩ := List.nodup_append.mp orderly.distinct
    intro inside
    rcases List.mem_append.mp inside with idle | other
    · exact disjoint _ idle _ (List.mem_map_of_mem (f := fun x => x.2.number) there) rfl
    · obtain ⟨x, kept, number⟩ := List.mem_map.mp other
      obtain ⟨inHeld, differs⟩ := List.mem_filter.mp kept
      have same : x = (h, c) := List.inj_on_of_nodup_map apart inHeld there number
      simp [same] at differs
  · exact orderly.made _ (List.mem_append_right _ (List.mem_map_of_mem (f := fun x => x.2.number) there))

/-- Ends a transaction, and its connection goes back whatever the server says. -/
theorem finish (orderly : Orderly p past opened) (h : Handle) {sql : String} (order : order? sql = some .close) :
    Leads (fun r past' => Orderly r.2 past' opened) (p.finish h sql) past := by
  rw [ConnectionPool.finish]
  rcases held : p.held.lookup h with _ | c
  · exact orderly
  · obtain ⟨rest, out⟩ := orderly.without held
    obtain ⟨o, before, -, -, begun⟩ := orderly.held h c (mem_of_lookup held)
    rw [leads_bind]
    refine (Connection.leads_tell order).mono fun r past' given => ?_
    exact (rest.aside out fun n => given.elsewhere).release out (given.here ▸ Orders.settled_close begun.session)

theorem begin (orderly : Orderly p past opened) (o : TransactionOptions) :
    Leads (fun r past' => Orderly r.2 past' (opened ++ (Call.begin o).opened r.1)) (p.begin o) past := by
  rw [ConnectionPool.begin, leads_bind]
  refine orderly.acquire.mono fun (r, p') past₁ ⟨_, orderly, given⟩ => ?_
  cases r with
  | error f => simpa [Leads, Call.opened] using orderly
  | ok c =>
    obtain ⟨out, settled⟩ := given c rfl
    -- Until it is begun or given up the connection is in no place, and only its own session changes.
    rw [leads_bind]
    refine (Connection.leads_begin o settled).mono fun r past' ⟨others, outcome⟩ => ?_
    cases r with
    | error f => simpa [Leads, Call.opened] using (orderly.aside out others).release out outcome
    | ok =>
      have named := (orderly.aside out others).name o
      have options : (opened ++ [o])[p'.begun]? = some o := by
        rw [← orderly.begun]
        exact List.getElem?_concat_length
      exact named.keep ⟨out.fresh, out.made⟩ options settled outcome

section Work

variable {α : Type} {work : Work α}

/-- A work that keeps to its connection and gives no orders. -/
def Plain (work : Work α) : Prop :=
  ∀ c past, Leads (fun r past' => r.2.number = c.number ∧ Quiet past past') (work c) past

theorem lend (orderly : Orderly p past opened) (plain : Plain work) :
    Leads (fun r past' => Orderly r.2 past' opened) (p.lend work) past := by
  rw [ConnectionPool.lend, leads_bind]
  refine orderly.acquire.mono fun (r, p') past₁ ⟨_, orderly, given⟩ => ?_
  cases r with
  | error f => exact orderly
  | ok c =>
    obtain ⟨out, settled⟩ := given c rfl
    rw [leads_bind]
    refine (plain c past₁).mono fun (r, c') past' ⟨same, quiet⟩ => ?_
    exact (orderly.quiet quiet).release (same ▸ out) (by rw [same, quiet]; exact settled)

theorem inside (orderly : Orderly p past opened) (h : Handle) (plain : Plain work) :
    Leads (fun r past' => Orderly r.2 past' opened) (p.inside h work) past := by
  rw [ConnectionPool.inside]
  rcases held : p.held.lookup h with _ | c
  · exact orderly
  · obtain ⟨rest, out⟩ := orderly.without held
    obtain ⟨o, before, options, settled, begun⟩ := orderly.held h c (mem_of_lookup held)
    rw [leads_bind]
    refine (plain c past).mono fun (r, c') past' ⟨same, quiet⟩ => ?_
    exact (rest.quiet quiet).keep (same ▸ out) options settled (by rw [same, quiet]; exact begun)

theorem on (orderly : Orderly p past opened) (within : Option Handle) (plain : Plain work) :
    Leads (fun r past' => Orderly r.2 past' opened) (p.on within work) past := by
  cases within with
  | none => exact orderly.lend plain
  | some h => exact orderly.inside h plain

theorem plain_run {s : Statement} (plain : order? s.text = none) (read : Execution → Except String α) :
    Plain (run s read) := by
  intro c past
  rw [run, leads_bind]
  exact (Connection.leads_execute plain).mono fun r past' kept => kept

end Work

theorem answer (orderly : Orderly p past opened) {q : Call} (plain : q.Plain) :
    Leads (fun r past' => Orderly r.2 past' (opened ++ q.opened r.1)) (p.answer q) past := by
  cases q with
  | begin o => exact orderly.begin o
  | exec within s | query within s | queryRow within s =>
    simpa [Call.opened, ConnectionPool.answer] using orderly.on within (plain_run plain _)
  | prepare within sql =>
    have kept : Leads (fun r past' => Orderly r.2 past' opened) (p.answer (.prepare within sql)) past := by
      refine orderly.on within fun c past => ?_
      rw [leads_bind]
      exact (Connection.leads_prepare sql).mono fun r past' kept => kept
    simpa [Call.opened] using kept
  | commit h => simpa [Call.opened, ConnectionPool.answer] using orderly.finish h (by decide)
  | rollback h => simpa [Call.opened, ConnectionPool.answer] using orderly.finish h (by decide)
  | abandon h =>
    rw [ConnectionPool.answer, leads_bind]
    simpa [Call.opened, Leads] using orderly.finish h (by decide)

end Orderly

/-- The pool answers calls. What the transactions were begun with is kept beside it, in the order of their
handles. -/
def answerAll (p : ConnectionPool) (opened : List TransactionOptions) :
    List Call → Dialogue server (ConnectionPool × List TransactionOptions)
  | [] => .done (p, opened)
  | q :: rest => (p.answer q).bind fun (reply, p) => p.answerAll (opened ++ q.opened reply) rest

/-- A pool is connected and answers calls. -/
def service (name : String) (calls : List Call) :
    Dialogue server (Except Error (ConnectionPool × List TransactionOptions)) :=
  (connect name).bind fun
    | .error e => .done (.error e)
    | .ok p => (p.answerAll [] calls).bind fun r => .done (.ok r)

theorem Orderly.answerAll {p : ConnectionPool} {past : List Exchange} {opened : List TransactionOptions}
    (orderly : Orderly p past opened) {calls : List Call} (plain : ∀ q ∈ calls, q.Plain) :
    Leads (fun r past' => Orderly r.1 past' r.2) (p.answerAll opened calls) past := by
  induction calls generalizing p past opened with
  | nil => exact orderly
  | cons q rest ih =>
    obtain ⟨first, others⟩ := List.forall_mem_cons.mp plain
    rw [ConnectionPool.answerAll, leads_bind]
    exact (orderly.answer first).mono fun r past' kept => ih kept others

theorem leads_connect (name : String) :
    Leads (fun r past => ∀ p, r = .ok p → Orderly p past []) (connect name) [] := by
  rw [connect, leads_bind]
  refine (Connection.leads_establish 0).mono fun r past ⟨number, quiet⟩ => ?_
  cases r with
  | error f => exact nofun
  | ok c =>
    rintro _ ⟨⟩
    have zero := number c rfl
    refine ⟨by simp [numbers], by simp [numbers, zero], fun n _ => quiet n, fun d there => ?_, rfl, by simp⟩
    obtain rfl := List.mem_singleton.mp there
    exact (quiet d.number).symm ▸ Orders.settled_nil

theorem leads_service (name : String) {calls : List Call} (plain : ∀ q ∈ calls, q.Plain) :
    Leads (fun r past => ∀ p opened, r = .ok (p, opened) → Orderly p past opened) (service name calls) [] := by
  rw [service, leads_bind]
  refine (leads_connect name).mono fun r past orderly => ?_
  cases r with
  | error e => exact nofun
  | ok p =>
    simp only [leads_bind]
    refine ((orderly p rfl).answerAll plain).mono fun r past' orderly => ?_
    rintro _ _ ⟨⟩
    exact orderly

theorem mem_of_ordersOn {n : Nat} {past : List Exchange} {x : Order × Bool} (given : x ∈ ordersOn n past) :
    ∃ e ∈ past, e.order? = some x := by
  obtain ⟨e, there, order⟩ := List.mem_filterMap.mp given
  refine ⟨e, there, ?_⟩
  split at order
  · exact order
  · cases order

/-- A connection that the pool gives out has an open transaction exactly if the server refused the last
`COMMIT` or `ROLLBACK` on it, and a level that waits only if the server refused the last `START TRANSACTION`.
A transaction runs at the level it asked for, and if it asked for none at the one that waited. So if the server
refuses none of these, the pool gives out fresh sessions alone and every transaction runs at its own level. -/
theorem left_over_if_refused {σ : Type} (below : (q : server.Ask) → σ → server.Reply q × σ) {name : String}
    {calls : List Call} (plain : ∀ q ∈ calls, q.Plain) {s lower : σ} {p : ConnectionPool}
    {opened : List TransactionOptions} {past : List Exchange}
    (served : (service name calls).run (recorded below) (s, []) = (.ok (p, opened), lower, past)) :
    (∀ c p' lower' past', p.acquire.run (recorded below) (lower, past) = ((.ok c, p'), lower', past') →
      (ordersOn c.number past').Settled) ∧
    (∀ h c, (h, c) ∈ p.held → ∃ (o : TransactionOptions) (before : Orders), opened[h]? = some o ∧
      before <:+ ordersOn c.number past ∧ before.Settled ∧
      (ordersOn c.number past).session = ⟨some (o.isolation.or before.session.pending), none⟩) ∧
    ((∀ x ∈ past, x.order? ≠ some (.start, false) ∧ x.order? ≠ some (.close, false)) →
      (∀ c p' lower' past', p.acquire.run (recorded below) (lower, past) = ((.ok c, p'), lower', past') →
        (ordersOn c.number past').session = .fresh) ∧
      ∀ h c, (h, c) ∈ p.held → ∃ o, opened[h]? = some o ∧
        (ordersOn c.number past).session = ⟨some o.isolation, none⟩) := by
  have orderly : Orderly p past opened := by
    have ends := (leads_service name plain).run below s
    rw [served] at ends
    exact ends p opened rfl
  have given {c p' lower' past'}
      (acquired : p.acquire.run (recorded below) (lower, past) = ((.ok c, p'), lower', past')) :
      ordersOn c.number past' = ordersOn c.number past ∧ (ordersOn c.number past').Settled := by
    have ends := orderly.acquire.run below lower
    rw [acquired] at ends
    exact ⟨ends.1 c.number, (ends.2.2 c rfl).2⟩
  have inside h c (held : (h, c) ∈ p.held) : ∃ (o : TransactionOptions) (before : Orders),
      opened[h]? = some o ∧ before <:+ ordersOn c.number past ∧ before.Settled ∧
      (ordersOn c.number past).session = ⟨some (o.isolation.or before.session.pending), none⟩ := by
    obtain ⟨o, before, options, settled, begun⟩ := orderly.held h c held
    refine ⟨o, before, options, ?_, settled, begun.session⟩
    rw [begun]
    exact List.suffix_cons_iff.mpr (.inr (List.suffix_append _ _))
  refine ⟨fun c p' lower' past' acquired => (given acquired).2, inside, fun agreed => ?_⟩
  have clean {n : Nat} {before : Orders} (part : before <:+ ordersOn n past) (settled : before.Settled) :
      before.session = .fresh := by
    refine settled.fresh (fun refused => ?_) (fun refused => ?_) <;>
      obtain ⟨x, there, order⟩ := mem_of_ordersOn (part.subset refused)
    · exact (agreed x there).1 order
    · exact (agreed x there).2 order
  refine ⟨fun c p' lower' past' acquired => ?_, fun h c held => ?_⟩
  · obtain ⟨same, settled⟩ := given acquired
    have all : ordersOn c.number past' <:+ ordersOn c.number past := by simp [same]
    exact clean all settled
  · obtain ⟨o, before, options, part, settled, session⟩ := inside h c held
    refine ⟨o, options, ?_⟩
    rw [session, clean part settled, Session.fresh, Option.or_none]

/-- A server that takes texts or refuses them as a list says, and takes everything else. -/
def scripted : (q : server.Ask) → List Bool → server.Reply q × List Bool
  | (_, .connect), s => (true, s)
  | (_, .text _), false :: s => (.error ⟨1064, "HY000", "no"⟩, s)
  | (_, .text _), s => (.ok (), s.tail)
  | (_, .prepare _), s => (.ok ⟨0, []⟩, s)
  | (_, .execute _), s => (.ok (.effect 0 0), s)

/-- A transaction at a level, with a statement, while another is begun and given up. -/
theorem left_over_if_refused_scripted :
    let calls : List Call := [.begin ⟨some .serializable, true⟩, .exec (some 0) ⟨"SELECT 1", []⟩,
      .begin ⟨none, false⟩, .abandon 1]
    (∀ q ∈ calls, q.Plain) ∧ ∃ p opened lower past,
      (service "src" calls).run (recorded scripted) ([], []) = (.ok (p, opened), lower, past) ∧
      (∀ h c, (h, c) ∈ p.held → ∃ o, opened[h]? = some o ∧
        (ordersOn c.number past).session = ⟨some o.isolation, none⟩) ∧ p.held.map (·.1) = [0] := by
  intro calls
  have plain : ∀ q ∈ calls, q.Plain := by
    intro q there
    simp only [calls, List.mem_cons, List.not_mem_nil, or_false] at there
    rcases there with rfl | rfl | rfl | rfl <;> simp [Call.Plain]
    decide
  have served : (service "src" calls).run (recorded scripted) ([], []) = _ := rfl
  obtain ⟨-, -, clean⟩ := left_over_if_refused scripted plain served
  exact ⟨plain, _, _, _, _, served, (clean (by decide)).2, rfl⟩

/-- A connection is given out with an open transaction after a refused `ROLLBACK`, and one with a level that an
earlier transaction asked for after a refused `START TRANSACTION`. -/
theorem left_over :
    (∃ p opened lower past c, (service "src" [.begin ⟨none, false⟩, .rollback 0]).run (recorded scripted)
        ([true, true, false], []) = (.ok (p, opened), lower, past) ∧
      (p.acquire.run (recorded scripted) (lower, past)).1.1 = .ok c ∧
      (ordersOn c.number past).session.running = some none) ∧
    (∃ p opened lower past c, (service "src" [.begin ⟨some .serializable, false⟩, .begin ⟨none, false⟩]).run
        (recorded scripted) ([true, true, false, true], []) = (.ok (p, opened), lower, past) ∧
      (0, c) ∈ p.held ∧ opened[0]? = some ⟨none, false⟩ ∧
      (ordersOn c.number past).session.running = some (some .serializable)) := by
  constructor
  · exact ⟨_, _, _, _, _, rfl, rfl, by decide⟩
  · exact ⟨_, _, _, _, _, rfl, List.mem_cons_self, rfl, by decide⟩

end ConnectionPool
end Cutover.Sql
