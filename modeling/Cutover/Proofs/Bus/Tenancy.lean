import Mathlib.Algebra.Ring.Int.Defs
import Cutover.Proofs.Bus.Carrier
import Cutover.Proofs.Bus.Leasehold
import Cutover.Proofs.Run

/-! Consumers of a queue in a table, any number of them, each in the middle of what it does with the queue.
The database executes one statement at a time; whose is next, what the clocks say and which statement fails
is left open. -/
namespace Cutover

open LeaseTable

theorem toInt_add_millisWord {now : Int64} {d : Duration} (fits : now.toInt + d.millis < 2 ^ 63) :
    (now + d.millisWord).toInt = now.toInt + d.millis := by
  have low := now.le_toInt
  have size : Int64.size = 2 ^ 64 := rfl
  rw [Int64.toInt_add, Duration.millisWord, Int64.toInt_ofNat', size, Int.add_bmod_bmod, Int.bmod_eq_of_le]
  · omega
  · omega

/-- What is done with a queue, with the clock as it was read. -/
inductive Call where
  | publish (q : LeaseQueue) (now : Int64) (payload : List UInt8)
  | take (q : LeaseQueue) (now : Int64) (owner : String)
  | ack (q : LeaseQueue) (l : Lease)
  | nack (q : LeaseQueue) (now : Int64) (l : Lease) (r : Redelivery)

namespace Call

abbrev Rest := LeaseQueue.Asking (Option (List UInt8 × Lease))

/-- Only a take comes back with something. -/
def silent (d : LeaseQueue.Asking Unit) : Rest := d.bind fun r => .done (r.map fun () => none)

def dialogue : Call → Rest
  | .publish q now payload => silent (q.publish now payload)
  | .take q now owner => q.take now owner
  | .ack q l => silent (q.ack l)
  | .nack q now l r => silent (q.nack now l r)

def token? : Call → Option String
  | .take _ _ owner => some owner
  | _ => none

/-- When the lease ends that is taken, or the pause that is asked for. -/
def expiry : Call → Int
  | .take q now _ => now.toInt + q.lease.millis
  | .nack _ now l r => now.toInt + (r.delay l.attempts).millis
  | .publish .. | .ack .. => 0

/-- The clock was read right, and no sum of times is too large for a word. -/
def Timely (clock : Int64) : Call → Prop
  | .take q now owner => now = clock ∧ (take q now owner).expiry < 2 ^ 63
  | .nack q now l r => now = clock ∧ (nack q now l r).expiry < 2 ^ 63
  | .publish .. | .ack .. => True

instance (clock : Int64) : (c : Call) → Decidable (c.Timely clock)
  | .take .. | .nack .. => inferInstanceAs (Decidable (_ ∧ _))
  | .publish .. | .ack .. => inferInstanceAs (Decidable True)

end Call

structure Work where
  call : Call
  rest : Call.Rest

structure Tenancy where
  clock : Int64
  /-- Whether everybody has read this one clock, and it was never put back. -/
  orderly : Bool
  table : LeaseTable
  log : List (Nat × Entry)
  works : List Work

namespace Tenancy

inductive Move where
  | tick (clock : Int64)
  | begin (call : Call)
  /-- The database executes the statement that a call waits for. -/
  | answered (k : Nat)
  /-- The call is told of a failure, whether or not the statement was executed. -/
  | failed (k : Nat) (cause : Sql.Error) (performed : Bool)

def tokens (x : Tenancy) : List String := x.works.filterMap (·.call.token?)

def enter (x : Tenancy) (call : Call) : LeaseQuery → List (Nat × Entry)
  | .claim owner _ now =>
    entered (claimable now) (.claimed owner x.clock.toInt call.expiry) x.table x.log
  | .claimed owner => entered (readable owner) (.returned owner) x.table x.log
  | .finish id owner => entered (heldBy id owner) (.finished owner) x.table x.log
  | .release _ id owner => entered (heldBy id owner) (.released owner call.expiry) x.table x.log
  | .create | .outstanding | .insert .. => x.log

def perform (x : Tenancy) (call : Call) (q : LeaseQuery) : Tenancy :=
  { x with table := (x.table.execute q).2, log := x.enter call q }

def reads : LeaseQuery → Bool
  | .outstanding | .claimed _ => true
  | _ => false

def refused (cause : Sql.Error) : (q : LeaseQuery) → q.Reply
  | .outstanding | .claimed _ => .error cause
  | .create | .insert .. | .claim .. | .finish .. | .release .. => .error cause

def advance (x : Tenancy) : Move → Option Tenancy
  | .tick clock => some { x with clock, orderly := x.orderly && decide (x.clock ≤ clock) }
  | .begin call =>
    if ∀ owner ∈ call.token?, owner ∉ x.tokens then some { x with
      orderly := x.orderly && decide (call.Timely x.clock)
      works := x.works ++ [⟨call, call.dialogue⟩] }
    else none
  | .answered k =>
    match x.works[k]? with
    | some ⟨call, .ask q next⟩ =>
      some { x.perform call q with works := x.works.set k ⟨call, next (x.table.execute q).1⟩ }
    | _ => none
  | .failed k cause performed =>
    match x.works[k]? with
    | some ⟨call, .ask q next⟩ =>
      some { if performed && !reads q then x.perform call q else x with
        works := x.works.set k ⟨call, next (refused cause q)⟩ }
    | _ => none

def follow : Tenancy → List Move → Option Tenancy
  | x, [] => some x
  | x, m :: rest => (x.advance m).bind fun x => x.follow rest

theorem follows : Follows advance follow := ⟨fun _ => rfl, fun _ _ _ => rfl⟩

def start (clock : Int64) : Tenancy := ⟨clock, true, [], [], []⟩

variable {x y z : Tenancy} {m : Move} {moves : List Move} {call : Call} {rest : Call.Rest} {q : LeaseQuery}
  {next : q.Reply → Call.Rest}

inductive Outcome (x : Tenancy) : Tenancy → Prop where
  | ticked (clock : Int64) :
    Outcome x { x with clock, orderly := x.orderly && decide (x.clock ≤ clock) }
  | begun (call : Call) (fresh : ∀ owner ∈ call.token?, owner ∉ x.tokens) : Outcome x { x with
      orderly := x.orderly && decide (call.Timely x.clock)
      works := x.works ++ [⟨call, call.dialogue⟩] }
  | answered {k : Nat} {call : Call} {q : LeaseQuery} {next : q.Reply → Call.Rest}
    (found : x.works[k]? = some ⟨call, .ask q next⟩) : Outcome x { x.perform call q with
      works := x.works.set k ⟨call, next (x.table.execute q).1⟩ }
  | lost {k : Nat} {call : Call} {q : LeaseQuery} {next : q.Reply → Call.Rest}
    (found : x.works[k]? = some ⟨call, .ask q next⟩) (cause : Sql.Error) : Outcome x { x.perform call q with
      works := x.works.set k ⟨call, next (refused cause q)⟩ }
  | refused {k : Nat} {call : Call} {q : LeaseQuery} {next : q.Reply → Call.Rest}
    (found : x.works[k]? = some ⟨call, .ask q next⟩) (cause : Sql.Error) : Outcome x { x with
      works := x.works.set k ⟨call, next (refused cause q)⟩ }

theorem outcome_of_advance (step : x.advance m = some y) : Outcome x y := by
  cases m with
  | tick clock =>
    cases step
    exact .ticked clock
  | begin call =>
    obtain ⟨fresh, step⟩ := Option.ite_none_right_eq_some.1 step
    cases step
    exact .begun call fresh
  | answered k =>
    simp only [advance] at step
    split at step
    next found =>
      cases step
      exact .answered found
    next => cases step
  | failed k cause performed =>
    simp only [advance] at step
    split at step
    next found =>
      cases step
      split
      · exact .lost found cause
      · exact .refused found cause
    next => cases step

section Onward

/-- A row stays what it is, and done if it is. -/
structure Outlives (r r' : LeaseRow) : Prop where
  id : r'.id = r.id
  payload : r'.payload = r.payload
  created : r'.created = r.created
  done : r.done = true → r'.done = true

theorem Outlives.refl (r : LeaseRow) : Outlives r r := ⟨rfl, rfl, rfl, fun done => done⟩

theorem Outlives.trans {a b c : LeaseRow} (first : Outlives a b) (second : Outlives b c) : Outlives a c :=
  ⟨second.id.trans first.id, second.payload.trans first.payload, second.created.trans first.created,
    fun done => second.done (first.done done)⟩

structure Onward (x y : Tenancy) : Prop where
  rows : ∀ (i : Nat) (r : LeaseRow), x.table[i]? = some r → ∃ r', y.table[i]? = some r' ∧ Outlives r r'
  log : x.log <:+ y.log
  orderly : y.orderly = true → x.orderly = true ∧ x.clock ≤ y.clock

theorem Onward.trans (first : Onward x y) (second : Onward y z) : Onward x z := by
  refine ⟨fun i r here => ?_, first.log.trans second.log, fun orderly => ?_⟩
  · obtain ⟨r', there, same⟩ := first.rows i r here
    obtain ⟨r'', later, still⟩ := second.rows i r' there
    exact ⟨r'', later, same.trans still⟩
  · obtain ⟨still, later⟩ := second.orderly orderly
    exact ⟨(first.orderly still).1, Int64.le_trans (first.orderly still).2 later⟩

theorem outlives_alterFirst {t : LeaseTable} {fits : LeaseRow → Bool} {f : LeaseRow → LeaseRow} {i : Nat}
    {r : LeaseRow} (keeps : ∀ r, Outlives r (f r)) (here : t[i]? = some r) :
    ∃ r', (t.alterFirst fits f).2[i]? = some r' ∧ Outlives r r' := by
  cases found : t.findIdx? fits with
  | none =>
    rw [alterFirst_of_none found]
    exact ⟨r, here, .refl r⟩
  | some j =>
    rw [alterFirst_of_some found, List.getElem?_modify, here]
    by_cases same : j = i
    · exact ⟨f r, by simp [same], keeps r⟩
    · exact ⟨r, by simp [same], .refl r⟩

theorem outlives_execute {t : LeaseTable} {i : Nat} {r : LeaseRow} (q : LeaseQuery) (here : t[i]? = some r) :
    ∃ r', (t.execute q).2[i]? = some r' ∧ Outlives r r' := by
  cases q with
  | create | outstanding | claimed => exact ⟨r, here, .refl r⟩
  | insert payload created =>
    refine ⟨r, ?_, .refl r⟩
    simp only [execute]
    rw [List.getElem?_append_left (List.getElem?_eq_some_iff.1 here).1, here]
  | claim owner expires now => exact outlives_alterFirst (fun r => ⟨rfl, rfl, rfl, fun done => done⟩) here
  | finish id owner => exact outlives_alterFirst (fun r => ⟨rfl, rfl, rfl, fun _ => rfl⟩) here
  | release retryAt id owner => exact outlives_alterFirst (fun r => ⟨rfl, rfl, rfl, fun done => done⟩) here

theorem suffix_enter (x : Tenancy) (call : Call) (q : LeaseQuery) : x.log <:+ x.enter call q := by
  cases q <;> first | exact List.suffix_rfl | exact List.suffix_append ..

theorem onward_perform (x : Tenancy) (call : Call) (q : LeaseQuery) : Onward x (x.perform call q) :=
  ⟨fun _ _ here => outlives_execute q here, suffix_enter x call q, fun orderly => ⟨orderly, Int64.le_refl _⟩⟩

theorem onward_works (x : Tenancy) (works : List Work) : Onward x { x with works } :=
  ⟨fun _ r here => ⟨r, here, .refl r⟩, List.suffix_rfl, fun orderly => ⟨orderly, Int64.le_refl _⟩⟩

theorem onward_refl (x : Tenancy) : Onward x x := onward_works x x.works

theorem onward_advance (step : x.advance m = some y) : Onward x y := by
  cases outcome_of_advance step with
  | ticked clock =>
    refine ⟨(onward_refl x).rows, List.suffix_rfl, fun orderly => ?_⟩
    simpa using orderly
  | begun call =>
    refine ⟨(onward_refl x).rows, List.suffix_rfl, fun orderly => ⟨?_, Int64.le_refl _⟩⟩
    exact (Bool.and_eq_true_iff.1 orderly).1
  | @answered _ call q | @lost _ call q => exact (onward_perform x call q).trans (onward_works ..)
  | refused => exact onward_works ..

theorem onward_follow (run : x.follow moves = some y) : Onward x y := by
  exact follows.invariant (fun _ _ _ _ past step => past.trans (onward_advance step)) (onward_refl x) run

end Onward

def readBack (q : LeaseQueue) (owner : String) : Call.Rest :=
  .ask (.claimed owner) fun
    | .error e => .done (.error (q.failed e))
    | .ok none => .done (.ok none)
    | .ok (some row) => .done (((LeaseQueue.leaseOf owner row).mapError q.failed).map some)

/-- The row that a lease is of was read back by its owner. -/
def Issued (x : Tenancy) (payload : List UInt8) (lease : Lease) : Prop :=
  ∃ (i : Nat) (r : LeaseRow), x.table[i]? = some r ∧ .returned lease.owner ∈ history x.log i ∧
    r.id = lease.id ∧ r.payload = payload

inductive Progress (x : Tenancy) : Call → Call.Rest → Prop where
  | publishing (q : LeaseQueue) (now : Int64) (payload : List UInt8) :
    Progress x (.publish q now payload) (Call.publish q now payload).dialogue
  | claiming {q : LeaseQueue} {now : Int64} {owner : String} (unused : owner ∉ LeaseTable.tokens x.log)
    (timely : x.orderly = true → now ≤ x.clock ∧ (Call.take q now owner).expiry < 2 ^ 63) :
    Progress x (.take q now owner) (q.take now owner)
  | reading (q : LeaseQueue) (now : Int64) (owner : String) :
    Progress x (.take q now owner) (readBack q owner)
  | acking (q : LeaseQueue) (l : Lease) : Progress x (.ack q l) (Call.ack q l).dialogue
  | nacking {q : LeaseQueue} {now : Int64} {l : Lease} {r : Redelivery}
    (timely : x.orderly = true → (Call.nack q now l r).expiry < 2 ^ 63) :
    Progress x (.nack q now l r) (Call.nack q now l r).dialogue
  | done (call : Call) {result : Except EventError (Option (List UInt8 × Lease))}
    (empty : ∀ found, result ≠ .ok (some found)) : Progress x call (.done result)
  | issued (q : LeaseQueue) (now : Int64) {payload : List UInt8} {lease : Lease}
    (issued : x.Issued payload lease) :
    Progress x (.take q now lease.owner) (.done (.ok (some (payload, lease))))

structure Sound (x : Tenancy) : Prop where
  kept : Kept x.orderly x.table x.log
  /-- Tokens are written by takes, and each take has its own. -/
  known : ∀ owner ∈ LeaseTable.tokens x.log,
    ∃ (k : Nat) (w : Work), x.works[k]? = some w ∧ w.call.token? = some owner
  fresh : ∀ (j k : Nat) (v w : Work) (owner : String), x.works[j]? = some v → x.works[k]? = some w →
    v.call.token? = some owner → w.call.token? = some owner → j = k
  works : ∀ (k : Nat) (w : Work), x.works[k]? = some w → Progress x w.call w.rest

theorem sound_start (clock : Int64) : (start clock).Sound where
  kept := kept_nil true
  known := by simp [start, LeaseTable.tokens]
  fresh := by simp [start]
  works := by simp [start]

theorem Issued.onward {payload : List UInt8} {lease : Lease} (issued : x.Issued payload lease)
    (onward : Onward x y) : y.Issued payload lease := by
  obtain ⟨i, r, here, returned, id, same⟩ := issued
  obtain ⟨r', there, still⟩ := onward.rows i r here
  obtain ⟨new, grown⟩ := onward.log
  refine ⟨i, r', there, ?_, still.id.trans id, still.payload.trans same⟩
  rw [← grown, history_append]
  exact List.mem_append_right _ returned

/-- A call is as far as it was while others go on. -/
theorem Progress.onward (progress : Progress x call rest) (onward : Onward x y)
    (unused : ∀ owner, call.token? = some owner → owner ∈ LeaseTable.tokens y.log →
      owner ∈ LeaseTable.tokens x.log) : Progress y call rest := by
  cases progress with
  | publishing => exact .publishing ..
  | claiming fresh timely =>
    refine .claiming (fun written => fresh (unused _ rfl written)) fun orderly => ?_
    obtain ⟨still, later⟩ := onward.orderly orderly
    obtain ⟨read, fits⟩ := timely still
    exact ⟨Int64.le_trans read later, fits⟩
  | reading => exact .reading ..
  | acking => exact .acking ..
  | nacking timely => exact .nacking fun orderly => timely (onward.orderly orderly).1
  | done call empty => exact .done _ empty
  | issued q now issued => exact .issued q now (issued.onward onward)

theorem tokens_entered (fits : LeaseRow → Bool) (e : Entry) (t : LeaseTable) (log : List (Nat × Entry))
    {owner : String} (member : owner ∈ LeaseTable.tokens (entered fits e t log)) :
    e.token? = some owner ∨ owner ∈ LeaseTable.tokens log := by
  cases found : t.findIdx? fits with
  | none =>
    rw [entered, found] at member
    exact .inr member
  | some i =>
    rw [entered, found] at member
    obtain ⟨entry, there, written⟩ := List.mem_filterMap.1 member
    rcases List.mem_cons.1 there with rfl | old
    · exact .inl written
    · exact .inr (List.mem_filterMap.2 ⟨entry, old, written⟩)

/-- A statement of a call leaves the table as the log says; the only token it may write is its own. -/
theorem Progress.perform (progress : Progress x call rest) (asks : rest = .ask q next)
    (kept : Kept x.orderly x.table x.log) :
    Kept x.orderly (x.table.execute q).2 (x.enter call q) ∧
      ∀ owner ∈ LeaseTable.tokens (x.enter call q),
        call.token? = some owner ∨ owner ∈ LeaseTable.tokens x.log := by
  cases progress with
  | publishing =>
    cases asks
    exact ⟨kept.insert .., fun _ old => .inr old⟩
  | @claiming queue now owner unused timely =>
    cases asks
    refine ⟨kept.claim unused (fun orderly => ?_) fun orderly => ?_,
      fun _ member => tokens_entered _ _ _ _ member⟩
    · exact toInt_add_millisWord (timely orderly).2
    · exact Int64.le_iff_toInt_le.1 (timely orderly).1
  | reading =>
    cases asks
    refine ⟨kept.readBack, fun _ member => .inr ?_⟩
    exact (tokens_entered _ _ _ _ member).resolve_left (by simp [Entry.token?])
  | acking =>
    cases asks
    refine ⟨kept.finish, fun _ member => .inr ?_⟩
    exact (tokens_entered _ _ _ _ member).resolve_left (by simp [Entry.token?])
  | nacking timely =>
    cases asks
    refine ⟨kept.release fun orderly => toInt_add_millisWord (timely orderly), fun _ member => .inr ?_⟩
    exact (tokens_entered _ _ _ _ member).resolve_left (by simp [Entry.token?])
  | done | issued => cases asks

theorem exists_findIdx? {t : LeaseTable} {fits : LeaseRow → Bool} {r : LeaseRow}
    (found : t.find? fits = some r) : ∃ i, t.findIdx? fits = some i ∧ t[i]? = some r := by
  obtain ⟨fit, i, inside, here, first⟩ := List.find?_eq_some_iff_getElem.1 found
  refine ⟨i, List.findIdx?_eq_some_iff_getElem.2 ⟨inside, here ▸ fit, fun j before => ?_⟩,
    List.getElem?_eq_some_iff.2 ⟨inside, here⟩⟩
  simpa using first j before

/-- The database's answer takes a call a stage further. -/
theorem Progress.answered (progress : Progress x call rest) (asks : rest = .ask q next) :
    Progress (x.perform call q) call (next (x.table.execute q).1) := by
  cases progress with
  | publishing =>
    cases asks
    exact .done _ (by simp [LeaseQueue.tell, Except.map, execute])
  | @claiming queue now owner unused timely =>
    cases asks
    simp only [execute]
    split
    · exact .done _ (by simp)
    · exact .reading queue now owner
  | @reading queue now owner =>
    cases asks
    simp only [execute]
    cases found : x.table.find? fun r => r.owner == some owner && !r.done with
    | none => exact .done _ (by simp)
    | some r =>
      obtain ⟨i, first, here⟩ := exists_findIdx? found
      simp only [Option.map_some, leaseOf_toRow, Except.mapError, Except.map]
      have log : (x.perform (.take queue now owner) (.claimed owner)).log = (i, .returned owner) :: x.log :=
        congrArg (fun found : Option Nat => found.toList.map (·, Entry.returned owner) ++ x.log) first
      have issued : (x.perform (.take queue now owner) (.claimed owner)).Issued r.payload
          ⟨r.id, owner, LeaseQueue.attemptsOf (Int64.ofNat r.attempts)⟩ :=
        ⟨i, r, here, by rw [log]; simp, rfl, rfl⟩
      exact .issued queue now issued
  | acking =>
    cases asks
    exact .done _ (by simp [LeaseQueue.tell, Except.map, execute])
  | nacking timely =>
    cases asks
    exact .done _ (by simp [LeaseQueue.tell, Except.map, execute])
  | done | issued => cases asks

theorem Progress.refused {cause : Sql.Error} (progress : Progress x call rest) (asks : rest = .ask q next) :
    Progress y call (next (refused cause q)) := by
  cases progress with
  | publishing | acking | nacking =>
    cases asks
    exact .done _ (by simp [LeaseQueue.tell, Except.map, Tenancy.refused])
  | claiming | reading =>
    cases asks
    exact .done _ (by simp)
  | done | issued => cases asks

theorem mem_tokens {owner : String} :
    owner ∈ x.tokens ↔ ∃ (k : Nat) (w : Work), x.works[k]? = some w ∧ w.call.token? = some owner := by
  rw [tokens, List.mem_filterMap]
  constructor
  · rintro ⟨w, member, token⟩
    obtain ⟨k, here⟩ := List.mem_iff_getElem?.1 member
    exact ⟨k, w, here, token⟩
  · rintro ⟨k, w, here, token⟩
    exact ⟨w, List.mem_of_getElem? here, token⟩

theorem Sound.set {k : Nat} {rest' : Call.Rest} (sound : x.Sound) (onward : Onward x y)
    (found : x.works[k]? = some ⟨call, rest⟩) (works : y.works = x.works.set k ⟨call, rest'⟩)
    (kept : Kept y.orderly y.table y.log) (written : ∀ owner ∈ LeaseTable.tokens y.log,
      call.token? = some owner ∨ owner ∈ LeaseTable.tokens x.log)
    (progress : Progress y call rest') : y.Sound := by
  have new : y.works[k]? = some ⟨call, rest'⟩ := by
    rw [works, List.getElem?_set_self (List.getElem?_eq_some_iff.1 found).1]
  have others {j : Nat} (other : k ≠ j) : y.works[j]? = x.works[j]? := by
    rw [works, List.getElem?_set_ne other]
  have before : ∀ (j : Nat) (w : Work), y.works[j]? = some w →
      ∃ v, x.works[j]? = some v ∧ v.call = w.call := by
    intro j w here
    by_cases same : k = j
    · subst same
      cases new.symm.trans here
      exact ⟨_, found, rfl⟩
    · exact ⟨w, (others same).symm.trans here, rfl⟩
  refine ⟨kept, fun owner member => ?_, fun i j v w owner hv hw tv tw => ?_, fun j w here => ?_⟩
  · rcases written owner member with own | old
    · exact ⟨k, _, new, own⟩
    · obtain ⟨j, w, there, token⟩ := sound.known owner old
      by_cases same : k = j
      · subst same
        cases found.symm.trans there
        exact ⟨k, _, new, token⟩
      · exact ⟨j, w, (others same).trans there, token⟩
  · obtain ⟨v', old, sameV⟩ := before i v hv
    obtain ⟨w', old', sameW⟩ := before j w hw
    exact sound.fresh i j v' w' owner old old' (sameV ▸ tv) (sameW ▸ tw)
  · by_cases same : k = j
    · subst same
      cases new.symm.trans here
      exact progress
    · rw [others same] at here
      refine (sound.works j w here).onward onward fun owner token member => ?_
      refine (written owner member).resolve_left fun own => same ?_
      exact sound.fresh k j _ w owner found here own token

theorem Sound.progress_begun (sound : x.Sound) (fresh : ∀ owner ∈ call.token?, owner ∉ x.tokens)
    (works : List Work) : Progress { x with
      orderly := x.orderly && decide (call.Timely x.clock)
      works } call call.dialogue := by
  cases call with
  | publish => exact .publishing ..
  | take q now owner =>
    refine .claiming (fun written => fresh owner rfl (mem_tokens.2 (sound.known owner written))) ?_
    intro orderly
    obtain ⟨read, fits⟩ := of_decide_eq_true (Bool.and_eq_true_iff.1 orderly).2
    exact ⟨read ▸ Int64.le_refl _, fits⟩
  | ack => exact .acking ..
  | nack => exact .nacking fun orderly => (of_decide_eq_true (Bool.and_eq_true_iff.1 orderly).2).2

theorem Sound.begin (sound : x.Sound) (fresh : ∀ owner ∈ call.token?, owner ∉ x.tokens)
    (onward : Onward x y) (orderly : y.orderly = (x.orderly && decide (call.Timely x.clock)))
    (same : y = { x with orderly := y.orderly, works := x.works ++ [⟨call, call.dialogue⟩] }) : y.Sound := by
  have begun := sound.progress_begun fresh (x.works ++ [⟨call, call.dialogue⟩])
  rw [← orderly, ← same] at begun
  have works : y.works = x.works ++ [⟨call, call.dialogue⟩] := by rw [same]
  have log : y.log = x.log := by rw [same]
  have old {k : Nat} {w : Work} (here : x.works[k]? = some w) : y.works[k]? = some w := by
    rw [works, List.getElem?_append_left (List.getElem?_eq_some_iff.1 here).1, here]
  have split {k : Nat} {w : Work} (here : y.works[k]? = some w) :
      x.works[k]? = some w ∨ k = x.works.length ∧ w = ⟨call, call.dialogue⟩ := by
    rw [works, List.getElem?_append] at here
    split at here
    · exact .inl here
    next outside =>
      obtain ⟨last, rfl⟩ : k - x.works.length = 0 ∧ ⟨call, call.dialogue⟩ = w := by
        simpa [List.getElem?_singleton] using here
      exact .inr ⟨by omega, rfl⟩
  have distinct {k : Nat} {w : Work} {owner : String} (here : x.works[k]? = some w)
      (token : w.call.token? = some owner) : call.token? ≠ some owner := fun own =>
    fresh owner own (mem_tokens.2 ⟨k, w, here, token⟩)
  refine ⟨?_, fun owner written => ?_, fun i j v w owner hv hw tv tw => ?_, fun k w here => ?_⟩
  · have kept := sound.kept.mono fun orderly => (onward.orderly orderly).1
    rw [same]
    exact kept
  · rw [log] at written
    obtain ⟨k, w, here, token⟩ := sound.known owner written
    exact ⟨k, w, old here, token⟩
  · rcases split hv with hv | ⟨rfl, rfl⟩ <;> rcases split hw with hw | ⟨rfl, rfl⟩
    · exact sound.fresh i j v w owner hv hw tv tw
    · exact absurd tw (distinct hv tv)
    · exact absurd tv (distinct hw tw)
    · rfl
  · rcases split here with here | ⟨rfl, rfl⟩
    · exact (sound.works k w here).onward onward fun _ _ member => log ▸ member
    · exact begun

theorem Sound.advance (sound : x.Sound) (step : x.advance m = some y) : y.Sound := by
  have onward := onward_advance step
  cases outcome_of_advance step with
  | ticked clock =>
    exact ⟨sound.kept.mono fun orderly => (onward.orderly orderly).1, sound.known, sound.fresh,
      fun k w here => (sound.works k w here).onward onward fun _ _ member => member⟩
  | begun call fresh => exact sound.begin fresh onward rfl rfl
  | answered found =>
    have progress := sound.works _ _ found
    obtain ⟨kept, written⟩ := progress.perform rfl sound.kept
    exact sound.set onward found rfl kept written
      ((progress.answered rfl).onward (onward_works ..) fun _ _ member => member)
  | lost found cause =>
    have progress := sound.works _ _ found
    obtain ⟨kept, written⟩ := progress.perform rfl sound.kept
    exact sound.set onward found rfl kept written (progress.refused rfl)
  | refused found cause =>
    exact sound.set onward found rfl sound.kept (fun _ old => .inr old) ((sound.works _ _ found).refused rfl)

theorem Sound.follow (sound : x.Sound) (run : x.follow moves = some y) : y.Sound := by
  exact follows.invariant (fun _ _ _ _ sound step => sound.advance step) sound run

/-- A token that was written over a row and is its tenant's no more will never again be on any row. -/
theorem Sound.owner_ne {i : Nat} {owner : String} (sound : y.Sound) (onward : Onward x y)
    (written : owner ∈ (history x.log i).filterMap Entry.token?)
    (superseded : Entry.tenant (history x.log i) ≠ some owner) : ∀ r ∈ y.table, r.owner ≠ some owner := by
  intro r member holds
  obtain ⟨j, here⟩ := List.mem_iff_getElem?.1 member
  rw [(sound.kept.rows j r here).2.owner] at holds
  obtain ⟨new, grown⟩ := onward.log
  have later : owner ∈ (history y.log i).filterMap Entry.token? := by
    rw [← grown, history_append, List.filterMap_append]
    exact List.mem_append_right _ written
  obtain rfl := eq_of_mem_tokens sound.kept.once later (mem_tokens_of_tenant holds)
  rw [← grown, history_append] at holds
  -- were it the tenant's once more, it would have been written a second time
  have again := (tenant_append holds).resolve_right superseded
  have once := sound.kept.once
  rw [← grown, LeaseTable.tokens, List.filterMap_append] at once
  exact (List.nodup_append.1 once).2.2 _ (mem_tokens_of_history again) _ (mem_tokens_of_history written) rfl

theorem settle_of_owner_ne {t : LeaseTable} {owner : String} (away : ∀ r ∈ t, r.owner ≠ some owner)
    (id retryAt : Int64) : (t.execute (.finish id owner)).2 = t ∧
      (t.execute (.release retryAt id owner)).2 = t := by
  have nowhere : t.findIdx? (heldBy id owner) = none := by
    rw [List.findIdx?_eq_none_iff]
    intro r member
    simp [heldBy, away r member]
  simp only [execute, alterFirst_of_none nowhere, and_self]

def Returned (x : Tenancy) (w : Work) (payload : List UInt8) (lease : Lease) : Prop :=
  w ∈ x.works ∧ w.rest = .done (.ok (some (payload, lease)))

theorem Sound.issued {w : Work} {payload : List UInt8} {lease : Lease} (sound : x.Sound)
    (returned : x.Returned w payload lease) :
    w.call.token? = some lease.owner ∧ x.Issued payload lease := by
  obtain ⟨member, done⟩ := returned
  obtain ⟨k, here⟩ := List.mem_iff_getElem?.1 member
  have progress := sound.works k w here
  rw [done] at progress
  generalize w.call = call at progress
  cases progress with
  | done _ empty => exact absurd rfl (empty _)
  | issued q now issued => exact ⟨rfl, issued⟩

theorem Sound.single {v w : Work} {payload payload' : List UInt8} {l l' : Lease} {r : LeaseRow}
    (sound : x.Sound) (first : x.Returned v payload l) (second : x.Returned w payload' l')
    (held : heldBy l.id l.owner r = true) (held' : heldBy l'.id l'.owner r = true) : l = l' := by
  have owner : l.owner = l'.owner := by
    simp only [heldBy, Bool.and_eq_true, beq_iff_eq] at held held'
    exact Option.some.inj (held.2.symm.trans held'.2)
  obtain ⟨j, here⟩ := List.mem_iff_getElem?.1 first.1
  obtain ⟨k, there⟩ := List.mem_iff_getElem?.1 second.1
  -- no two calls have one token, so both leases are what one call has come back with
  obtain rfl := sound.fresh j k v w l.owner here there (sound.issued first).1
    (owner ▸ (sound.issued second).1)
  obtain rfl := Option.some.inj (here.symm.trans there)
  have same := first.2.symm.trans second.2
  simp only [Dialogue.done.injEq, Except.ok.injEq, Option.some.injEq, Prod.mk.injEq] at same
  exact same.2

/-- What consumers of a queue in a table can rely on. -/
structure Safe (x : Tenancy) : Prop where
  /-- No row disappears or changes its payload, and none that is done is ever open again. -/
  stay : ∀ moves y, x.follow moves = some y → ∀ (i : Nat) (r : LeaseRow), x.table[i]? = some r →
    ∃ r', y.table[i]? = some r' ∧ Outlives r r'
  rightful : ∀ i, Rightful x.orderly (history x.log i)
  rows : ∀ (i : Nat) (r : LeaseRow), x.table[i]? = some r → r.owner = Entry.tenant (history x.log i) ∧
    (r.done = true ↔ Entry.Closed (history x.log i)) ∧ r.attempts = Entry.claims (history x.log i)
  /-- A lease that was superseded or given up changes nothing any more. -/
  spent : ∀ i owner, owner ∈ (history x.log i).filterMap Entry.token? →
    Entry.tenant (history x.log i) ≠ some owner → ∀ moves y, x.follow moves = some y →
      ∀ id retryAt, (y.table.execute (.finish id owner)).2 = y.table ∧
        (y.table.execute (.release retryAt id owner)).2 = y.table
  issued : ∀ w payload lease, x.Returned w payload lease →
    w.call.token? = some lease.owner ∧ x.Issued payload lease
  /-- At most one lease can settle a row. -/
  single : ∀ v w payload payload' l l', x.Returned v payload l → x.Returned w payload' l' →
    ∀ r ∈ x.table, heldBy l.id l.owner r = true → heldBy l'.id l'.owner r = true → l = l'

/-- Whatever consumers do with a queue in a table, and whatever befalls their statements, leases are safe. -/
theorem leases_safe {clock : Int64} (run : (start clock).follow moves = some x) : x.Safe := by
  have sound := (sound_start clock).follow run
  refine ⟨fun _ y more => (onward_follow more).rows, fun i => ?_, fun i r here => ?_,
    fun i owner written superseded _ y more => ?_, fun _ _ _ => sound.issued,
    fun _ _ _ _ _ _ first second _ _ => sound.single first second⟩
  · by_cases inside : i < x.table.length
    · exact (sound.kept.rows i _ (List.getElem?_eq_getElem inside)).1
    · rw [sound.kept.beyond i (by omega)]
      exact .nil
  · obtain ⟨-, bears⟩ := sound.kept.rows i r here
    exact ⟨bears.owner, bears.done, bears.attempts⟩
  · exact settle_of_owner_ne ((sound.follow more).owner_ne (onward_follow more) written superseded)

def shared : LeaseQueue := ⟨LeaseQueue.defaultTable, .ofMillis 30000⟩

/-- A message is claimed, and claimed again when the lease has expired; the first consumer comes back to
release it, in vain, before the second is done with it. -/
def overdue : List Move :=
  [.begin (.publish shared 1000 [7]), .answered 0, .begin (.take shared 1000 "a"), .answered 1, .answered 1,
    .tick 31001, .begin (.take shared 31001 "b"), .answered 2, .answered 2,
    .begin (.nack shared 31001 ⟨1, "a", 1⟩ ⟨.ofMillis 100, .ofMillis 100⟩), .answered 3,
    .begin (.ack shared ⟨1, "b", 2⟩), .answered 4]

theorem leases_safe_overdue : ∃ x, (start 1000).follow overdue = some x ∧ x.orderly = true ∧
    history x.log 0 = [.finished "b", .returned "b", .claimed "b" 31001 61001, .returned "a",
      .claimed "a" 1000 31000] ∧
    (∃ r, x.table[0]? = some r ∧ r.done = true ∧ r.attempts = 2) ∧
    ∀ id retryAt, (x.table.execute (.release retryAt id "a")).2 = x.table := by
  have reached : ((start 1000).follow overdue).map (fun x => (x.orderly, x.table.length, history x.log 0)) =
    some (true, 1, [.finished "b", .returned "b", .claimed "b" 31001 61001, .returned "a",
      .claimed "a" 1000 31000]) := rfl
  obtain ⟨x, run, known⟩ := Option.map_eq_some_iff.1 reached
  simp only [Prod.mk.injEq] at known
  obtain ⟨orderly, length, record⟩ := known
  have safe := leases_safe run
  obtain ⟨r, here⟩ : ∃ r, x.table[0]? = some r := ⟨_, List.getElem?_eq_getElem (by omega)⟩
  obtain ⟨-, done, attempts⟩ := safe.rows 0 _ here
  rw [record] at done attempts
  refine ⟨x, run, orderly, record, ⟨_, here, done.2 ⟨"b", by simp⟩, attempts⟩, fun id retryAt => ?_⟩
  exact (safe.spent 0 "a" (by rw [record]; decide) (by rw [record]; decide) [] x rfl id retryAt).2

end Tenancy
end Cutover
