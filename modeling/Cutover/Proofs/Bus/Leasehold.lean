import Mathlib.Data.List.Nodup
import Mathlib.Data.List.Pairwise
import Cutover.Bus.LeaseTable

/-! The rows of a queue in a table, and a log of what befell them. What a row holds now, its lease, its
count of deliveries and whether it is done, is what the log says of it. -/
namespace Cutover.LeaseTable

/-- What can befall a row. Times are those of a clock that does not run over. -/
inductive Entry where
  | claimed (owner : String) (time expiry : Int)
  /-- The row was read back by the one who had claimed it. -/
  | returned (owner : String)
  | finished (owner : String)
  | released (owner : String) (retry : Int)
  deriving DecidableEq

namespace Entry

def token? : Entry → Option String
  | .claimed owner _ _ => some owner
  | _ => none

/-- Whose lease a row is under, by what befell it, the latest first. -/
def tenant : List Entry → Option String
  | [] => none
  | .claimed owner _ _ :: _ => some owner
  | .released _ _ :: _ => none
  | .returned _ :: past | .finished _ :: past => tenant past

/-- The time before which nobody else may have the row. -/
def due : List Entry → Option Int
  | [] => none
  | .claimed _ _ expiry :: _ => some expiry
  | .released _ retry :: _ => some retry
  | .returned _ :: past | .finished _ :: past => due past

def Closed (record : List Entry) : Prop := ∃ owner, .finished owner ∈ record

def claims (record : List Entry) : Nat := record.countP (·.token?.isSome)

end Entry

open Entry

/-- What may befall a row, the latest first. A row that is done is neither claimed nor read back; only the
tenant reads it back, finishes or releases it; and if all go by one clock, a row is claimed only after the
lease has expired, or after the time of the next try if the tenant has released it. -/
inductive Rightful (orderly : Bool) : List Entry → Prop where
  | nil : Rightful orderly []
  | claimed {past : List Entry} {owner : String} {time expiry : Int} (h : Rightful orderly past)
    (pending : ¬Closed past) (fresh : owner ∉ past.filterMap token?)
    (late : orderly = true → ∀ u ∈ due past, u < time) : Rightful orderly (.claimed owner time expiry :: past)
  | returned {past : List Entry} {owner : String} (h : Rightful orderly past) (pending : ¬Closed past)
    (holds : tenant past = some owner) : Rightful orderly (.returned owner :: past)
  | finished {past : List Entry} {owner : String} (h : Rightful orderly past)
    (holds : tenant past = some owner) : Rightful orderly (.finished owner :: past)
  | released {past : List Entry} {owner : String} {retry : Int} (h : Rightful orderly past)
    (holds : tenant past = some owner) : Rightful orderly (.released owner retry :: past)

/-- A row holds what befell it. -/
structure Bears (orderly : Bool) (r : LeaseRow) (record : List Entry) : Prop where
  owner : r.owner = tenant record
  done : r.done = true ↔ Closed record
  attempts : r.attempts = claims record
  expires : orderly = true → r.expires.toInt = (due record).getD 0

def history (log : List (Nat × Entry)) (i : Nat) : List Entry := (log.filter (·.1 == i)).map (·.2)

@[simp] theorem history_cons (i j : Nat) (e : Entry) (log : List (Nat × Entry)) :
    history ((i, e) :: log) j = if i = j then e :: history log j else history log j := by
  by_cases same : i = j <;> simp [history, same]

theorem history_append (new old : List (Nat × Entry)) (i : Nat) :
    history (new ++ old) i = history new i ++ history old i := by
  simp [history]

/-- The tokens that were written over rows. -/
def tokens (log : List (Nat × Entry)) : List String := log.filterMap (·.2.token?)

theorem mem_tokens_history {log : List (Nat × Entry)} {i : Nat} {token : String} :
    token ∈ (history log i).filterMap token? ↔ ∃ e, (i, e) ∈ log ∧ e.token? = some token := by
  simp only [history, List.mem_filterMap, List.mem_map, List.mem_filter, beq_iff_eq]
  constructor
  · rintro ⟨e, ⟨⟨j, e⟩, ⟨there, rfl⟩, rfl⟩, known⟩
    exact ⟨e, there, known⟩
  · rintro ⟨e, there, known⟩
    exact ⟨e, ⟨(i, e), ⟨there, rfl⟩, rfl⟩, known⟩

theorem mem_tokens_of_history {log : List (Nat × Entry)} {i : Nat} {token : String}
    (member : token ∈ (history log i).filterMap token?) : token ∈ tokens log := by
  obtain ⟨e, there, known⟩ := mem_tokens_history.1 member
  exact List.mem_filterMap.2 ⟨(i, e), there, known⟩

theorem eq_of_mem_tokens {log : List (Nat × Entry)} (once : (tokens log).Nodup) {i j : Nat} {token : String}
    (first : token ∈ (history log i).filterMap token?) (second : token ∈ (history log j).filterMap token?) :
    i = j := by
  obtain ⟨e, there, known⟩ := mem_tokens_history.1 first
  obtain ⟨e', there', known'⟩ := mem_tokens_history.1 second
  have apart : log.Pairwise fun a b => ∀ token, a.2.token? = some token → b.2.token? ≠ some token :=
    (List.pairwise_filterMap.1 once).imp fun h token here there => h token here token there rfl
  have : Std.Symm fun a b : Nat × Entry => ∀ token, a.2.token? = some token → b.2.token? ≠ some token :=
    ⟨fun a b h token here there => h token there here⟩
  by_contra differ
  exact apart.forall there there' (by simp [differ]) token known known'

theorem mem_tokens_of_tenant {record : List Entry} {owner : String} (holds : tenant record = some owner) :
    owner ∈ record.filterMap token? := by
  induction record with
  | nil => cases holds
  | cons e past ih =>
    cases e with
    | claimed =>
      cases holds
      exact List.mem_cons_self
    | released => cases holds
    | returned | finished => exact ih holds

/-- A token comes to hold a row only by being written over it. -/
theorem tenant_append {new old : List Entry} {owner : String} (holds : tenant (new ++ old) = some owner) :
    owner ∈ new.filterMap token? ∨ tenant old = some owner := by
  induction new with
  | nil => exact .inr holds
  | cons e new ih =>
    cases e with
    | claimed =>
      cases holds
      exact .inl List.mem_cons_self
    | released => cases holds
    | returned | finished => exact ih holds

/-- The table is as the log says, and no token was written twice. -/
structure Kept (orderly : Bool) (t : LeaseTable) (log : List (Nat × Entry)) : Prop where
  rows : ∀ i r, t[i]? = some r → Rightful orderly (history log i) ∧ Bears orderly r (history log i)
  beyond : ∀ i, t.length ≤ i → history log i = []
  once : (tokens log).Nodup

/-- What holds when all go by one clock is no more than is asked of any clocks. -/
theorem Rightful.mono {one other : Bool} {record : List Entry} (rightful : Rightful one record)
    (less : other = true → one = true) : Rightful other record := by
  induction rightful with
  | nil => exact .nil
  | claimed _ pending fresh late ih => exact .claimed ih pending fresh fun orderly => late (less orderly)
  | returned _ pending holds ih => exact .returned ih pending holds
  | finished _ holds ih => exact .finished ih holds
  | released _ holds ih => exact .released ih holds

theorem Kept.mono {one other : Bool} {t : LeaseTable} {log : List (Nat × Entry)} (kept : Kept one t log)
    (less : other = true → one = true) : Kept other t log := by
  refine ⟨fun i r here => ?_, kept.beyond, kept.once⟩
  obtain ⟨rightful, owner, done, attempts, expires⟩ := kept.rows i r here
  exact ⟨rightful.mono less, owner, done, attempts, fun orderly => expires (less orderly)⟩

theorem kept_nil (orderly : Bool) : Kept orderly [] [] where
  rows := by simp
  beyond _ _ := rfl
  once := .nil

section Marking

variable {orderly : Bool} {t : LeaseTable} {log : List (Nat × Entry)} {fits : LeaseRow → Bool}
  {f : LeaseRow → LeaseRow} {i : Nat} {e : Entry}

theorem alterFirst_of_none (nowhere : t.findIdx? fits = none) : t.alterFirst fits f = (0, t) := by
  induction t with
  | nil => rfl
  | cons r rest ih =>
    simp only [List.findIdx?_cons] at nowhere
    split at nowhere
    · cases nowhere
    next no =>
      rw [alterFirst, if_neg no, ih (by simpa using nowhere)]

theorem alterFirst_of_some (here : t.findIdx? fits = some i) :
    t.alterFirst fits f = (1, t.modify i f) := by
  induction t generalizing i with
  | nil => cases here
  | cons r rest ih =>
    simp only [List.findIdx?_cons] at here
    split at here
    next yes =>
      cases here
      rw [alterFirst, if_pos yes]
      rfl
    next no =>
      obtain ⟨j, later, rfl⟩ := Option.map_eq_some_iff.1 here
      rw [alterFirst, if_neg no, ih later]
      rfl

theorem alterFirst_same (t : LeaseTable) (fits : LeaseRow → Bool) : (t.alterFirst fits fun r => r).2 = t := by
  induction t with
  | nil => rfl
  | cons r rest ih =>
    by_cases here : fits r = true
    · simp [alterFirst, here]
    · simp [alterFirst, here, ih]

/-- What befalls the first row that fits. -/
def entered (fits : LeaseRow → Bool) (e : Entry) (t : LeaseTable) (log : List (Nat × Entry)) :
    List (Nat × Entry) := (t.findIdx? fits).toList.map (·, e) ++ log

theorem Kept.mark (kept : Kept orderly t log)
    (rightful : ∀ i r, t[i]? = some r → fits r = true → Rightful orderly (history log i) →
      Bears orderly r (history log i) → Rightful orderly (e :: history log i) ∧
        Bears orderly (f r) (e :: history log i))
    (fresh : ∀ token, e.token? = some token → token ∉ tokens log) :
    Kept orderly (t.alterFirst fits f).2 (entered fits e t log) := by
  cases found : t.findIdx? fits with
  | none =>
    rw [alterFirst_of_none found, entered, found]
    exact kept
  | some i =>
    obtain ⟨inside, fit, -⟩ := List.findIdx?_eq_some_iff_getElem.1 found
    rw [alterFirst_of_some found, entered, found]
    refine ⟨fun j r there => ?_, fun j beyond => ?_, ?_⟩
    · rw [List.getElem?_modify] at there
      obtain ⟨old, here, rfl⟩ := Option.map_eq_some_iff.1 there
      obtain ⟨known, bears⟩ := kept.rows j old here
      simp only [Option.toList_some, List.map_cons, List.map_nil, List.singleton_append, history_cons]
      by_cases same : i = j
      · subst same
        have fit : fits old = true := by rwa [← (List.getElem?_eq_some_iff.1 here).2]
        simpa using rightful i old here fit known bears
      · simpa [same] using ⟨known, bears⟩
    · rw [List.length_modify] at beyond
      have other : i ≠ j := by omega
      simpa [other] using kept.beyond j beyond
    · cases written : e.token? with
      | none =>
        have same : tokens ((i, e) :: log) = tokens log := List.filterMap_cons_none written
        exact same ▸ kept.once
      | some token =>
        have more : tokens ((i, e) :: log) = token :: tokens log := List.filterMap_cons_some written
        exact more ▸ List.nodup_cons.2 ⟨fresh token written, kept.once⟩

end Marking

def readable (owner : String) (r : LeaseRow) : Bool := r.owner == some owner && !r.done

section Statements

variable {orderly : Bool} {t : LeaseTable} {log : List (Nat × Entry)} {owner : String} {id : Int64}

theorem Kept.insert (kept : Kept orderly t log) (payload : List UInt8) (created : Int64) :
    Kept orderly (t.execute (.insert payload created)).2 log := by
  refine ⟨fun i r there => ?_, fun i beyond => kept.beyond i ?_, kept.once⟩
  · simp only [execute, List.getElem?_append] at there
    split at there
    · exact kept.rows i r there
    next outside =>
      have new := List.mem_singleton.1 (List.mem_of_getElem? there)
      rw [kept.beyond i (by omega), new]
      exact ⟨.nil, rfl, by simp [Closed], rfl, fun _ => rfl⟩
  · simp only [execute, List.length_append] at beyond
    omega

theorem Kept.claim {expires now : Int64} {time expiry : Int} (kept : Kept orderly t log)
    (fresh : owner ∉ tokens log) (exact : orderly = true → expires.toInt = expiry)
    (early : orderly = true → now.toInt ≤ time) :
    Kept orderly (t.execute (.claim owner expires now)).2
      (entered (claimable now) (.claimed owner time expiry) t log) := by
  refine kept.mark (fun i r here free rightful bears => ?_) (by rintro token ⟨⟩; exact fresh)
  simp only [claimable, Bool.and_eq_true, Bool.not_eq_true', decide_eq_true_eq] at free
  have pending : ¬Closed (history log i) := by simp [← bears.done, free.1]
  refine ⟨rightful.claimed pending (fun old => fresh (mem_tokens_of_history old)) fun one u last => ?_,
    rfl, ?_, ?_, exact⟩
  · have expired := Int64.lt_iff_toInt_lt.1 free.2
    rw [bears.expires one, last, Option.getD_some] at expired
    exact Int.lt_of_lt_of_le expired (early one)
  · rw [bears.done]
    simp [Closed]
  · simp [bears.attempts, claims, token?]

theorem Kept.readBack (kept : Kept orderly t log) :
    Kept orderly t (entered (readable owner) (.returned owner) t log) := by
  suffices marked : Kept orderly (t.alterFirst (readable owner) fun r => r).2
      (entered (readable owner) (.returned owner) t log) by rwa [alterFirst_same] at marked
  refine kept.mark (fun i r here held rightful bears => ?_) (by rintro token ⟨⟩)
  simp only [readable, Bool.and_eq_true, beq_iff_eq, Bool.not_eq_true', bears.owner] at held
  have pending : ¬Closed (history log i) := by simp [← bears.done, held.2]
  refine ⟨rightful.returned pending held.1, bears.owner, ?_, bears.attempts, bears.expires⟩
  rw [bears.done]
  simp [Closed]

theorem Kept.finish (kept : Kept orderly t log) : Kept orderly (t.execute (.finish id owner)).2
    (entered (heldBy id owner) (.finished owner) t log) := by
  refine kept.mark (fun i r here held rightful bears => ?_) (by rintro token ⟨⟩)
  simp only [heldBy, Bool.and_eq_true, beq_iff_eq, bears.owner] at held
  refine ⟨rightful.finished held.2, bears.owner, ?_, bears.attempts, bears.expires⟩
  simp [Closed]

theorem Kept.release {retryAt : Int64} {retry : Int} (kept : Kept orderly t log)
    (exact : orderly = true → retryAt.toInt = retry) :
    Kept orderly (t.execute (.release retryAt id owner)).2
      (entered (heldBy id owner) (.released owner retry) t log) := by
  refine kept.mark (fun i r here held rightful bears => ?_) (by rintro token ⟨⟩)
  simp only [heldBy, Bool.and_eq_true, beq_iff_eq, bears.owner] at held
  refine ⟨rightful.released held.2, rfl, ?_, bears.attempts, exact⟩
  rw [bears.done]
  simp [Closed]

end Statements

end Cutover.LeaseTable
