import Cutover.Proofs.Bus.Conservation

/-! In which order a queue in memory hands its messages out, and how long it keeps a released one back. It
passes over what is held back and takes the first message that is not, so that first deliveries follow the
order of publication: a message that was never handed out is never held back, and a released one rejoins the
queue behind all that wait. From there it is not handed out before it is due, and then before all that
joined the queue behind it. -/
namespace Cutover

namespace MemoryBus

variable {b c : MemoryBus} {now id : Nat} {payload : List UInt8} {m : Message} {queue rest : List Message}

theorem pick_eq_none_iff : pick now queue = none ↔ ∀ m ∈ queue, now < m.notBefore := by
  induction queue with
  | nil => simp [pick]
  | cons first others ih =>
    rw [pick, List.forall_mem_cons, ← ih]
    split
    next here =>
      have early : first.notBefore ≤ now := of_decide_eq_true here
      simp [Nat.not_lt.2 early]
    next away =>
      have late : now < first.notBefore := Nat.not_le.1 fun early => away (decide_eq_true early)
      simp [late]

theorem pick_eq_some (found : pick now queue = some (m, rest)) : ∃ front back,
    queue = front ++ m :: back ∧ rest = front ++ back ∧ m.notBefore ≤ now ∧
      ∀ k ∈ front, now < k.notBefore := by
  induction queue generalizing rest with
  | nil => cases found
  | cons first others ih =>
    rw [pick] at found
    split at found
    next here =>
      cases found
      exact ⟨[], others, rfl, rfl, of_decide_eq_true here, List.forall_mem_nil _⟩
    next away =>
      obtain ⟨⟨later, kept⟩, there, same⟩ := Option.map_eq_some_iff.1 found
      cases same
      obtain ⟨front, back, rfl, rfl, ready, held⟩ := ih there
      have late : now < first.notBefore := Nat.not_le.1 fun early => away (decide_eq_true early)
      exact ⟨first :: front, back, rfl, rfl, ready, List.forall_mem_cons.2 ⟨late, held⟩⟩

theorem take_eq_none_iff : (b.take now).1 = none ↔ ∀ m ∈ b.queue, now < m.notBefore := by
  rw [← pick_eq_none_iff, take]
  split
  next none => simp [none]
  next found => simp [found]

theorem take_eq_some (taken : b.take now = (some (payload, id), c)) : ∃ front m back,
    b.queue = front ++ m :: back ∧ m.id = id ∧ m.payload = payload ∧ m.notBefore ≤ now ∧
      (∀ k ∈ front, now < k.notBefore) ∧
      c = { b with
        queue := front ++ back
        inflight := b.inflight ++ [{ m with attempts := m.attempts + 1 }] } := by
  rw [take] at taken
  split at taken
  · cases taken
  next m rest found =>
    cases taken
    obtain ⟨front, back, queue, rfl, ready, held⟩ := pick_eq_some found
    exact ⟨front, m, back, queue, rfl, rfl, ready, held, rfl⟩

end MemoryBus

namespace Conservation

/-- What left the queue into the hands of a consumer was handed out. -/
theorem takings_ne_zero {k : Nat} {log : List Sight}
    (out : fate k log = some (.held .flying) ∨ fate k log = some .acked) : takings k log ≠ 0 := by
  induction log with
  | nil => simp [fate] at out
  | cons s past ih =>
    cases s with
    | published payload =>
      rw [fate] at out
      split at out
      · simp at out
      · exact ih out
    | taken answer =>
      cases answer with
      | none => exact ih out
      | some found =>
        rw [takings]
        rw [fate] at out
        split at out
        next here => simp [here.1]
        next =>
          have before := ih out
          omega
    | acked id =>
      rw [fate] at out
      split at out
      next here => exact ih (.inl here.2)
      next => exact ih out
    | nacked id =>
      rw [fate] at out
      split at out
      · simp at out
      · exact ih out
    | drained events =>
      rw [fate] at out
      split at out
      · simp at out
      · exact ih out

theorem takings_le_cons (k : Nat) (s : Sight) (past : List Sight) :
    takings k past ≤ takings k (s :: past) := by
  cases s with
  | taken answer =>
    cases answer with
    | none => exact Nat.le_refl _
    | some found => exact Nat.le_add_right ..
  | published | acked | nacked | drained => exact Nat.le_refl _

namespace Office

variable {x : Office} {m : Message} {k : Nat}

theorem Sound.waiting (sound : x.Sound) (member : m ∈ x.bus.queue) :
    fate m.id x.log = some (.held .waiting) :=
  sound.waiting_iff.2 (List.mem_map_of_mem member)

theorem Sound.id_lt (sound : x.Sound) (member : m ∈ x.bus.queue) : m.id < (payloads x.log).length := by
  rw [← sound.fated, sound.waiting member]
  rfl

theorem Sound.attempts_eq (sound : x.Sound) (held : m ∈ x.bus.queue ++ x.bus.inflight) :
    m.attempts = UInt32.ofNat (takings m.id x.log) :=
  (sound.kept held).2.2

/-- No two waiting messages have one number. -/
theorem Sound.same (sound : x.Sound) {n : Message} (member : m ∈ x.bus.queue) (also : n ∈ x.bus.queue)
    (number : m.id = n.id) : m = n := by
  have distinct := sound.distinct
  rw [MemoryBus.ids_contents] at distinct
  exact List.inj_on_of_nodup_map (List.nodup_append.1 distinct).1 member also number

/-- The messages that wait and were never handed out: none is held back, and they stand in the order of
their publication. -/
structure Ranked (x : Office) : Prop where
  unheld : ∀ m ∈ x.bus.queue, takings m.id x.log = 0 → m.notBefore = 0
  ascending : x.bus.queue.Pairwise fun a b => takings a.id x.log = 0 → takings b.id x.log = 0 → a.id < b.id

/-- A message that is handed out for the first time, though one of an earlier publication was not: that one
was drained. -/
def Debut (past : List Sight) : Sight → Prop
  | .taken (some (_, k)) =>
    takings k past = 0 → ∀ j < k, takings j past ≠ 0 ∨ fate j past = some .drained
  | _ => True

theorem now_perform (x : Office) (o : Order) : x.now ≤ (x.perform o).now := by
  cases o with
  | wait nanos => exact Nat.le_add_right ..
  | publish | produce | take | ack | nack | drain => exact Nat.le_refl _

theorem takings_perform (x : Office) (o : Order) (k : Nat) :
    takings k x.log ≤ takings k (x.perform o).log := by
  cases o with
  | wait nanos => exact Nat.le_refl _
  | publish | produce | take | ack | nack | drain => exact takings_le_cons ..

/-- What stays in the queue keeps its order, and what joins it was handed out before, or comes after all that is
there. -/
theorem Ranked.succeed (ranked : x.Ranked) {y : Office} {kept joined : List Message}
    (queue : y.bus.queue = kept ++ joined) (fewer : kept.Sublist x.bus.queue)
    (counts : ∀ k, takings k x.log ≤ takings k y.log) (one : joined.length ≤ 1)
    (last : ∀ m ∈ joined, takings m.id y.log = 0 → m.notBefore = 0 ∧ ∀ a ∈ kept, a.id < m.id) : y.Ranked := by
  have before {k : Nat} (new : takings k y.log = 0) : takings k x.log = 0 :=
    Nat.eq_zero_of_le_zero (new ▸ counts k)
  constructor
  · intro m member new
    rcases List.mem_append.1 (queue ▸ member) with old | joins
    · exact ranked.unheld m (fewer.subset old) (before new)
    · exact (last m joins new).1
  · rw [queue, List.pairwise_append]
    refine ⟨?_, ?_, fun a old b joins _ new => (last b joins new).2 a old⟩
    · exact (ranked.ascending.sublist fewer).imp fun ordered newA newB => ordered (before newA) (before newB)
    · match joined, one with
      | [], _ => exact .nil
      | [_], _ => exact List.pairwise_singleton ..

theorem Ranked.perform (ranked : x.Ranked) (sound : x.Sound) (o : Order) : (x.perform o).Ranked := by
  have counts := takings_perform x o
  have publish (payload : List UInt8) {y : Office} (queue : y.bus.queue = (x.bus.publish payload).queue)
      (counts : ∀ k, takings k x.log ≤ takings k y.log) : y.Ranked := by
    refine ranked.succeed queue (.refl _) counts (Nat.le_refl 1) fun m joins _ => ?_
    rw [List.mem_singleton.1 joins]
    exact ⟨rfl, fun a old => sound.next ▸ sound.id_lt old⟩
  have stay (queue : (x.perform o).bus.queue.Sublist x.bus.queue) : (x.perform o).Ranked :=
    ranked.succeed (List.append_nil _).symm queue counts (Nat.zero_le 1) nofun
  cases o with
  | publish payload => exact publish payload rfl counts
  | produce e => exact publish e.encode rfl counts
  | take =>
    refine stay ?_
    rw [Office.perform, enter]
    cases taken : x.bus.take x.now with
    | mk answer c =>
      cases answer with
      | none => rw [MemoryBus.take_none taken]
      | some found =>
        obtain ⟨front, m, back, queue, -, -, -, -, rfl⟩ := MemoryBus.take_eq_some taken
        rw [queue]
        exact (List.sublist_cons_self ..).append_left _
  | nack id r =>
    by_cases flying : fate id x.log = some (.held .flying)
    · obtain ⟨m, member, rfl⟩ := List.mem_map.1 (sound.flying_iff.1 flying)
      have queue : (x.perform (.nack m.id r)).bus.queue =
          x.bus.queue ++ [{ m with notBefore := x.now + (r.delay m.attempts.toNat).nanos }] := by
        rw [Office.perform, enter, MemoryBus.nack_of_mem x.now r sound.distinct member]
      refine ranked.succeed queue (.refl _) counts (Nat.le_refl 1) fun k joins new => ?_
      rw [List.mem_singleton.1 joins] at new
      exact absurd (Nat.eq_zero_of_le_zero (new ▸ counts m.id)) (takings_ne_zero (.inl flying))
    · refine stay ?_
      rw [Office.perform, enter, MemoryBus.nack_of_not_mem (mt sound.flying_iff.2 flying)]
  | drain => exact stay (List.nil_sublist _)
  | ack id => exact stay (.refl _)
  | wait nanos => exact stay (.refl _)

/-- Whatever was published before it waits in front of it, if it was not handed out. -/
theorem Ranked.debut (ranked : x.Ranked) (sound : x.Sound) : Debut x.log (.taken (x.bus.take x.now).1) := by
  cases taken : x.bus.take x.now with
  | mk answer c =>
    cases answer with
    | none => trivial
    | some found =>
      obtain ⟨payload, id⟩ := found
      obtain ⟨front, m, back, queue, rfl, -, -, held, -⟩ := MemoryBus.take_eq_some taken
      have member : m ∈ x.bus.queue := by simp [queue]
      intro first j before
      refine Decidable.or_iff_not_imp_left.2 fun untaken => ?_
      rw [Decidable.not_not] at untaken
      have published : (fate j x.log).isSome := (sound.fated j).2 (before.trans (sound.id_lt member))
      obtain ⟨fateOfJ, known⟩ := Option.isSome_iff_exists.1 published
      rw [known]
      match fateOfJ with
      | .held .flying => exact absurd untaken (takings_ne_zero (.inl known))
      | .acked => exact absurd untaken (takings_ne_zero (.inr known))
      | .drained => rfl
      | .held .waiting =>
        exfalso
        obtain ⟨n, there, rfl⟩ := List.mem_map.1 (sound.waiting_iff.1 known)
        have ascending := ranked.ascending
        rw [queue, List.pairwise_append, List.pairwise_cons] at ascending
        rw [queue, List.mem_append, List.mem_cons] at there
        rcases there with ahead | rfl | behind
        · have late := held n ahead
          rw [ranked.unheld n (by simp [queue, ahead]) untaken] at late
          exact Nat.not_lt_zero _ late
        · exact Nat.lt_irrefl _ before
        · exact Nat.lt_asymm before (ascending.2.1.1 n behind first untaken)

theorem run_concat (x : Office) (orders : List Order) (o : Order) :
    x.run (orders ++ [o]) = (x.run orders).perform o :=
  List.foldl_concat ..

/-- First deliveries follow the order of publication. -/
theorem debut_run (orders : List Order) : (empty.run orders).Ranked ∧
    ∀ s past, s :: past <:+ (empty.run orders).log → Debut past s := by
  induction orders using List.reverseRecOn with
  | nil => exact ⟨⟨List.forall_mem_nil _, .nil⟩, by simp [run, empty]⟩
  | append_singleton earlier o ih =>
    obtain ⟨ranked, debut⟩ := ih
    have sound := sound_run earlier
    rw [run_concat]
    refine ⟨ranked.perform sound o, fun s past suffix => ?_⟩
    have stays {t : Sight} {bus : MemoryBus} (here : Debut (empty.run earlier).log t)
        (suffix : s :: past <:+ ((empty.run earlier).enter t bus).log) : Debut past s := by
      rcases List.suffix_cons_iff.1 suffix with same | before
      · cases same
        exact here
      · exact debut s past before
    cases o with
    | take => exact stays (ranked.debut sound) suffix
    | publish | produce => exact stays (t := .published _) trivial suffix
    | ack id => exact stays (t := .acked id) trivial suffix
    | nack id r => exact stays (t := .nacked id) trivial suffix
    | drain => exact stays (t := .drained _) trivial suffix
    | wait => exact debut s past suffix

/-- The messages that an order puts at the end of the queue: what it publishes, or releases. -/
def entrants (x : Office) : Order → List Nat
  | .publish _ | .produce _ => [(payloads x.log).length]
  | .nack id _ => if fate id x.log = some (.held .flying) then [id] else []
  | .take | .ack _ | .drain | .wait _ => []

/-- The messages that one order after another puts at the end of the queue. -/
def entered (x : Office) : List Order → List Nat
  | [] => []
  | o :: later => x.entrants o ++ (x.perform o).entered later

/-- What became of a message since its release after `n` deliveries, to be handed out when it is due, where
`after` joined the queue behind it. It stands in the queue, in front of those, or it was handed out once
more, which was not before it was due, or it was drained. -/
inductive Awaited (x : Office) (id n due : Nat) (after : List Nat) : Prop where
  | standing (m : Message) (member : m ∈ x.bus.queue) (same : m.id = id) (held : m.notBefore = due)
    (count : takings id x.log = n) (others : id ∉ after)
    (ahead : x.bus.queue.Pairwise fun a b => b.id = id → a.id ∉ after)
  | served (more : n < takings id x.log) (late : due ≤ x.now)
  | drained (gone : fate id x.log = some .drained)

theorem Sound.drained (sound : x.Sound) (o : Order) (gone : fate k x.log = some .drained) :
    fate k (x.perform o).log = some .drained := by
  have known : k ≠ (payloads x.log).length := by
    rintro rfl
    have within := (sound.fated _).1 (by rw [gone]; rfl)
    exact Nat.lt_irrefl _ within
  cases o with
  | publish | produce => exact (if_neg known).trans gone
  | take =>
    cases taken : (x.bus.take x.now).1 <;> simp [Office.perform, enter, taken, fate, gone]
  | ack | nack | drain => simp [Office.perform, enter, fate, gone]
  | wait => exact gone

variable {id n due : Nat} {after : List Nat}

/-- One of the messages that waited already joins the queue again, or one that was published since: not the
one that is awaited. -/
theorem Sound.entrants_ne (sound : x.Sound) (o : Order) (member : m ∈ x.bus.queue) :
    m.id ∉ x.entrants o := by
  have waiting := sound.waiting member
  have within := sound.id_lt member
  cases o with
  | publish | produce => exact fun there => within.ne (List.mem_singleton.1 there)
  | nack id r =>
    rw [entrants]
    split
    next flying =>
      intro there
      rw [← List.mem_singleton.1 there, waiting] at flying
      cases flying
    next => nofun
  | take | ack | drain | wait => nofun

/-- Whatever leaves the queue, and whatever joins it, an awaited message that stays stands in front of those
that joined. -/
theorem Sound.stand (sound : x.Sound) (o : Order) {y : Office} {kept joined : List Message}
    (queue : y.bus.queue = kept ++ joined) (fewer : kept.Sublist x.bus.queue)
    (joins : ∀ k ∈ joined, k.id ∈ x.entrants o) (member : m ∈ kept) (same : m.id = id)
    (held : m.notBefore = due) (count : takings id y.log = n) (others : id ∉ after)
    (ahead : x.bus.queue.Pairwise fun a b => b.id = id → a.id ∉ after) :
    y.Awaited id n due (after ++ x.entrants o) := by
  have apart : id ∉ x.entrants o := same ▸ sound.entrants_ne o (fewer.subset member)
  refine .standing m (queue ▸ List.mem_append_left _ member) same held count ?_ ?_
  · rw [List.mem_append, not_or]
    exact ⟨others, apart⟩
  · rw [queue, List.pairwise_append]
    refine ⟨?_, ?_, fun a _ b last here => ?_⟩
    · refine List.Pairwise.imp_of_mem (fun {a b} first _ before here => ?_) (ahead.sublist fewer)
      rw [List.mem_append, not_or]
      exact ⟨before here, sound.entrants_ne o (fewer.subset first)⟩
    · exact List.pairwise_of_forall_mem_list fun a _ b last here => absurd (here ▸ joins b last) apart
    · exact absurd (here ▸ joins b last) apart

theorem Awaited.perform (sound : x.Sound) (o : Order) (awaited : x.Awaited id n due after) :
    (x.perform o).Awaited id n due (after ++ x.entrants o) := by
  cases awaited with
  | served more late =>
    exact .served (more.trans_le (takings_perform x o id)) (late.trans (now_perform x o))
  | drained gone => exact .drained (sound.drained o gone)
  | standing m member same held count others ahead =>
    have stays {y : Office} {joined : List Message} (queue : y.bus.queue = x.bus.queue ++ joined)
        (joins : ∀ k ∈ joined, k.id ∈ x.entrants o) (untaken : takings id y.log = takings id x.log) :
        y.Awaited id n due (after ++ x.entrants o) :=
      sound.stand o queue (.refl _) joins member same held (untaken.trans count) others ahead
    cases o with
    | publish | produce =>
      refine stays rfl (fun k last => ?_) rfl
      rw [List.mem_singleton.1 last]
      exact List.mem_singleton.2 sound.next
    | ack | wait => exact stays (List.append_nil _).symm nofun rfl
    | nack other r =>
      by_cases flying : fate other x.log = some (.held .flying)
      · obtain ⟨k, there, rfl⟩ := List.mem_map.1 (sound.flying_iff.1 flying)
        rw [Office.perform, MemoryBus.nack_of_mem x.now r sound.distinct there]
        refine stays rfl (fun j last => ?_) rfl
        rw [List.mem_singleton.1 last, entrants, if_pos flying]
        exact List.mem_singleton_self _
      · rw [Office.perform, MemoryBus.nack_of_not_mem (mt sound.flying_iff.2 flying)]
        exact stays (List.append_nil _).symm nofun rfl
    | drain =>
      refine .drained ?_
      rw [← same]
      exact if_pos (sound.waiting member)
    | take =>
      cases taken : x.bus.take x.now with
      | mk answer c =>
        rw [Office.perform, taken]
        cases answer with
        | none =>
          obtain rfl := MemoryBus.take_none taken
          exact stays (List.append_nil _).symm nofun rfl
        | some found =>
          obtain ⟨payload, number⟩ := found
          obtain ⟨front, k, back, queue, rfl, -, ready, -, rfl⟩ := MemoryBus.take_eq_some taken
          by_cases here : id = k.id
          · -- The awaited message itself was ready.
            have first : m = k := sound.same member (by simp [queue]) (same.trans here)
            refine .served ?_ (held ▸ first ▸ ready)
            simp only [enter, takings, if_pos here, count, Nat.lt_add_one]
          · have fewer : (front ++ back).Sublist x.bus.queue := by
              rw [queue]
              exact (List.sublist_cons_self ..).append_left _
            have left : m ∈ front ++ back := by
              rw [queue] at member
              rcases List.mem_append.1 member with before | behind
              · exact List.mem_append_left _ before
              · refine List.mem_append_right _ ((List.mem_cons.1 behind).resolve_left ?_)
                rintro rfl
                exact here same.symm
            refine sound.stand .take (List.append_nil _).symm fewer nofun left same held ?_ others ahead
            rw [enter, takings, if_neg here, Nat.add_zero, count]

theorem Sound.run (sound : x.Sound) (orders : List Order) : (x.run orders).Sound :=
  List.foldlRecOn orders Office.perform sound fun _ sound o _ => sound.perform o

theorem Awaited.run (sound : x.Sound) (later : List Order) (awaited : x.Awaited id n due after) :
    (x.run later).Awaited id n due (after ++ x.entered later) := by
  induction later generalizing x after with
  | nil => simpa [Office.run, entered] using awaited
  | cons o rest ih =>
    have step := ih (sound.perform o) (awaited.perform sound o)
    rwa [List.append_assoc] at step

/-- When a message is due that is released now: by the count of its deliveries, which is a word. -/
def holdback (x : Office) (id : Nat) (r : Redelivery) : Nat :=
  x.now + (r.delay (UInt32.ofNat (takings id x.log)).toNat).nanos

theorem holdback_eq {r : Redelivery} (few : takings id x.log < UInt32.size) :
    x.holdback id r = x.now + (r.delay (takings id x.log)).nanos := by
  rw [holdback, UInt32.toNat_ofNat_of_lt' few]

theorem Awaited.released (sound : x.Sound) (r : Redelivery) (flying : fate id x.log = some (.held .flying)) :
    (x.perform (.nack id r)).Awaited id (takings id x.log) (x.holdback id r) [] := by
  obtain ⟨m, member, rfl⟩ := List.mem_map.1 (sound.flying_iff.1 flying)
  have held : x.holdback m.id r = x.now + (r.delay m.attempts.toNat).nanos := by
    rw [holdback, sound.attempts_eq (List.mem_append_right _ member)]
  rw [Office.perform, MemoryBus.nack_of_mem x.now r sound.distinct member, held]
  refine .standing _ (List.mem_append_right _ List.mem_cons_self) rfl rfl rfl nofun ?_
  exact List.pairwise_of_forall fun _ _ _ => List.not_mem_nil

/-- What a consumer can rely on about a message that was released after `n` deliveries, and is held back until
it is due, where `after` joined the queue since. -/
structure Postponed (x : Office) (id n due : Nat) (after : List Nat) : Prop where
  patient : ∀ payload bus, x.bus.take x.now = (some (payload, id), bus) → due ≤ x.now
  held : fate id x.log = some (.held .waiting) → takings id x.log = n →
    ∃ m ∈ x.bus.queue, m.id = id ∧ m.notBefore = due
  ahead : fate id x.log = some (.held .waiting) → takings id x.log = n → due ≤ x.now →
    ∀ payload k bus, x.bus.take x.now = (some (payload, k), bus) → k ∉ after

theorem Awaited.postponed (sound : x.Sound) (awaited : x.Awaited id n due after) :
    x.Postponed id n due after := by
  cases awaited with
  | served more late =>
    exact ⟨fun _ _ _ => late, fun _ count => absurd count more.ne', fun _ count => absurd count more.ne'⟩
  | drained gone =>
    refine ⟨fun payload bus taken => ?_, fun waits => ?_, fun waits => ?_⟩
    · obtain ⟨front, m, back, queue, rfl, -⟩ := MemoryBus.take_eq_some taken
      have waits := sound.waiting (m := m) (by simp [queue])
      rw [gone] at waits
      cases waits
    all_goals
      rw [gone] at waits
      cases waits
  | standing m member same held count others ahead =>
    refine ⟨fun payload bus taken => ?_, fun _ _ => ⟨m, member, same, held⟩,
      fun _ _ ready payload k bus taken => ?_⟩
    · obtain ⟨front, k, back, queue, here, -, ready, -⟩ := MemoryBus.take_eq_some taken
      obtain rfl := sound.same member (by simp [queue]) (same.trans here.symm)
      exact held ▸ ready
    · obtain ⟨front, first, back, queue, rfl, -, -, late, -⟩ := MemoryBus.take_eq_some taken
      rw [queue, List.pairwise_append, List.pairwise_cons] at ahead
      rw [queue, List.mem_append, List.mem_cons] at member
      rcases member with before | rfl | behind
      · exact absurd (held ▸ late m before) (Nat.not_lt.2 ready)
      · exact same ▸ others
      · exact ahead.2.1.1 m behind same

/-- What a consumer can rely on who takes a message now. -/
structure InTurn (x : Office) : Prop where
  idle : (x.bus.take x.now).1 = none ↔ ∀ m ∈ x.bus.queue, x.now < m.notBefore
  /-- The first message that is not held back is handed out, and the others keep their order. -/
  next : ∀ payload id bus, x.bus.take x.now = (some (payload, id), bus) → ∃ front m back,
    x.bus.queue = front ++ m :: back ∧ m.id = id ∧ m.payload = payload ∧
      (∀ k ∈ front, x.now < k.notBefore) ∧ m.notBefore ≤ x.now ∧
      bus = { x.bus with
        queue := front ++ back
        inflight := x.bus.inflight ++ [{ m with attempts := m.attempts + 1 }] }
  unheld : ∀ m ∈ x.bus.queue, takings m.id x.log = 0 → m.notBefore = 0
  debut : ∀ s past, s :: past <:+ x.log → Debut past s
  released : ∀ id r later, fate id x.log = some (.held .flying) →
    ((x.perform (.nack id r)).run later).Postponed id (takings id x.log) (x.holdback id r)
      ((x.perform (.nack id r)).entered later)
  /-- Short of 2³² deliveries, the delay is the one that belongs to their number. -/
  numbered : ∀ id r, takings id x.log < UInt32.size →
    x.holdback id r = x.now + (r.delay (takings id x.log)).nanos

/-- Whatever is done with a queue, it hands out the first message that is not held back: a new one in the
order of publication, a released one when it is due, before all that joined the queue after it. -/
theorem taken_in_turn (orders : List Order) : (empty.run orders).InTurn := by
  have sound := sound_run orders
  obtain ⟨ranked, debut⟩ := debut_run orders
  refine ⟨MemoryBus.take_eq_none_iff, fun payload id bus taken => ?_, fun m member untaken => ?_, debut,
    fun id r later flying => ?_, fun _ _ => holdback_eq⟩
  · obtain ⟨front, m, back, queue, here, carried, ready, held, rest⟩ := MemoryBus.take_eq_some taken
    exact ⟨front, m, back, queue, here, carried, held, ready, rest⟩
  · exact ranked.unheld m member untaken
  · have after := sound.perform (.nack id r)
    exact ((Awaited.released sound r flying).run after later).postponed (after.run later)

/-- Two messages are released, the first for a second: the one that was published in between comes first, then
the second, and when the second is over the first. -/
example : (empty.run [.publish [0], .publish [1], .take, .take, .nack 0 ⟨.ofMillis 1000, .ofMillis 1000⟩,
    .publish [2], .nack 1 .immediate, .take, .take, .take, .wait 1000000000, .take]).log.filterMap
      (fun | .taken (some (_, k)) => some k | _ => none) = [0, 1, 2, 1, 0] := by
  decide

end Office
end Conservation
end Cutover
