import Mathlib.Data.List.Perm.Basic
import Cutover.Consumer

/-! The tasks of a consumer. Whatever it is told, each task under way or ended has one charge, there are
no more tasks than it may have, and it looks for more only while there is room. -/
namespace Cutover.Consumer

variable {C : Type} {s : Consumption} {c d : Consumer C}

/-- The message that a stage is about. -/
def Stage.cookies : Stage C → List C
  | .discarding cookie => [cookie]
  | .acking charge _ | .nacking charge _ => [charge.cookie]
  | _ => []

/-- The messages in hand. -/
def cookies (c : Consumer C) : List C := c.charges.map (·.cookie) ++ c.stage.cookies

/-- The queue was asked for a message, or has just given one without an event. -/
def Stage.Seeking : Stage C → Prop
  | .taking | .discarding _ => True
  | _ => False

/-- The stage is not about a message, nor the last. -/
def Stage.Plain : Stage C → Prop
  | .taking | .sweeping | .joining _ | .idle | .draining => True
  | _ => False

theorem Stage.Plain.cookies_eq_nil {stage : Stage C} (plain : stage.Plain) : stage.cookies = [] := by
  cases stage <;> first | rfl | cases plain

/-- The tasks and their charges, whatever the stage. -/
structure Staffed (s : Consumption) (c : Consumer C) : Prop where
  charged : (c.charges.map (·.task)).Perm (c.running ++ c.finished.map (·.1))
  distinct : (c.charges.map (·.task)).Nodup
  launched : ∀ charge ∈ c.charges, charge.task < c.launched
  room : c.tasks ≤ s.capacity

structure Sound (s : Consumption) (c : Consumer C) : Prop extends Staffed s c where
  seeking : c.stage.Seeking → c.hasRoom s = true
  through : ∀ result, c.stage = .ended result → c.running = [] ∧ c.finished = []
  known : c.stage ≠ .ended (.error .unknownTask)

/-- The consumer goes on, with nothing changed but what it waits for. -/
structure Turned (s : Consumption) (c d : Consumer C) : Prop where
  same : d = { c with stage := d.stage, signalled := d.signalled }
  plain : d.stage.Plain
  seeking : d.stage.Seeking → c.hasRoom s = true

theorem turned_afterTake {took : Bool} (room : took = true → c.tasks = 0 → c.hasRoom s = true) :
    Turned s c (c.afterTake s took).1 := by
  refine ⟨rfl, ?_, ?_⟩ <;> simp only [afterTake] <;> split
  · trivial
  · split
    · trivial
    · split <;> trivial
  · exact False.elim
  next full =>
    split
    · exact False.elim
    next none =>
      split
      · exact False.elim
      next asked =>
        have took : took = true := by simpa using asked
        exact fun _ => room took (not_not.1 none)

theorem turned_again (s : Consumption) (c : Consumer C) : Turned s c (c.again s).1 := by
  simp only [again]
  split
  next room => exact ⟨rfl, trivial, fun _ => room⟩
  next => exact turned_afterTake (by simp)

theorem turned_resume (s : Consumption) (c : Consumer C) (after : Resume) :
    Turned s c (c.resume s after).1 := by
  cases after with
  | sweep => exact ⟨rfl, trivial, False.elim⟩
  | take => exact turned_again s c
  | drain => exact ⟨rfl, trivial, False.elim⟩

theorem turned_heed (s : Consumption) (c : Consumer C) : Turned s c c.heed := ⟨rfl, trivial, False.elim⟩

theorem Turned.cookies (turned : Turned s c d) : d.cookies = c.charges.map (·.cookie) := by
  rw [Consumer.cookies, turned.plain.cookies_eq_nil, List.append_nil, turned.same]

theorem Staffed.turned (staffed : c.Staffed s) (turned : Turned s c d) : d.Sound s := by
  have plain := turned.plain
  have seeking := turned.seeking
  have going : ∀ result, d.stage ≠ .ended result := by
    intro result ended
    simp only [ended, Stage.Plain] at plain
  rw [turned.same]
  exact ⟨⟨staffed.charged, staffed.distinct, staffed.launched, staffed.room⟩, seeking,
    fun _ ended => absurd ended (going _), going _⟩

theorem sound_start (s : Consumption) : (start s : Consumer C × List Note).1.Sound s := by
  have staffed : (fresh : Consumer C).Staffed s := ⟨.refl _, .nil, by simp [fresh], Nat.zero_le _⟩
  exact staffed.turned (turned_again s fresh)

def hire (c : Consumer C) (event : Event) (cookie : C) : Consumer C := { c with
  running := c.running ++ [c.launched]
  charges := c.charges ++ [⟨c.launched, event, cookie⟩]
  launched := c.launched + 1 }

theorem onTaken_decoded {payload : List UInt8} {event : Event} {cookie : C}
    (decoded : Event.decode payload = some event) : c.onTaken s (some (payload, cookie)) =
      (((c.hire event cookie).afterTake s true).1, [.launch c.launched event],
        ((c.hire event cookie).afterTake s true).2) := by
  simp only [onTaken, decoded]
  rfl

theorem Staffed.hire (staffed : c.Staffed s) (room : c.hasRoom s = true) (event : Event) (cookie : C) :
    (c.hire event cookie).Staffed s := by
  refine ⟨?_, ?_, ?_, ?_⟩
  · simp only [Consumer.hire, List.map_append, List.map_cons, List.map_nil]
    rw [List.append_assoc, List.singleton_append]
    exact (List.perm_append_singleton ..).trans ((staffed.charged.cons _).trans List.perm_middle.symm)
  · simp only [Consumer.hire, List.map_append, List.map_cons, List.map_nil, List.nodup_append]
    refine ⟨staffed.distinct, by simp, ?_⟩
    rintro task old new member rfl
    obtain ⟨charge, there, rfl⟩ := List.mem_map.1 old
    exact absurd (staffed.launched charge there) (by simp [List.mem_singleton.1 member])
  · intro charge member
    rcases List.mem_append.1 member with old | new
    · exact Nat.lt_succ_of_lt (staffed.launched charge old)
    · rw [List.mem_singleton.1 new]
      exact Nat.lt_succ_self _
  · have room : c.tasks < s.capacity := by simpa [hasRoom] using room
    simp only [tasks, Consumer.hire, List.length_append, List.length_singleton] at room ⊢
    omega

theorem Staffed.exists_charge (staffed : c.Staffed s) {task : Nat}
    (member : task ∈ c.running ++ c.finished.map (·.1)) : ∃ charge ∈ c.charges, charge.task = task :=
  List.mem_map.1 (staffed.charged.mem_iff.2 member)

theorem Staffed.nodup (staffed : c.Staffed s) : (c.running ++ c.finished.map (·.1)).Nodup :=
  staffed.charged.nodup_iff.1 staffed.distinct

theorem onEnded_of_mem {task : Nat} (running : task ∈ c.running) (ending : Ending) : c.onEnded task ending =
    { c with running := c.running.erase task, finished := c.finished ++ [(task, ending)] } := by
  simp [onEnded, running]

theorem Sound.onEnded {task : Nat} (sound : c.Sound s) (running : task ∈ c.running) (ending : Ending) :
    (c.onEnded task ending).Sound s := by
  have count : (c.onEnded task ending).tasks = c.tasks := by
    have some := List.length_pos_of_mem running
    simp only [onEnded_of_mem running, tasks, List.length_erase_of_mem running, List.length_append,
      List.length_singleton]
    omega
  have stage : (c.onEnded task ending).stage = c.stage := by rw [onEnded_of_mem running]
  refine ⟨⟨?_, ?_, ?_, ?_⟩, ?_, ?_, ?_⟩
  · rw [onEnded_of_mem running]
    refine sound.charged.trans (((List.perm_cons_erase running).append_right _).trans ?_)
    simp only [List.map_append, List.map_cons, List.map_nil, ← List.append_assoc, List.cons_append]
    exact (List.perm_append_singleton ..).symm
  · rw [onEnded_of_mem running]
    exact sound.distinct
  · rw [onEnded_of_mem running]
    exact sound.launched
  · rw [count]
    exact sound.room
  · rw [stage, hasRoom, count]
    exact sound.seeking
  · intro result ended
    rw [(sound.through result (stage ▸ ended)).1] at running
    cases running
  · rw [stage]
    exact sound.known

/-- The charge of the first task that has ended becomes that of the stage. -/
theorem Staffed.join (staffed : c.Staffed s) {task : Nat} {ending : Ending} {rest : List (Nat × Ending)}
    (found : c.finished = (task, ending) :: rest) (after : Resume) :
    (c.join after).Sound s ∧ ∃ charge ∈ c.charges, charge.task = task ∧ c.join after = { c with
      finished := rest
      charges := c.charges.filter (·.task != charge.task)
      stage := if ending = .succeeded then .acking charge after else .nacking charge after } := by
  have ended : task ∈ c.running ++ c.finished.map (·.1) := by simp [found]
  obtain ⟨charge, here⟩ := Option.isSome_iff_exists.1 <|
    List.find?_isSome (p := fun x : Charge C => x.task == task).2 <| by
      simpa using staffed.exists_charge ended
  have member := List.mem_of_find?_eq_some here
  have same : charge.task = task := by simpa using List.find?_some here
  have joined : c.join after = { c with
      finished := rest
      charges := c.charges.filter (·.task != charge.task)
      stage := if ending = .succeeded then .acking charge after else .nacking charge after } := by
    simp only [Consumer.join, found, here, same]
  refine ⟨?_, charge, member, same, joined⟩
  rw [joined]
  refine ⟨⟨?_, ?_, ?_, ?_⟩, ?_, ?_, ?_⟩
  · have left := staffed.charged.erase task
    -- a task that has ended is no longer under way
    have away : task ∉ c.running := by
      intro running
      have apart := (List.nodup_append.1 staffed.nodup).2.2 task running task
      simp [found] at apart
    rw [staffed.distinct.erase_eq_filter, List.erase_append_right _ away, found, List.map_cons,
      List.erase_cons_head, List.filter_map] at left
    rw [same]
    exact left
  · exact staffed.distinct.sublist (List.filter_sublist.map _)
  · exact fun x there => staffed.launched x (List.mem_of_mem_filter there)
  · have room := staffed.room
    simp only [tasks, found, List.length_cons] at room ⊢
    omega
  · dsimp only
    split <;> exact False.elim
  · dsimp only
    split <;> simp
  · dsimp only
    split <;> simp

end Cutover.Consumer
