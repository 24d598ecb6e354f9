import NexusMainframe.Scheduler.Scheduler

/-!
# Tasks that throw

An exception that leaves `execute` leaves `tick` as well: the task has been executed without
its next instant being moved, and the tasks behind it are not reached. The main loop catches
it, and calls `tick` again, which does the same. A tick does right by every task that is due
just if none of them throws and each has an instant to come.
-/

namespace NexusMainframe

namespace Scheduler

namespace TaskErrors

/-- How a call of `execute` or of `tick` ends: it returns, or throws what is a
`std::exception` or something else. -/
inductive Outcome where
  | returned
  | exception
  | other
deriving DecidableEq

/-- What a call of `tick` executes, the tasks behind it, and how it ends. -/
structure Ticked (Expr Task : Type) where
  executed : List (Nat × Task)
  tasks : List (ScheduledTask Expr Task)
  outcome : Outcome

/-- A call of `tick` with the time that it reads, and how the task in each place ends if it
is executed. -/
structure Call where
  now : Int
  execute : Nat → Outcome

variable {Expr Task : Type} (cronNext : Expr → Int → Int)

/-- The loop of `tick` over the tasks from the place `i` on. -/
def tick (call : Call) (i : Nat) : List (ScheduledTask Expr Task) → Ticked Expr Task
  | [] => ⟨[], [], .returned⟩
  | st :: tasks =>
      let rest := tick call (i + 1) tasks
      if call.now ≥ st.nextExecution then
        if call.execute i = .returned then
          { executed := (i, st.task) :: rest.executed
            tasks := { st with nextExecution := cronNext st.cronExpr call.now } :: rest.tasks
            outcome := rest.outcome }
        else ⟨[(i, st.task)], st :: tasks, call.execute i⟩
      else { rest with tasks := st :: rest.tasks }

/-- What the calls of `tick` in the main loop execute. The loop catches a `std::exception`;
anything else ends the program. -/
def ticks : List Call → List (ScheduledTask Expr Task) → List (List (Nat × Task))
  | [], _ => []
  | call :: calls, tasks =>
      let ticked := tick cronNext call 0 tasks
      ticked.executed ::
        if ticked.outcome = .other then [] else ticks calls ticked.tasks

/-! ### Where the loop stops -/

/-- A tick leaves a task as it is, or it is due and gets its next instant. -/
theorem getElem?_tick
    {call : Call} {i j : Nat} {tasks : List (ScheduledTask Expr Task)}
    {st : ScheduledTask Expr Task} (h : tasks[j]? = some st) :
  (tick cronNext call i tasks).tasks[j]? = some st ∨
    call.now ≥ st.nextExecution ∧ call.execute (i + j) = .returned ∧
      (tick cronNext call i tasks).tasks[j]?
        = some { st with nextExecution := cronNext st.cronExpr call.now }
  := by
  induction tasks generalizing i j with
  | nil => simp at h
  | cons st' tasks ih =>
      rw [tick]
      cases j with
      | zero =>
          obtain rfl := Option.some.inj h
          split_ifs with hdue hreturned
          · right
            use hdue, hreturned
            rfl
          · left
            rfl
          · left
            rfl
      | succ j =>
          have ih := ih (i := i + 1) h
          have hplace : i + 1 + j = i + (j + 1) := by omega
          rw [hplace] at ih
          split_ifs
          · apply ih
          · left
            apply h
          · apply ih

/-- What a tick executes is due. -/
theorem mem_tick
    {call : Call} {i : Nat} {tasks : List (ScheduledTask Expr Task)} {c : Nat × Task}
    (h : c ∈ (tick cronNext call i tasks).executed) :
  ∃ j st, c = (i + j, st.task) ∧ tasks[j]? = some st ∧ call.now ≥ st.nextExecution
  := by
  induction tasks generalizing i with
  | nil => cases h
  | cons st tasks ih =>
      have hlater (h : c ∈ (tick cronNext call (i + 1) tasks).executed) :
          ∃ j st', c = (i + j, st'.task) ∧ (st :: tasks)[j]? = some st' ∧
            call.now ≥ st'.nextExecution := by
        obtain ⟨j, st', rfl, hst', hdue⟩ := ih h
        use j + 1, st'
        rw [Nat.add_right_comm, Nat.add_assoc]
        use rfl, hst'
      rw [tick] at h
      split_ifs at h with hdue hreturned
      · rcases List.mem_cons.mp h with rfl | h
        · use 0, st, rfl, rfl
        · apply hlater h
      · rw [List.mem_singleton.mp h]
        use 0, st, rfl, rfl
      · apply hlater h

/-- A task whose instant has not come is not executed, and left as it is. -/
theorem tick_of_lt
    {call : Call} {j : Nat} {tasks : List (ScheduledTask Expr Task)}
    {st : ScheduledTask Expr Task} (h : tasks[j]? = some st) (hlt : call.now < st.nextExecution) :
  (tick cronNext call 0 tasks).tasks[j]? = some st ∧
    ∀ c ∈ (tick cronNext call 0 tasks).executed, c.1 ≠ j
  := by
  constructor
  · rcases getElem?_tick cronNext (i := 0) h with hkept | ⟨hdue, -⟩
    · apply hkept
    · exact (not_lt.mpr hdue hlt).elim
  · rintro c hc rfl
    obtain ⟨j, st', rfl, hst', hdue⟩ := mem_tick cronNext hc
    rw [Nat.zero_add] at h
    obtain rfl := Option.some.inj (h.symm.trans hst')
    apply not_lt.mpr hdue hlt

/-- A task that is due and throws is left as it is, and no task behind it is executed. -/
theorem tick_of_throws
    {call : Call} {i j : Nat} {tasks : List (ScheduledTask Expr Task)}
    {st : ScheduledTask Expr Task} (h : tasks[j]? = some st)
    (hdue : call.now ≥ st.nextExecution) (hthrows : call.execute (i + j) ≠ .returned) :
  (tick cronNext call i tasks).tasks[j]? = some st ∧
    ∀ c ∈ (tick cronNext call i tasks).executed, c.1 ≤ i + j
  := by
  induction tasks generalizing i j with
  | nil => simp at h
  | cons st' tasks ih =>
      rw [tick]
      cases j with
      | zero =>
          obtain rfl := Option.some.inj h
          rw [Nat.add_zero] at hthrows ⊢
          rw [if_pos hdue, if_neg hthrows]
          use rfl
          rw [List.forall_mem_singleton, Nat.add_zero]
      | succ j =>
          have hplace : i + 1 + j = i + (j + 1) := by omega
          obtain ⟨hkept, hbehind⟩ := ih (i := i + 1) h (by rw [hplace]; apply hthrows)
          rw [hplace] at hbehind
          split_ifs
          · use hkept
            rw [List.forall_mem_cons]
            use Nat.le_add_right i _
          · use h
            rw [List.forall_mem_singleton]
            apply Nat.le_add_right
          · use hkept

/-- Where nothing throws that is due, the tick is one of tasks that do not throw. -/
theorem tick_of_returned
    {call : Call} {i : Nat} {tasks : List (ScheduledTask Expr Task)}
    (h : ∀ j st, tasks[j]? = some st → call.now ≥ st.nextExecution →
      call.execute (i + j) = .returned) :
  tick cronNext call i tasks
    = ⟨(Scheduler.tick cronNext call.now i tasks).1, (Scheduler.tick cronNext call.now i tasks).2,
        .returned⟩
  := by
  induction tasks generalizing i with
  | nil => rfl
  | cons st tasks ih =>
      have hrest := ih (i := i + 1) (by
        intro j st' hst' hdue
        rw [Nat.add_right_comm, Nat.add_assoc]
        apply h (j + 1) st' hst' hdue)
      rw [tick, Scheduler.tick]
      split_ifs with hdue hreturned
      · rw [hrest]
      · exact (hreturned (h 0 st rfl hdue)).elim
      · rw [hrest]

/-- Such a tick moves the next instant of every task that is due. -/
theorem getElem?_tick_of_returned
    {call : Call} {tasks : List (ScheduledTask Expr Task)}
    (h : ∀ j st, tasks[j]? = some st → call.now ≥ st.nextExecution →
      call.execute (0 + j) = .returned)
    {j : Nat} {st : ScheduledTask Expr Task} (hst : tasks[j]? = some st)
    (hdue : call.now ≥ st.nextExecution) :
  (tick cronNext call 0 tasks).tasks[j]?
    = some { st with nextExecution := cronNext st.cronExpr call.now }
  := by
  rw [tick_of_returned cronNext h, tick_tasks, List.getElem?_map, hst, Option.map_some,
    ScheduledTask.tick, if_pos hdue]

/-! ### What the ticks come to -/

/-- As long as a task that is due throws, no tick executes a task behind it. -/
theorem ticks_of_throws
    {calls : List Call} {j : Nat} {tasks : List (ScheduledTask Expr Task)}
    {st : ScheduledTask Expr Task} (h : tasks[j]? = some st)
    (hcalls : ∀ call ∈ calls, call.now ≥ st.nextExecution ∧ call.execute j ≠ .returned) :
  ∀ executed ∈ ticks cronNext calls tasks, ∀ c ∈ executed, c.1 ≤ j
  := by
  induction calls generalizing tasks with
  | nil => simp [ticks]
  | cons call calls ih =>
      obtain ⟨⟨hdue, hthrows⟩, hcalls⟩ := List.forall_mem_cons.mp hcalls
      obtain ⟨hkept, hbehind⟩ := tick_of_throws cronNext (i := 0) h hdue
        (by rw [Nat.zero_add]; apply hthrows)
      rw [Nat.zero_add] at hbehind
      rw [ticks, List.forall_mem_cons]
      use hbehind
      split_ifs
      · simp
      · apply ih hkept hcalls

/-- While its instant has not come, a task is executed by no tick. -/
theorem ticks_of_lt
    {calls : List Call} {j : Nat} {tasks : List (ScheduledTask Expr Task)}
    {st : ScheduledTask Expr Task} (h : tasks[j]? = some st)
    (hcalls : ∀ call ∈ calls, call.now < st.nextExecution) :
  ∀ executed ∈ ticks cronNext calls tasks, ∀ c ∈ executed, c.1 ≠ j
  := by
  induction calls generalizing tasks with
  | nil => simp [ticks]
  | cons call calls ih =>
      obtain ⟨hlt, hcalls⟩ := List.forall_mem_cons.mp hcalls
      obtain ⟨hkept, hnot⟩ := tick_of_lt cronNext h hlt
      rw [ticks, List.forall_mem_cons]
      use hnot
      split_ifs
      · simp
      · apply ih hkept hcalls

/-! ### Isolation -/

variable (Matches : Expr → Int → Prop)

/-- A call of `tick` executes every task that is due once, and moves its next instant beyond
the time of the call; and as long as no instant matches its expression, no call after it
executes the task again. -/
structure Isolates (tasks : List (ScheduledTask Expr Task)) (call : Call) : Prop where
  executed : ∀ (j : Nat) (st : ScheduledTask Expr Task), tasks[j]? = some st →
    call.now ≥ st.nextExecution →
    (tick cronNext call 0 tasks).executed.filter (·.1 = j) = [(j, st.task)]
  advanced : ∀ (j : Nat) (st : ScheduledTask Expr Task), tasks[j]? = some st →
    call.now ≥ st.nextExecution →
    ∃ st' : ScheduledTask Expr Task,
      (tick cronNext call 0 tasks).tasks[j]? = some st' ∧ call.now < st'.nextExecution
  waits : ∀ (j : Nat) (st : ScheduledTask Expr Task), tasks[j]? = some st →
    call.now ≥ st.nextExecution →
    ∀ calls : List Call,
      (∀ later ∈ calls, ∀ m, Matches st.cronExpr m → call.now < m → later.now < m) →
      ∀ again ∈ ticks cronNext calls (tick cronNext call 0 tasks).tasks, ∀ c ∈ again, c.1 ≠ j

variable {cronNext Matches}

/-- The next instant of an expression that has one to come. -/
theorem isLeast_cronNext
    (hspec : CronSpec cronNext Matches) {e : Expr} {now : Int}
    (h : ∃ m, Matches e m ∧ now < m) :
  IsLeast { m | Matches e m ∧ now < m } (cronNext e now)
  := by
  rcases hspec.next e now with hleast | ⟨-, hnone⟩
  · apply hleast
  · obtain ⟨m, hm, hlt⟩ := h
    exact (hnone m hm hlt).elim

/-- A task that has no instant to come is executed again once `invalidTime` has come. -/
theorem executed_of_none
    (hspec : CronSpec cronNext Matches) {tasks : List (ScheduledTask Expr Task)} {j : Nat}
    {st : ScheduledTask Expr Task} {now : Int}
    (h : tasks[j]? = some { st with nextExecution := cronNext st.cronExpr now })
    (hnone : ¬ ∃ m, Matches st.cronExpr m ∧ now < m) :
  ∃ again ∈ ticks cronNext [⟨max now invalidTime, fun _ => .returned⟩] tasks,
    ∃ c ∈ again, c.1 = j
  := by
  have hinvalid : cronNext st.cronExpr now = invalidTime := by
    rcases hspec.next st.cronExpr now with ⟨hmem, -⟩ | ⟨hinvalid, -⟩
    · exact (hnone ⟨_, hmem⟩).elim
    · apply hinvalid
  rw [hinvalid] at h
  have hfilter := filter_tick cronNext (max now invalidTime) 0 j h
  rw [if_pos (le_max_right now invalidTime), Nat.zero_add] at hfilter
  have hmem : (j, st.task) ∈ (Scheduler.tick cronNext (max now invalidTime) 0 tasks).1 := by
    apply List.mem_of_mem_filter (p := (·.1 = j))
    rw [hfilter]
    apply List.mem_singleton_self
  use (Scheduler.tick cronNext (max now invalidTime) 0 tasks).1
  constructor
  · rw [ticks, tick_of_returned cronNext (by simp)]
    apply List.mem_cons_self
  · use (j, st.task), hmem

/-- A tick isolates the tasks from each other just if no task that is due throws, and each has
an instant to come. -/
theorem isolates_iff
    (hspec : CronSpec cronNext Matches) (tasks : List (ScheduledTask Expr Task)) (call : Call) :
  Isolates cronNext Matches tasks call ↔
    ∀ j (st : ScheduledTask Expr Task), tasks[j]? = some st → call.now ≥ st.nextExecution →
      call.execute j = .returned ∧ ∃ m, Matches st.cronExpr m ∧ call.now < m
  := by
  constructor
  · intro h j st hst hdue
    obtain ⟨st', hst', hlt⟩ := h.advanced j st hst hdue
    rcases getElem?_tick cronNext (i := 0) hst with hkept | ⟨-, hreturned, hmoved⟩
    · obtain rfl := Option.some.inj (hst'.symm.trans hkept)
      exact (not_lt.mpr hdue hlt).elim
    · rw [Nat.zero_add] at hreturned
      use hreturned
      by_contra hnone
      obtain ⟨again, hagain, c, hc, hplace⟩ := executed_of_none hspec hmoved hnone
      apply h.waits j st hst hdue _ _ again hagain c hc hplace
      intro later _ m hm hlt
      exact (hnone ⟨m, hm, hlt⟩).elim
  · intro h
    have hreturned (j : Nat) (st : ScheduledTask Expr Task) (hst : tasks[j]? = some st)
        (hdue : call.now ≥ st.nextExecution) : call.execute (0 + j) = .returned := by
      rw [Nat.zero_add]
      apply (h j st hst hdue).1
    constructor
    case executed =>
      intro j st hst hdue
      have hfilter := filter_tick cronNext call.now 0 j hst
      rw [if_pos hdue, Nat.zero_add] at hfilter
      rw [tick_of_returned cronNext hreturned]
      apply hfilter
    case advanced =>
      intro j st hst hdue
      use { st with nextExecution := cronNext st.cronExpr call.now },
        getElem?_tick_of_returned cronNext hreturned hst hdue
      apply (isLeast_cronNext hspec (h j st hst hdue).2).1.2
    case waits =>
      intro j st hst hdue calls hcalls
      apply ticks_of_lt cronNext (getElem?_tick_of_returned cronNext hreturned hst hdue)
      intro later hlater
      obtain ⟨hmatch, hlt⟩ := (isLeast_cronNext hspec (h j st hst hdue).2).1
      apply hcalls later hlater _ hmatch hlt

/-- A task for every second and two for every other second, of which one is not due yet. -/
def periodic : List (ScheduledTask Nat Nat) :=
  [⟨7, 0, 1⟩, ⟨8, 1, 2⟩, ⟨9, 1, 4⟩]

/-- The task that throws is not due. -/
theorem isolates_iff_periodic :
  Isolates nextEvery Every periodic ⟨2, fun j => if j = 2 then .exception else .returned⟩
  := by
  apply (isolates_iff cronSpec_every periodic _).mpr
  intro j st hst hdue
  constructor
  · apply if_neg
    rintro rfl
    cases hst
    exact absurd hdue (by decide)
  · exact ⟨_, (isLeast_nextEvery st.cronExpr 2).1⟩

/-- Of two tasks for every second the first throws. -/
theorem not_isolates :
  ¬ ∀ (Expr Task : Type) (cronNext : Expr → Int → Int) (Matches : Expr → Int → Prop),
      CronSpec cronNext Matches → ∀ (tasks : List (ScheduledTask Expr Task)) (call : Call),
        Isolates cronNext Matches tasks call
  := by
  intro h
  have hisolates := h Nat Unit _ _ cronSpec_every [⟨(), 0, 1⟩, ⟨(), 0, 1⟩]
    ⟨1, fun j => if j = 0 then .exception else .returned⟩
  have hexecuted := hisolates.executed 1 ⟨(), 0, 1⟩ rfl (le_refl 1)
  cases hexecuted

end TaskErrors

end Scheduler

end NexusMainframe
