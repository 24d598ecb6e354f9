import NexusMainframe.Lib.Bytes
import NexusMainframe.Lib.Lts
import Mathlib.Order.Bounds.Basic

/-!
# The scheduler

A task is kept with its cron expression and the instant of its next execution, which the
cron library computes when the task is scheduled and each time it has been executed. A tick
executes every task whose instant has come. Where the library finds no next instant it
answers `-1`, an instant that has come at every tick; so a task runs when it is due just if
its expression always has an instant to come.
-/

namespace NexusMainframe

namespace Scheduler

/-- `cron::INVALID_TIME`. -/
def invalidTime : Int :=
  -1

/-- `ScheduledTask`: a task with its expression and the instant at which it is due. -/
structure ScheduledTask (Expr Task : Type) where
  task : Task
  cronExpr : Expr
  nextExecution : Int

/-- What happens to a scheduler: a task is scheduled, or a tick executes tasks, each given
with its place in the list. -/
inductive Event (Expr Task : Type) where
  | scheduled (task : Task) (cronExpr : Expr) (now : Int)
  | ticked (now : Int) (executed : List (Nat × Task))

/-- The scheduler, with what has happened to it. -/
structure State (Expr Task : Type) where
  tasks : List (ScheduledTask Expr Task) := []
  trace : List (Event Expr Task) := []

/-- The calls, with the time that they read. -/
inductive Action (Task : Type) where
  | scheduleTask (task : Task) (time : Bytes) (now : Int)
  | tick (now : Int)

variable {Expr Task : Type} (makeCron : Bytes → Option Expr) (cronNext : Expr → Int → Int)

/-- The constructor of `ScheduledTask`. -/
def ScheduledTask.create (task : Task) (cronExpr : Expr) (now : Int) : ScheduledTask Expr Task :=
  ⟨task, cronExpr, cronNext cronExpr now⟩

/-- `scheduleTask`: whether the expression is parsed, and the tasks. -/
def scheduleTask (tasks : List (ScheduledTask Expr Task)) (task : Task) (time : Bytes)
    (now : Int) : Bool × List (ScheduledTask Expr Task) :=
  match makeCron time with
  | none => (false, tasks)
  | some cronExpr => (true, tasks ++ [ScheduledTask.create cronNext task cronExpr now])

/-- The loop of `tick` over the tasks from the place `i` on: what is executed, and the
tasks. -/
def tick (now : Int) (i : Nat) :
    List (ScheduledTask Expr Task) → List (Nat × Task) × List (ScheduledTask Expr Task)
  | [] => ([], [])
  | st :: tasks =>
      let rest := tick now (i + 1) tasks
      if now ≥ st.nextExecution then
        ((i, st.task) :: rest.1, { st with nextExecution := cronNext st.cronExpr now } :: rest.2)
      else (rest.1, st :: rest.2)

/-- A call of the scheduler. -/
def step (s : State Expr Task) : Action Task → Option (State Expr Task)
  | .scheduleTask task time now =>
      some
        { tasks := (scheduleTask makeCron cronNext s.tasks task time now).2
          trace := match makeCron time with
            | none => s.trace
            | some cronExpr => s.trace ++ [.scheduled task cronExpr now] }
  | .tick now =>
      some
        { tasks := (tick cronNext now 0 s.tasks).2
          trace := s.trace ++ [.ticked now (tick cronNext now 0 s.tasks).1] }

/-! ### What is to be executed -/

/-- A task, with the time at which it was last executed or, before that, scheduled. -/
structure Entry (Expr Task : Type) where
  task : Task
  cronExpr : Expr
  last : Int

/-- What an event does to the tasks. -/
def record (entries : List (Entry Expr Task)) : Event Expr Task → List (Entry Expr Task)
  | .scheduled task cronExpr now => entries ++ [⟨task, cronExpr, now⟩]
  | .ticked now executed =>
      entries.mapIdx fun i entry =>
        if executed.any (·.1 = i) then { entry with last := now } else entry

/-- The tasks after a trace. -/
def entries (trace : List (Event Expr Task)) : List (Entry Expr Task) :=
  trace.foldl record []

variable (Matches : Expr → Int → Prop)

/-- What the scheduler assumes of the cron library: the next instant is the least matching
one, or `invalidTime` where none matches. -/
structure CronSpec : Prop where
  next : ∀ e t, IsLeast { m | Matches e m ∧ t < m } (cronNext e t) ∨
    (cronNext e t = invalidTime ∧ ∀ m, Matches e m → ¬ t < m)

/-- An instant that matches has come since the task was last executed or scheduled. -/
def Due (entry : Entry Expr Task) (now : Int) : Prop :=
  ∃ m, Matches entry.cronExpr m ∧ entry.last < m ∧ m ≤ now

/-- A tick executes each task that is due once, and no task that is not due. -/
def Executes (entries : List (Entry Expr Task)) (now : Int) (executed : List (Nat × Task)) :
    Prop :=
  ∀ i entry, entries[i]? = some entry →
    (Due Matches entry now → executed.filter (·.1 = i) = [(i, entry.task)]) ∧
      (¬ Due Matches entry now → executed.filter (·.1 = i) = [])

/-- Every tick of a trace executes what is due. -/
def Timely (trace : List (Event Expr Task)) : Prop :=
  ∀ before now executed after, trace = before ++ .ticked now executed :: after →
    Executes Matches (entries before) now executed

/-- A tick that is not before the instant `invalidTime` finds an instant to come for every
task. -/
def Instants (s : State Expr Task) : Action Task → Prop
  | .scheduleTask _ _ _ => True
  | .tick now =>
      invalidTime ≤ now →
        ∀ entry ∈ entries s.trace, ∃ m, Matches entry.cronExpr m ∧ entry.last < m

/-! ### One tick -/

/-- What a tick makes of a task. -/
def ScheduledTask.tick (now : Int) (st : ScheduledTask Expr Task) : ScheduledTask Expr Task :=
  if now ≥ st.nextExecution then { st with nextExecution := cronNext st.cronExpr now } else st

theorem tick_tasks (now : Int) (i : Nat) (tasks : List (ScheduledTask Expr Task)) :
  (tick cronNext now i tasks).2 = tasks.map (ScheduledTask.tick cronNext now)
  := by
  induction tasks generalizing i with
  | nil => rfl
  | cons st tasks ih =>
      rw [tick, List.map_cons, ScheduledTask.tick]
      split
      · rw [ih]
      · rw [ih]

/-- A tick executes no task in front of the place that it starts from. -/
theorem le_of_mem_tick
    {now : Int} {i : Nat} {tasks : List (ScheduledTask Expr Task)} {c : Nat × Task}
    (h : c ∈ (tick cronNext now i tasks).1) :
  i ≤ c.1
  := by
  induction tasks generalizing i with
  | nil => simp [tick] at h
  | cons st tasks ih =>
      rw [tick] at h
      split at h
      next =>
        rcases List.mem_cons.mp h with rfl | h
        · apply le_refl
        · exact (Nat.le_succ i).trans (ih h)
      next => exact (Nat.le_succ i).trans (ih h)

/-- A tick executes the task in a place once if its instant has come, and else not. -/
theorem filter_tick
    (now : Int) (i j : Nat) {tasks : List (ScheduledTask Expr Task)} {st : ScheduledTask Expr Task}
    (h : tasks[j]? = some st) :
  (tick cronNext now i tasks).1.filter (·.1 = i + j)
    = if now ≥ st.nextExecution then [(i + j, st.task)] else []
  := by
  induction tasks generalizing i j with
  | nil => simp at h
  | cons st' tasks ih =>
      cases j with
      | zero =>
          obtain rfl := Option.some.inj h
          have hrest : (tick cronNext now (i + 1) tasks).1.filter (·.1 = i) = [] := by
            rw [List.filter_eq_nil_iff]
            intro c hc
            have := le_of_mem_tick cronNext hc
            rw [decide_eq_true_eq]
            omega
          rw [tick, Nat.add_zero]
          split
          · simp [hrest]
          · apply hrest
      | succ j =>
          have hne : ¬ i = i + (j + 1) := by omega
          have hplace : i + 1 + j = i + (j + 1) := by omega
          have ih := ih (i + 1) j h
          rw [hplace] at ih
          rw [← ih, tick]
          split
          · rw [List.filter_cons_of_neg (by simp)]
          · rfl

theorem any_tick
    (now : Int) (i : Nat) {tasks : List (ScheduledTask Expr Task)} {st : ScheduledTask Expr Task}
    (h : tasks[i]? = some st) :
  (tick cronNext now 0 tasks).1.any (·.1 = i) = decide (now ≥ st.nextExecution)
  := by
  have hfilter := filter_tick cronNext now 0 i h
  rw [Nat.zero_add] at hfilter
  by_cases hdue : now ≥ st.nextExecution
  · have hmem : (i, st.task) ∈ (tick cronNext now 0 tasks).1.filter (·.1 = i) := by
      rw [hfilter, if_pos hdue]
      apply List.mem_singleton_self
    rw [decide_eq_true hdue, List.any_eq_true]
    use (i, st.task), List.mem_of_mem_filter hmem
    simp
  · rw [if_neg hdue, List.filter_eq_nil_iff] at hfilter
    rw [decide_eq_false hdue, List.any_eq_false]
    apply hfilter

/-! ### Runs -/

/-- The next instant of a task that was last executed or scheduled at some time. -/
def Entry.toTask (entry : Entry Expr Task) : ScheduledTask Expr Task :=
  ScheduledTask.create cronNext entry.task entry.cronExpr entry.last

/-- The tasks are those of the trace, with their next instants. -/
def Recorded (s : State Expr Task) : Prop :=
  s.tasks = (entries s.trace).map (Entry.toTask cronNext)

theorem entries_concat (trace : List (Event Expr Task)) (ev : Event Expr Task) :
  entries (trace ++ [ev]) = record (entries trace) ev
  := List.foldl_concat ..

theorem recorded_step
    {s t : State Expr Task} {a : Action Task} (h : Recorded cronNext s)
    (hstep : step makeCron cronNext s a = some t) :
  Recorded cronNext t
  := by
  cases a with
  | scheduleTask task time now =>
      obtain rfl := Option.some.inj hstep
      unfold Recorded at h ⊢
      dsimp only
      rw [scheduleTask]
      cases makeCron time with
      | none => apply h
      | some cronExpr =>
          dsimp only
          rw [entries_concat, record, List.map_append, h]
          rfl
  | tick now =>
      obtain rfl := Option.some.inj hstep
      unfold Recorded at h ⊢
      dsimp only
      rw [entries_concat, record, tick_tasks]
      apply List.ext_getElem?
      intro i
      cases hi : (entries s.trace)[i]? with
      | none => simp [h, hi]
      | some entry =>
          have htask : s.tasks[i]? = some (entry.toTask cronNext) := by
            rw [h, List.getElem?_map, hi]
            rfl
          rw [List.getElem?_map, htask, List.getElem?_map, List.getElem?_mapIdx, hi,
            Option.map_some, Option.map_some, Option.map_some, any_tick cronNext now i htask]
          by_cases hdue : now ≥ (entry.toTask cronNext).nextExecution
          · simp [ScheduledTask.tick, hdue]
            rfl
          · simp [ScheduledTask.tick, hdue]

variable {cronNext Matches}

/-- The instant of a task has come just if the task is due, or it has none and `invalidTime`
has come. -/
theorem ge_nextExecution_iff
    (hspec : CronSpec cronNext Matches) (entry : Entry Expr Task) (now : Int) :
  now ≥ (entry.toTask cronNext).nextExecution
    ↔ Due Matches entry now ∨
      (invalidTime ≤ now ∧ ∀ m, Matches entry.cronExpr m → ¬ entry.last < m)
  := by
  change now ≥ cronNext entry.cronExpr entry.last ↔ _
  rcases hspec.next entry.cronExpr entry.last with ⟨⟨hmatch, hlt⟩, hleast⟩ | ⟨hinvalid, hnone⟩
  · constructor
    · intro hnow
      left
      use cronNext entry.cronExpr entry.last, hmatch, hlt, hnow
    · rintro (⟨m, hm, hlast, hle⟩ | ⟨-, hnone⟩)
      · exact (hleast ⟨hm, hlast⟩).trans hle
      · exact (hnone _ hmatch hlt).elim
  · rw [hinvalid]
    constructor
    · intro hnow
      right
      use hnow, hnone
    · rintro (⟨m, hm, hlast, -⟩ | ⟨hnow, -⟩)
      · exact (hnone m hm hlast).elim
      · apply hnow

/-- A tick does right by a task just if, unless it is before the instant `invalidTime`, the
task has an instant to come. -/
theorem executes_entry_iff
    (hspec : CronSpec cronNext Matches) {s : State Expr Task} (h : Recorded cronNext s)
    (now : Int) {i : Nat} {entry : Entry Expr Task} (hentry : (entries s.trace)[i]? = some entry) :
  ((Due Matches entry now →
        (tick cronNext now 0 s.tasks).1.filter (·.1 = i) = [(i, entry.task)]) ∧
      (¬ Due Matches entry now → (tick cronNext now 0 s.tasks).1.filter (·.1 = i) = []))
    ↔ (invalidTime ≤ now → ∃ m, Matches entry.cronExpr m ∧ entry.last < m)
  := by
  have htask : s.tasks[i]? = some (entry.toTask cronNext) := by
    rw [h, List.getElem?_map, hentry]
    rfl
  have hfilter := filter_tick cronNext now 0 i htask
  rw [Nat.zero_add] at hfilter
  have hpoint := ge_nextExecution_iff hspec entry now
  rw [hfilter]
  constructor
  · rintro ⟨-, hnot⟩ hnow
    by_contra hnone
    push Not at hnone
    have hdue : ¬ Due Matches entry now := by
      rintro ⟨m, hm, hlast, -⟩
      have := hnone m hm
      omega
    have hcome := hpoint.mpr (.inr ⟨hnow, fun m hm => not_lt.mpr (hnone m hm)⟩)
    have hnil := hnot hdue
    rw [if_pos hcome] at hnil
    cases hnil
  · intro hinstant
    constructor
    · intro hdue
      rw [if_pos (hpoint.mpr (.inl hdue))]
      rfl
    · intro hdue
      rw [if_neg]
      intro hcome
      rcases hpoint.mp hcome with hdue' | ⟨hnow, hnone⟩
      · apply hdue hdue'
      · obtain ⟨m, hm, hlast⟩ := hinstant hnow
        apply hnone m hm hlast

theorem executes_iff
    (hspec : CronSpec cronNext Matches) {s : State Expr Task} (h : Recorded cronNext s)
    (now : Int) :
  Executes Matches (entries s.trace) now (tick cronNext now 0 s.tasks).1
    ↔ Instants Matches s (.tick now)
  := by
  unfold Executes Instants
  constructor
  · intro hexec hnow entry hentry
    obtain ⟨i, hi⟩ := List.getElem?_of_mem hentry
    apply (executes_entry_iff hspec h now hi).mp (hexec i entry hi) hnow
  · intro hinstants i entry hi
    apply (executes_entry_iff hspec h now hi).mpr
    intro hnow
    apply hinstants hnow entry (List.mem_of_getElem? hi)

theorem timely_concat (trace : List (Event Expr Task)) (ev : Event Expr Task) :
  Timely Matches (trace ++ [ev]) ↔ Timely Matches trace ∧
    ∀ now executed, ev = .ticked now executed → Executes Matches (entries trace) now executed
  := by
  constructor
  · intro h
    constructor
    · rintro before now executed after rfl
      apply h before now executed (after ++ [ev])
      simp
    · rintro now executed rfl
      apply h trace now executed []
      rfl
  · rintro ⟨h, hlast⟩ before now executed after heq
    rcases Lts.concat_eq_append_cons.mp heq with ⟨-, rfl, hev⟩ | ⟨after', -, htrace⟩
    · apply hlast now executed hev.symm
    · apply h before now executed after' htrace

/-- A step leads to a timely trace just if it is taken from one, and meets the condition. -/
theorem timely_step_iff
    (hspec : CronSpec cronNext Matches) {s t : State Expr Task} {a : Action Task}
    (h : Recorded cronNext s) (hstep : step makeCron cronNext s a = some t) :
  Timely Matches t.trace ↔ Timely Matches s.trace ∧ Instants Matches s a
  := by
  cases a with
  | scheduleTask task time now =>
      obtain rfl := Option.some.inj hstep
      dsimp only
      cases makeCron time with
      | none => simp [Instants]
      | some cronExpr => simp [timely_concat, Instants]
  | tick now =>
      obtain rfl := Option.some.inj hstep
      rw [← executes_iff hspec h]
      dsimp only
      rw [timely_concat]
      simp

/-- Every tick of a run executes each task that is due once and no other, just if every tick
that is not before the instant `-1` finds an instant to come for every task. -/
theorem timely_iff
    (hspec : CronSpec cronNext Matches) {as : List (Action Task)} {t : State Expr Task}
    (h : Lts.run (step makeCron cronNext) {} as = some t) :
  Timely Matches t.trace ↔ Lts.Guarded (step makeCron cronNext) (Instants Matches) {} as
  := by
  apply Lts.run_iff_guarded (I := Recorded cronNext) (P := fun s => Timely Matches s.trace)
    _ _ _ _ h
  · rfl
  · rintro before now executed after heq
    simp at heq
  · intro s a u hs hu
    apply recorded_step makeCron cronNext hs hu
  · intro s a u hs hu
    apply timely_step_iff makeCron hspec hs hu

/-- An expression for every `period + 1` seconds matches. -/
def Every (period : Nat) (t : Int) : Prop :=
  (period : Int) + 1 ∣ t

/-- The first instant behind `t` that matches. -/
def nextEvery (period : Nat) (t : Int) : Int :=
  (t / (period + 1) + 1) * (period + 1)

theorem isLeast_nextEvery (period : Nat) (t : Int) :
  IsLeast { m | Every period m ∧ t < m } (nextEvery period t)
  := by
  have hpos : 0 < (period : Int) + 1 := by omega
  constructor
  · exact ⟨Int.dvd_mul_left _ _, Int.lt_ediv_add_one_mul_self t hpos⟩
  · rintro m ⟨⟨k, rfl⟩, hlt⟩
    rw [Int.mul_comm] at hlt ⊢
    exact Int.mul_le_mul_of_nonneg_right (Int.ediv_lt_of_lt_mul hpos hlt) hpos.le

theorem cronSpec_every :
  CronSpec nextEvery Every
  where
  next period t := .inl (isLeast_nextEvery period t)

/-- The expressions for every second and for every other one. -/
def makeEvery (time : Bytes) : Option Nat :=
  if time = Bytes.ofAscii "* * * * * *" then some 0
  else if time = Bytes.ofAscii "*/2 * * * * *" then some 1
  else none

/-- A task for every second and one for every other second, with ticks at 1, at 2 and, late, at
5. -/
theorem timely_iff_everyOther :
  Timely Every [.scheduled 7 0 0, .scheduled 8 1 0, .ticked 1 [(0, 7)],
    .ticked 2 [(0, 7), (1, 8)], .ticked 5 [(0, 7), (1, 8)]]
  := by
  have hrun : Lts.run (step makeEvery nextEvery) {}
      [.scheduleTask 7 (Bytes.ofAscii "* * * * * *") 0,
        .scheduleTask 8 (Bytes.ofAscii "*/2 * * * * *") 0, .tick 1, .tick 2, .tick 5]
      = some ⟨[⟨7, 0, 6⟩, ⟨8, 1, 6⟩], [.scheduled 7 0 0, .scheduled 8 1 0, .ticked 1 [(0, 7)],
        .ticked 2 [(0, 7), (1, 8)], .ticked 5 [(0, 7), (1, 8)]]⟩ := rfl
  have hinstants : ∀ (s : State Nat Nat) a, Instants Every s a := by
    intro s a
    cases a with
    | scheduleTask => trivial
    | tick now =>
        intro _ entry _
        exact ⟨_, (isLeast_nextEvery entry.cronExpr entry.last).1⟩
  apply (timely_iff makeEvery cronSpec_every hrun).mpr
  simp [Lts.Guarded, hinstants]

/-- A task for the 30th of February, scheduled at 1000, is executed at 1001. -/
theorem not_timely :
  ¬ ∀ (Expr Task : Type) (makeCron : Bytes → Option Expr) (cronNext : Expr → Int → Int)
      (Matches : Expr → Int → Prop), CronSpec cronNext Matches →
      ∀ (as : List (Action Task)) (t : State Expr Task),
        Lts.run (step makeCron cronNext) {} as = some t → Timely Matches t.trace
  := by
  intro h
  have hspec : CronSpec (fun (_ : Unit) _ => invalidTime) fun _ _ => False := by
    constructor
    intro e t
    right
    simp
  have htimely := h Unit Unit (fun _ => some ()) _ _ hspec
    [.scheduleTask () (Bytes.ofAscii "0 0 0 30 2 *") 1000, .tick 1001]
    ⟨[⟨(), (), -1⟩], [.scheduled () () 1000, .ticked 1001 [(0, ())]]⟩ rfl
  have hexec := htimely [.scheduled () () 1000] 1001 [(0, ())] [] rfl
  have hnil := (hexec 0 ⟨(), (), 1000⟩ rfl).2 (by simp [Due])
  cases hnil

end Scheduler

end NexusMainframe
