import NexusMainframe.Logging.LogBroadcaster
import NexusMainframe.Scheduler.TaskErrors

/-!
# Event tasks

An `EventTask` executes a task and publishes its completion event when the task has returned.
An exception of the task is logged and goes no further, so what wraps an `EventTask` takes it for
a task that returns, unless the log refuses the text of the exception: then the exception of the
serialiser leaves the `EventTask`. Where exceptions say what they say in UTF-8, the scheduler does
not see which of its tasks fail when all of them are wrapped: its ticks are those of tasks that
never throw.
-/

namespace NexusMainframe

open Scheduler.TaskErrors (Outcome)

/-- A task: other code, or an `EventTask` around a task. -/
inductive ITask (τ : Type) where
  | other (task : τ)
  | eventTask (task : ITask τ) (completionEvent : Bytes)
deriving DecidableEq

namespace ITask

variable {τ : Type}

/-- How `execute` ends: it returns, or throws a `std::exception` that says what it is, or one of the
serialiser of the log, whose text is ASCII, or something else. -/
inductive Ending where
  | returned
  | threw (what : Bytes)
  | refused
  | threwOther
deriving DecidableEq

/-- The ending as the scheduler and the bus see it. -/
def Ending.outcome : Ending → Outcome
  | .returned => .returned
  | .threw _ | .refused => .exception
  | .threwOther => .other

/-- What is logged of an exception that says what it is. -/
def failedMessage (what : Bytes) : Bytes :=
  Bytes.ofAscii "Task execution failed: " ++ what

/-- How an `EventTask` ends when its task has ended so. -/
def Ending.caught : Ending → Ending
  | .threw what => if Utf8.Valid (failedMessage what) then .returned else .refused
  | .returned | .refused | .threwOther => .returned

/-- What `execute` publishes once the other code that it comes down to has ended, in order, and
how it ends itself. -/
def execute (ending : Ending) : ITask τ → List Bytes × Ending
  | other _ => ([], ending)
  | eventTask task completionEvent =>
      match execute ending task with
      | (completions, .returned) => (completions ++ [completionEvent], .returned)
      | (completions, thrown) => (completions, thrown.caught)

/-- The completion events of a task. -/
def completionEvents : ITask τ → List Bytes
  | other _ => []
  | eventTask task completionEvent => completionEvents task ++ [completionEvent]

theorem valid_failedMessage (what : Bytes) :
  Utf8.Valid (failedMessage what) ↔ Utf8.Valid what
  := by
  apply Utf8.Valid.append_iff
  apply Utf8.valid_of_ascii
  apply Bytes.ofAscii_lt
  decide

/-- The message is refused just where the call of `error` throws. -/
theorem caught_eq_refused_iff
    {dump : Json → Option Bytes} (h : LogBroadcaster.DumpSpec dump) (now : LogTime)
    (b : LogBroadcaster) (what : Bytes) :
  (Ending.threw what).caught = .refused
    ↔ b.emit dump now (Bytes.ofAscii "error") (Bytes.ofAscii "EventTask") (failedMessage what)
        = none
  := by
  have hlevel : Utf8.Valid (Bytes.ofAscii "error") :=
    Utf8.valid_of_ascii (Bytes.ofAscii_lt (by decide))
  have hsource : Utf8.Valid (Bytes.ofAscii "EventTask") :=
    Utf8.valid_of_ascii (Bytes.ofAscii_lt (by decide))
  rw [LogBroadcaster.emit, LogBroadcaster.log, Option.map_eq_none_iff,
    LogBroadcaster.entryToJson_eq_none h, Ending.caught]
  simp [hlevel, hsource]

/-- The messages without a text are never refused. -/
theorem emit_unknown
    {dump : Json → Option Bytes} (h : LogBroadcaster.DumpSpec dump) (now : LogTime)
    (b : LogBroadcaster) :
  b.emit dump now (Bytes.ofAscii "error") (Bytes.ofAscii "EventTask")
    (Bytes.ofAscii "Task execution failed with unknown error") ≠ none
  := by
  rw [LogBroadcaster.emit, LogBroadcaster.log, ne_eq, Option.map_eq_none_iff,
    LogBroadcaster.entryToJson_eq_none h, not_not]
  and_intros <;> exact Utf8.valid_of_ascii (Bytes.ofAscii_lt (by decide))

@[simp]
theorem caught_caught (ending : Ending) :
  ending.caught.caught = .returned
  := by
  cases ending with
  | threw what =>
      rw [Ending.caught]
      split <;> rfl
  | returned | refused | threwOther => rfl

/-- An `EventTask` ends as its handlers do. -/
theorem execute_eventTask_snd (ending : Ending) (task : ITask τ) (completionEvent : Bytes) :
  ((eventTask task completionEvent).execute ending).2 = (task.execute ending).2.caught
  := by
  rw [execute]
  split
  next h => rw [h, Ending.caught]
  next h => rw [h]

/-- Nothing is thrown by an `EventTask` around another one. -/
theorem execute_eventTask_eventTask_snd
    (ending : Ending) (task : ITask τ) (completionEvent completionEvent' : Bytes) :
  ((eventTask (eventTask task completionEvent) completionEvent').execute ending).2 = .returned
  := by
  rw [execute_eventTask_snd, execute_eventTask_snd, caught_caught]

/-- An exception that says what it is in UTF-8 does not leave an `EventTask`. -/
theorem execute_eventTask_of_valid
    {ending : Ending} (h : ∀ what, ending = .threw what → Utf8.Valid what) (task : ITask τ)
    (completionEvent : Bytes) :
  ((eventTask task completionEvent).execute ending).2 = .returned
  := by
  cases task with
  | eventTask task completionEvent' => apply execute_eventTask_eventTask_snd
  | other task =>
      rw [execute_eventTask_snd, execute]
      cases ending with
      | threw what => exact if_pos ((valid_failedMessage what).mpr (h what rfl))
      | returned | refused | threwOther => rfl

theorem mem_completionEvents_of_mem_execute
    {ending : Ending} {task : ITask τ} {c : Bytes} (h : c ∈ (task.execute ending).1) :
  c ∈ task.completionEvents
  := by
  induction task with
  | other task => cases h
  | eventTask task completionEvent ih =>
      rw [completionEvents, List.mem_append]
      rw [execute] at h
      split at h
      next completions heq =>
        rw [heq] at ih
        rcases List.mem_append.mp h with h | h
        · left
          exact ih h
        · right
          exact h
      next completions thrown _ heq =>
        rw [heq] at ih
        left
        exact ih h

end ITask

namespace Scheduler

open TaskErrors

variable {τ Expr : Type} (cronNext : Expr → Int → Int)

/-- The call of `tick` in which the other code of each task ends as given. -/
def tickCall (now : Int) (endings : Nat → ITask.Ending)
    (tasks : List (ScheduledTask Expr (ITask τ))) : Call where
  now := now
  execute i :=
    match tasks[i]? with
    | none => .returned
    | some st => (st.task.execute (endings i)).2.outcome

/-- Every task is an `EventTask`. -/
def Wrapped (tasks : List (ScheduledTask Expr (ITask τ))) : Prop :=
  ∀ st ∈ tasks, ∃ task completionEvent, st.task = .eventTask task completionEvent

/-- What the calls of `tick` execute, the other code of the tasks ending as given each time. -/
def ticksOf : List (Int × (Nat → ITask.Ending)) → List (ScheduledTask Expr (ITask τ)) →
    List (List (Nat × ITask τ))
  | [], _ => []
  | (now, endings) :: calls, tasks =>
      let ticked := TaskErrors.tick cronNext (tickCall now endings tasks) 0 tasks
      ticked.executed ::
        if ticked.outcome = .other then [] else ticksOf calls ticked.tasks

/-- What the calls of `tick` execute when nothing is thrown. -/
def ticksAt : List Int → List (ScheduledTask Expr (ITask τ)) → List (List (Nat × ITask τ))
  | [], _ => []
  | now :: nows, tasks =>
      (Scheduler.tick cronNext now 0 tasks).1
        :: ticksAt nows (Scheduler.tick cronNext now 0 tasks).2

/-- What other code throws says what it is in UTF-8. -/
def Legible (endings : Nat → ITask.Ending) : Prop :=
  ∀ i what, endings i = .threw what → Utf8.Valid what

theorem tick_of_wrapped
    {tasks : List (ScheduledTask Expr (ITask τ))} (h : Wrapped tasks) (now : Int)
    {endings : Nat → ITask.Ending} (hlegible : Legible endings) :
  TaskErrors.tick cronNext (tickCall now endings tasks) 0 tasks
    = ⟨(Scheduler.tick cronNext now 0 tasks).1, (Scheduler.tick cronNext now 0 tasks).2, .returned⟩
  := by
  apply TaskErrors.tick_of_returned
  intro j st hst _
  obtain ⟨task, completionEvent, hevent⟩ := h st (List.mem_of_getElem? hst)
  rw [Nat.zero_add]
  simp only [tickCall, hst, hevent, ITask.execute_eventTask_of_valid (hlegible j)]
  rfl

/-- A tick keeps the tasks and moves their instants. -/
theorem Wrapped.tick
    {tasks : List (ScheduledTask Expr (ITask τ))} (h : Wrapped tasks) (now : Int) :
  Wrapped (Scheduler.tick cronNext now 0 tasks).2
  := by
  intro st hst
  rw [tick_tasks] at hst
  obtain ⟨st', hst', rfl⟩ := List.mem_map.mp hst
  obtain ⟨task, completionEvent, hevent⟩ := h st' hst'
  use task, completionEvent
  rw [ScheduledTask.tick]
  split <;> exact hevent

/-- Whichever event tasks fail, and however often, every tick executes what it would if none
did, as long as what they throw says so in UTF-8. -/
theorem ticksOf_of_wrapped
    {tasks : List (ScheduledTask Expr (ITask τ))} (h : Wrapped tasks)
    {calls : List (Int × (Nat → ITask.Ending))} (hlegible : ∀ call ∈ calls, Legible call.2) :
  ticksOf cronNext calls tasks = ticksAt cronNext (calls.map Prod.fst) tasks
  := by
  induction calls generalizing tasks with
  | nil => rfl
  | cons call calls ih =>
      obtain ⟨now, endings⟩ := call
      rw [ticksOf, List.map_cons, ticksAt,
        tick_of_wrapped cronNext h now (hlegible _ List.mem_cons_self)]
      simp only [reduceCtorEq, if_false]
      rw [ih (h.tick cronNext now) fun call hcall => hlegible call (List.mem_cons_of_mem _ hcall)]

end Scheduler

end NexusMainframe
