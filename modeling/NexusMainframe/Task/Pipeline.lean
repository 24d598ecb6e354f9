import NexusMainframe.Event.Due
import NexusMainframe.Task.EventTask
import NexusMainframe.Trigger.EventTrigger

/-!
# Tasks that trigger tasks

The main thread executes the tasks of triggers in `dispatchPending` and those of the scheduler
outside of it. An `EventTask` that ends well publishes an event, which may be the one that a
trigger waits for. Other code subscribes and publishes meanwhile, on any thread.

Each call of `dispatchPending` leaves what is published during it to the next one, so tasks that
trigger each other in a circle do not hold the main thread up. When there is no such circle,
the events run dry, as many calls after the last event from elsewhere as the longest chain of
triggers has links.
-/

namespace NexusMainframe

open EventBus (Bus CallsDue Delivering Dispatcher Listener System called due processed published)
open ITask (Ending)

/-- The listener of a trigger, or none when the scheduler executes a task. -/
abbrev Pipeline.Caller (τ κ : Type) : Type :=
  Option (Listener (Callback (ITask τ) κ))

/-- Where the main thread is in a task: in the other code that it comes down to, or in front of
the completion events that it publishes then. -/
inductive Pipeline.Running (τ κ : Type) where
  | code (caller : Pipeline.Caller τ κ) (task : ITask τ)
  | publishing (completions : List Bytes) (ending : Ending)

/-- An execution of a task, and how its other code has ended. -/
structure Pipeline.Execution (τ κ : Type) where
  caller : Pipeline.Caller τ κ
  task : ITask τ
  ending : Ending

/-- The event bus, the task that the main thread is in, and the executions so far. -/
structure Pipeline (τ κ : Type) where
  system : System (Callback (ITask τ) κ) EventData
  running : Option (Pipeline.Running τ κ)
  executed : List (Pipeline.Execution τ κ)

namespace Pipeline

variable {τ κ : Type}

/-- Nothing has been constructed, subscribed or published. -/
def init : Pipeline τ κ where
  system := .init
  running := none
  executed := []

/-- The steps: the construction of triggers, calls of other code, and the steps of the main
thread. -/
inductive Act (τ κ : Type) where
  | construct (eventName : Bytes) (task : ITask τ)
  | subscribe (eventName : Bytes) (cb : κ)
  | unsubscribe (eventName : Bytes) (id : Int)
  | publish (event : Event EventData)
  | shutdown
  | execute (task : ITask τ)
  | dispatchPending
  | process
  | call
  | finish (threw : Bool)
  | pop
  | leave
  | ends (ending : Ending)
  | complete
  | returns
deriving DecidableEq

/-- What a callback of the bus begins. -/
def begin (l : Listener (Callback (ITask τ) κ)) : Option (Running τ κ) :=
  match l.cb with
  | .task task => some (.code (some l) task)
  | .other _ => none

/-- A step of the bus. -/
def onBus (s : Pipeline τ κ) (a : EventBus.Act (Callback (ITask τ) κ) EventData) :
    Option (Pipeline τ κ) :=
  (s.system.step a).map fun system => { s with system := system }

/-- A step of the bus that the main thread takes. -/
def onMain (s : Pipeline τ κ) (a : EventBus.Act (Callback (ITask τ) κ) EventData) :
    Option (Pipeline τ κ) :=
  if s.running.isNone then s.onBus a else none

/-- One step. An exception that leaves a trigger's task is caught by the bus; one that leaves a
task of the scheduler ends the tick. -/
def step (s : Pipeline τ κ) : Act τ κ → Option (Pipeline τ κ)
  | .construct eventName task => s.onBus (.subscribe eventName (.task task))
  | .subscribe eventName cb => s.onBus (.subscribe eventName (.other cb))
  | .unsubscribe eventName id => s.onBus (.unsubscribe eventName id)
  | .publish event => s.onBus (.publish event)
  | .shutdown => s.onBus .shutdown
  | .execute task =>
      match s.running, s.system.dispatcher with
      | none, .idle => some { s with running := some (.code none task) }
      | _, _ => none
  | .dispatchPending => s.onMain .dispatchPending
  | .process => s.onMain .process
  | .call =>
      match s.running, s.system.dispatcher with
      | none, .calling _ (l :: _) _ _ => { s with running := begin l }.onBus .call
      | _, _ => none
  | .finish threw => s.onMain (.finish threw)
  | .pop => s.onMain .pop
  | .leave => s.onMain .leave
  | .ends ending =>
      match s.running with
      | some (.code caller task) =>
          some { s with
            running := some (.publishing (task.execute ending).1 (task.execute ending).2)
            executed := s.executed ++ [⟨caller, task, ending⟩] }
      | _ => none
  | .complete =>
      match s.running with
      | some (.publishing (completionEvent :: completions) ending) =>
          { s with running := some (.publishing completions ending) }.onBus
            (.publish ⟨completionEvent, .empty⟩)
      | _ => none
  | .returns =>
      match s.running, s.system.dispatcher with
      | some (.publishing [] _), .idle => some { s with running := none }
      | some (.publishing [] ending), _ =>
          { s with running := none }.onBus (.finish (decide (ending ≠ Ending.returned)))
      | _, _ => none

/-! ### Reading a run -/

/-- The events that other code publishes, in order. -/
def outside (acts : List (Act τ κ)) : List (Event EventData) :=
  acts.filterMap fun
    | .publish event => some event
    | _ => none

/-- The tasks that the scheduler executes, in order. -/
def scheduled (acts : List (Act τ κ)) : List (ITask τ) :=
  acts.filterMap fun
    | .execute task => some task
    | _ => none

/-- The events that an execution publishes. -/
def Execution.completions (x : Execution τ κ) : List (Event EventData) :=
  (x.task.execute x.ending).1.map fun completionEvent => ⟨completionEvent, .empty⟩

/-- Who has executed which task. -/
def starts (executed : List (Execution τ κ)) : List (Caller τ κ × ITask τ) :=
  executed.map fun x => (x.caller, x.task)

/-- The task that a listener executes, if it is one of a trigger. -/
def trigger? (l : Listener (Callback (ITask τ) κ)) : Option (Caller τ κ × ITask τ) :=
  match l.cb with
  | .task task => some (some l, task)
  | .other _ => none

/-- All that the tasks and other code have begun has come to its end: no event waits, every event
has been processed, each trigger has executed its task once for every event of its name that was
processed while it was there, the scheduler has executed what it was to, and what has been published
are the events of other code and the completion events of the executions. -/
structure Settled (acts : List (Act τ κ)) (s : Pipeline τ κ) : Prop where
  queue : s.system.bus.eventQueue = []
  processed : processed s.system.trace = published s.system.trace
  triggered : (starts s.executed).filter (·.1.isSome) = (due s.system.trace).filterMap trigger?
  scheduled : (starts s.executed).filter (·.1.isNone)
    = (scheduled acts).map fun task => (none, task)
  published : (published s.system.trace).Perm
    (outside acts ++ s.executed.flatMap Execution.completions)

/-! ### Steps -/

/-- What code does to the bus that is not in the main loop. -/
def Act.elsewhere : Act τ κ → Option (EventBus.Act (Callback (ITask τ) κ) EventData)
  | .construct eventName task => some (.subscribe eventName (.task task))
  | .subscribe eventName cb => some (.subscribe eventName (.other cb))
  | .unsubscribe eventName id => some (.unsubscribe eventName id)
  | .publish event => some (.publish event)
  | .shutdown => some .shutdown
  | _ => none

/-- What the main thread does to the bus, outside of tasks. -/
def Act.main : Act τ κ → Option (EventBus.Act (Callback (ITask τ) κ) EventData)
  | .dispatchPending => some .dispatchPending
  | .process => some .process
  | .finish threw => some (.finish threw)
  | .pop => some .pop
  | .leave => some .leave
  | _ => none

/-- The steps, each with the state it is taken in. -/
inductive Step : Pipeline τ κ → Act τ κ → Pipeline τ κ → Prop where
  | elsewhere {system u running executed a b} (label : a.elsewhere = some b)
      (h : EventBus.Step system b u) :
      Step ⟨system, running, executed⟩ a ⟨u, running, executed⟩
  | main {system u executed a b} (label : a.main = some b) (h : EventBus.Step system b u) :
      Step ⟨system, none, executed⟩ a ⟨u, none, executed⟩
  | execute {b tr executed} (task : ITask τ) :
      Step ⟨⟨b, .idle, tr⟩, none, executed⟩ (.execute task)
        ⟨⟨b, .idle, tr⟩, some (.code none task), executed⟩
  | call {b tr executed event l ls temp} :
      Step ⟨⟨b, .calling event (l :: ls) false temp, tr⟩, none, executed⟩ .call
        ⟨⟨b, .calling event ls true temp, tr ++ [.called l]⟩, begin l, executed⟩
  | ends {system caller task executed} (ending : Ending) :
      Step ⟨system, some (.code caller task), executed⟩ (.ends ending)
        ⟨system, some (.publishing (task.execute ending).1 (task.execute ending).2),
          executed ++ [⟨caller, task, ending⟩]⟩
  | complete {system u c cs ending executed}
      (h : EventBus.Step system (.publish ⟨c, .empty⟩) u) :
      Step ⟨system, some (.publishing (c :: cs) ending), executed⟩ .complete
        ⟨u, some (.publishing cs ending), executed⟩
  | returnsToTick {b tr ending executed} :
      Step ⟨⟨b, .idle, tr⟩, some (.publishing [] ending), executed⟩ .returns
        ⟨⟨b, .idle, tr⟩, none, executed⟩
  | returnsToBus {system u ending threw executed} (h : EventBus.Step system (.finish threw) u) :
      Step ⟨system, some (.publishing [] ending), executed⟩ .returns ⟨u, none, executed⟩

theorem exists_of_onBus
    {s t : Pipeline τ κ} {a : EventBus.Act (Callback (ITask τ) κ) EventData}
    (h : s.onBus a = some t) :
  ∃ u, EventBus.Step s.system a u ∧ t = ⟨u, s.running, s.executed⟩
  := by
  obtain ⟨u, hu, rfl⟩ := Option.map_eq_some_iff.mp h
  exact ⟨u, EventBus.Step.of_step hu, rfl⟩

theorem exists_of_onMain
    {s t : Pipeline τ κ} {a : EventBus.Act (Callback (ITask τ) κ) EventData}
    (h : s.onMain a = some t) :
  s.running = none ∧ ∃ u, EventBus.Step s.system a u ∧ t = ⟨u, none, s.executed⟩
  := by
  rw [onMain] at h
  split at h
  next hfree =>
    have hnone := Option.isNone_iff_eq_none.mp hfree
    use hnone
    rw [← hnone]
    exact exists_of_onBus h
  next => cases h

/-- What `step` does is one of the steps. -/
theorem Step.of_step
    {s t : Pipeline τ κ} {a : Act τ κ} (h : s.step a = some t) :
  Step s a t
  := by
  obtain ⟨system, running, executed⟩ := s
  cases a with
  | construct | subscribe | unsubscribe | publish | shutdown =>
      obtain ⟨u, hu, rfl⟩ := exists_of_onBus h
      exact .elsewhere rfl hu
  | dispatchPending | process | finish | pop | leave =>
      obtain ⟨rfl, u, hu, rfl⟩ := exists_of_onMain h
      exact .main rfl hu
  | execute task =>
      obtain ⟨b, d, tr⟩ := system
      simp only [step] at h
      split at h
      next =>
        obtain rfl := Option.some.inj h
        exact .execute task
      next => cases h
  | call =>
      obtain ⟨b, d, tr⟩ := system
      simp only [step] at h
      split at h
      next =>
        obtain ⟨u, hu, rfl⟩ := exists_of_onBus h
        cases hu
        exact .call
      next => cases h
  | ends ending =>
      simp only [step] at h
      split at h
      next =>
        obtain rfl := Option.some.inj h
        exact .ends ending
      next => cases h
  | complete =>
      simp only [step] at h
      split at h
      next =>
        obtain ⟨u, hu, rfl⟩ := exists_of_onBus h
        exact .complete hu
      next => cases h
  | returns =>
      obtain ⟨b, d, tr⟩ := system
      simp only [step] at h
      split at h
      next =>
        obtain rfl := Option.some.inj h
        exact .returnsToTick
      next =>
        obtain ⟨u, hu, rfl⟩ := exists_of_onBus h
        exact .returnsToBus hu
      next => cases h

/-- On the bus, a step is none or one of the bus. -/
theorem Step.onBus
    {s t : Pipeline τ κ} {a : Act τ κ} (h : Step s a t) :
  t.system = s.system ∨ ∃ b, EventBus.Step s.system b t.system ∧ (b = .shutdown → a = .shutdown)
  := by
  cases h with
  | @elsewhere _ _ _ _ a b label h =>
      right
      use b, h
      rintro rfl
      cases a <;> simp [Act.elsewhere] at label ⊢
  | @main _ _ _ a b label h =>
      right
      use b, h
      rintro rfl
      cases a <;> simp [Act.main] at label
  | call =>
      right
      exact ⟨.call, .call _ _ _ _, by simp⟩
  | complete h | returnsToBus h =>
      right
      exact ⟨_, h, by simp⟩
  | execute | ends | returnsToTick =>
      left
      rfl

/-! ### The account of a run -/

/-- The task whose other code is running, and who executes it. -/
def underway : Option (Running τ κ) → List (Caller τ κ × ITask τ)
  | some (.code caller task) => [(caller, task)]
  | _ => []

/-- The completion events that are still to be published. -/
def owed : Option (Running τ κ) → List (Event EventData)
  | some (.publishing completions _) => completions.map fun c => ⟨c, .empty⟩
  | _ => []

/-- What holds in every state of a run without shutdown. -/
structure Accounted (acts : List (Act τ κ)) (s : Pipeline τ κ) : Prop where
  delivering : Delivering s.system
  calls : CallsDue s.system
  triggered : (starts s.executed ++ underway s.running).filter (·.1.isSome)
    = (called s.system.trace).filterMap trigger?
  scheduled : (starts s.executed ++ underway s.running).filter (·.1.isNone)
    = (scheduled acts).map fun task => (none, task)
  published : (published s.system.trace ++ owed s.running).Perm
    (outside acts ++ s.executed.flatMap Execution.completions)

theorem perm_insert
    {α : Type} {xs ys xs' ys' : List α} (x : α) (h : (xs ++ ys).Perm (xs' ++ ys')) :
  (xs ++ [x] ++ ys).Perm (xs' ++ [x] ++ ys')
  := by
  rw [List.append_assoc, List.append_assoc, List.singleton_append, List.singleton_append]
  calc List.Perm (xs ++ x :: ys) (x :: (xs ++ ys)) := List.perm_middle
    List.Perm _ (x :: (xs' ++ ys')) := h.cons x
    List.Perm _ (xs' ++ x :: ys') := List.perm_middle.symm

namespace Accounted

variable {acts : List (Act τ κ)} {s t : Pipeline τ κ} {a : Act τ κ}

theorem init :
  Accounted [] (Pipeline.init : Pipeline τ κ)
  := by
  constructor
  · exact Delivering.init
  · rfl
  · rfl
  · rfl
  · exact List.Perm.nil

theorem delivering_step (h : Accounted acts s) (ha : a ≠ .shutdown) (hstep : Step s a t) :
  Delivering t.system
  := by
  rcases hstep.onBus with heq | ⟨b, hb, hshutdown⟩
  · rw [heq]
    exact h.delivering
  · exact h.delivering.step (fun hb => ha (hshutdown hb)) hb

theorem calls_step (h : Accounted acts s) (hstep : Step s a t) :
  CallsDue t.system
  := by
  rcases hstep.onBus with heq | ⟨b, hb, -⟩
  · rw [heq]
    exact h.calls
  · exact h.calls.step h.delivering.table hb

theorem triggered_step (h : Accounted acts s) (hstep : Step s a t) :
  (starts t.executed ++ underway t.running).filter (·.1.isSome)
    = (called t.system.trace).filterMap trigger?
  := by
  have htriggered := h.triggered
  cases hstep with
  | @elsewhere _ _ _ _ a b label hbus =>
      rw [hbus.called_eq]
      · exact htriggered
      · rintro rfl
        cases a <;> simp [Act.elsewhere] at label
  | @main _ _ _ a b label hbus =>
      rw [hbus.called_eq]
      · exact htriggered
      · rintro rfl
        cases a <;> simp [Act.main] at label
  | complete hbus =>
      rw [hbus.called_eq (by simp)]
      exact htriggered
  | returnsToBus hbus =>
      rw [hbus.called_eq (by simp)]
      exact htriggered
  | execute task => simpa [underway] using htriggered
  | ends ending => simpa [underway, starts] using htriggered
  | returnsToTick => exact htriggered
  | @call b tr executed event l ls temp =>
      have hcalled : called (tr ++ [.called l]) = called tr ++ [l] := by
        simp [called, EventBus.Obs.calledListener]
      have htriggered : (starts executed ++ underway none).filter (·.1.isSome)
          = (called tr).filterMap trigger? := htriggered
      rw [hcalled, List.filterMap_append, ← htriggered]
      cases hcb : l.cb with
      | task task => simp [underway, begin, trigger?, hcb]
      | other cb => simp [underway, begin, trigger?, hcb]

theorem scheduled_step (h : Accounted acts s) (hstep : Step s a t) :
  (starts t.executed ++ underway t.running).filter (·.1.isNone)
    = (Pipeline.scheduled (acts ++ [a])).map fun task => (none, task)
  := by
  have hscheduled := h.scheduled
  rw [Pipeline.scheduled, List.filterMap_append, List.map_append]
  change _ = (Pipeline.scheduled acts).map _ ++ _
  rw [← hscheduled]
  cases hstep with
  | elsewhere label hbus => cases a <;> simp [Act.elsewhere] at label ⊢
  | main label hbus => cases a <;> simp [Act.main] at label ⊢
  | complete | returnsToBus | returnsToTick => simp [underway]
  | execute task => simp [underway]
  | ends ending => simp [underway, starts]
  | @call b tr executed event l ls temp =>
      cases hcb : l.cb with
      | task task => simp [underway, begin, hcb]
      | other cb => simp [underway, begin, hcb]

theorem outside_eq (label : a.elsewhere = none) :
  outside (acts ++ [a]) = outside acts
  := by
  rw [outside, List.filterMap_append]
  cases a <;> simp [Act.elsewhere, outside] at label ⊢

theorem published_step (h : Accounted acts s) (ha : a ≠ .shutdown) (hstep : Step s a t) :
  (EventBus.published t.system.trace ++ owed t.running).Perm
    (outside (acts ++ [a]) ++ t.executed.flatMap Execution.completions)
  := by
  have hpublished := h.published
  have hactive := h.delivering.active
  cases hstep with
  | @elsewhere _ _ _ _ a b label hbus =>
      rw [outside, List.filterMap_append]
      change List.Perm _ (outside acts ++ _ ++ _)
      cases a with
      | publish event =>
          obtain rfl := Option.some.inj label
          rw [hbus.published_publish hactive]
          exact perm_insert event hpublished
      | shutdown => exact (ha rfl).elim
      | construct | subscribe | unsubscribe =>
          obtain rfl := Option.some.inj label
          rw [hbus.published_eq (by simp)]
          simpa using hpublished
      | _ => cases label
  | @main _ _ _ a b label hbus =>
      have hnot : ∀ event, b ≠ .publish event := by
        rintro event rfl
        cases a <;> simp [Act.main] at label
      rw [hbus.published_eq hnot, outside_eq (by cases a <;> first | rfl | cases label)]
      exact hpublished
  | execute task =>
      rw [outside_eq rfl]
      exact hpublished
  | @call b tr executed event l ls temp =>
      have hcalled : EventBus.published (tr ++ [.called l]) = EventBus.published tr := by
        simp [EventBus.Obs.publishedEvent]
      have howed : owed (begin l) = [] := by
        rw [begin]
        split <;> rfl
      rw [outside_eq rfl, hcalled, howed]
      exact hpublished
  | @ends system caller task executed ending =>
      rw [outside_eq rfl, List.flatMap_append, ← List.append_assoc]
      have hpublished : (EventBus.published system.trace ++ []).Perm _ := hpublished
      rw [List.append_nil] at hpublished
      simpa [owed, Execution.completions] using
        hpublished.append_right (Execution.completions ⟨caller, task, ending⟩)
  | @complete system u c cs ending executed hbus =>
      rw [outside_eq rfl, hbus.published_publish hactive, List.append_assoc]
      exact hpublished
  | returnsToTick =>
      rw [outside_eq rfl]
      exact hpublished
  | returnsToBus hbus =>
      rw [outside_eq rfl, hbus.published_eq (by simp)]
      exact hpublished

theorem step (h : Accounted acts s) (ha : a ≠ .shutdown) (hstep : Step s a t) :
  Accounted (acts ++ [a]) t
  := by
  constructor
  · exact h.delivering_step ha hstep
  · exact h.calls_step hstep
  · exact h.triggered_step hstep
  · exact h.scheduled_step hstep
  · exact h.published_step ha hstep

end Accounted

/-! ### How long it takes -/

/-- The code outside of the main loop publishes nothing, and the scheduler executes nothing. -/
def Act.Quiet : Act τ κ → Prop
  | .publish _ | .execute _ => False
  | _ => True

/-- How often a call of `dispatchPending` begins. -/
def rounds (acts : List (Act τ κ)) : Nat :=
  acts.countP fun
    | .dispatchPending => true
    | _ => false

/-- The main thread is neither in `dispatchPending` nor in a task. -/
def Free (s : Pipeline τ κ) : Prop :=
  s.system.dispatcher = .idle ∧ s.running = none

/-- Triggers lead from an event to events of smaller rank. -/
def Descends (rank : Bytes → Nat) (acts : List (Act τ κ)) : Prop :=
  ∀ eventName task, .construct eventName task ∈ acts →
    ∀ c ∈ task.completionEvents, rank c < rank eventName

/-- The completion events of a listener's task have smaller rank than `bound`. -/
def Leads (rank : Bytes → Nat) (bound : Nat) (l : Listener (Callback (ITask τ) κ)) : Prop :=
  ∀ task, l.cb = .task task → ∀ c ∈ task.completionEvents, rank c < bound

/-- The events that the task which is running may publish yet. -/
def prospects : Option (Running τ κ) → List Bytes
  | none => []
  | some (.code _ task) => task.completionEvents
  | some (.publishing completions _) => completions

/-- The triggers lead to events of smaller rank. -/
def TableLeads (rank : Bytes → Nat) (s : Pipeline τ κ) : Prop :=
  ∀ eventName, ∀ l ∈ s.system.bus.listenersOf eventName, Leads rank (rank eventName) l

/-- All ranks are below `k`, and after `j` rounds those of the events that wait below `k - j`. -/
structure Ranked (rank : Bytes → Nat) (k j : Nat) (s : Pipeline τ κ) : Prop where
  table : TableLeads rank s
  queue : ∀ event ∈ s.system.bus.eventQueue, rank event.name + j < k
  pending : ∀ event ∈ s.system.dispatcher.pending, rank event.name + j ≤ k
  callbacks : ∀ l ∈ s.system.dispatcher.callbacks, Leads rank (k - j) l
  running : ∀ c ∈ prospects s.running, rank c + j < k

section

variable {rank : Bytes → Nat} {acts : List (Act τ κ)} {s t : Pipeline τ κ} {a : Act τ κ}

/-- The listeners after a step of the bus are old ones, or the new one of a subscription. -/
theorem listeners_of_step
    {system u : System (Callback (ITask τ) κ) EventData}
    {b : EventBus.Act (Callback (ITask τ) κ) EventData}
    (h : EventBus.Step system b u) {name : Bytes} {l : Listener (Callback (ITask τ) κ)}
    (hl : l ∈ u.bus.listenersOf name) :
  l ∈ system.bus.listenersOf name ∨ b = .subscribe name l.cb
  := by
  cases h with
  | subscribe eventName cb active =>
      rcases (Bus.mem_listenersOf_subscribe active).mp hl with hl | ⟨rfl, rfl⟩
      · left
        exact hl
      · right
        rfl
  | unsubscribe eventName id =>
      left
      exact (Bus.mem_listenersOf_unsubscribe.mp hl).1
  | publish event =>
      left
      simpa using hl
  | shutdown => simp at hl
  | subscribeRefused | publishRefused | dispatchPending | dispatchSkipped | process | call
  | finish | pop | leave =>
      left
      exact hl

theorem TableLeads.step
    (h : TableLeads rank s) (hstep : Step s a t)
    (hdescends : ∀ eventName task, a = .construct eventName task →
      ∀ c ∈ task.completionEvents, rank c < rank eventName) :
  TableLeads rank t
  := by
  intro name l hl task hcb
  have hbus : l ∈ s.system.bus.listenersOf name ∨ a = .construct name task := by
    cases hstep with
    | @elsewhere _ _ _ _ a b label hbus =>
        refine (listeners_of_step hbus hl).imp id fun hb => ?_
        rw [hcb] at hb
        subst hb
        cases a <;> simp_all [Act.elsewhere]
    | @main _ _ _ a b label hbus =>
        refine (listeners_of_step hbus hl).imp id fun hb => ?_
        subst hb
        cases a <;> cases label
    | complete hbus | returnsToBus hbus =>
        refine (listeners_of_step hbus hl).imp id fun hb => ?_
        cases hb
    | execute | ends | returnsToTick | call =>
        left
        exact hl
  rcases hbus with hl | ha
  · exact h name l hl task hcb
  · exact hdescends name task ha

theorem Leads.mono
    {bound bound' : Nat} {l : Listener (Callback (ITask τ) κ)} (h : Leads rank bound l)
    (hle : bound ≤ bound') :
  Leads rank bound' l
  := fun task hcb c hc => lt_of_lt_of_le (h task hcb c hc) hle

/-- A step of the main thread on the bus, outside of tasks. -/
theorem Ranked.main
    {system u : System (Callback (ITask τ) κ) EventData} {executed : List (Execution τ κ)}
    {k j : Nat} {b : EventBus.Act (Callback (ITask τ) κ) EventData} (label : a.main = some b)
    (h : Ranked rank k j ⟨system, none, executed⟩) (hactive : system.bus.isShuttingDown = false)
    (hbus : EventBus.Step system b u) (htable : TableLeads rank ⟨u, none, executed⟩) :
  Ranked rank k (j + rounds [a]) ⟨u, none, executed⟩
  := by
  obtain ⟨-, hqueue, hpending, hcallbacks, -⟩ := h
  cases a with
  | dispatchPending =>
      obtain rfl := Option.some.inj label
      cases hbus with
      | dispatchSkipped down => cases hactive.symm.trans down
      | dispatchPending active =>
          constructor
          · exact htable
          · simp
          · exact hqueue
          · simp [Dispatcher.callbacks]
          · simp [prospects]
  | process =>
      obtain rfl := Option.some.inj label
      cases hbus with
      | process event temp =>
          have hle : rank event.name + j ≤ k := hpending event List.mem_cons_self
          constructor
          · exact htable
          · exact hqueue
          · exact fun e he => hpending e (List.mem_cons_of_mem _ he)
          · intro l hl
            exact (htable event.name l hl).mono (Nat.le_sub_of_add_le hle)
          · simp [prospects]
  | finish | pop | leave =>
      obtain rfl := Option.some.inj label
      cases hbus
      exact ⟨htable, hqueue, hpending, hcallbacks, by simp [prospects]⟩
  | _ => cases label

/-- A quiet step adds no event of too large a rank, and a round lowers the ranks. -/
theorem Ranked.step
    {k j : Nat} (h : Ranked rank k j s) (hactive : s.system.bus.isShuttingDown = false)
    (hquiet : a.Quiet) (hstep : Step s a t)
    (hdescends : ∀ eventName task, a = .construct eventName task →
      ∀ c ∈ task.completionEvents, rank c < rank eventName) :
  Ranked rank k (j + rounds [a]) t
  := by
  have htable := h.table.step hstep hdescends
  cases hstep with
  | @elsewhere system u running executed a b label hbus =>
      obtain ⟨-, hqueue, hpending, hcallbacks, hrunning⟩ := h
      cases a with
      | publish event => exact hquiet.elim
      | shutdown =>
          obtain rfl := Option.some.inj label
          cases hbus
          exact ⟨htable, by simp [Bus.shutdown], hpending, hcallbacks, hrunning⟩
      | construct | subscribe | unsubscribe =>
          obtain rfl := Option.some.inj label
          cases hbus <;>
            exact ⟨htable, by simpa [rounds] using hqueue, hpending, hcallbacks, hrunning⟩
      | _ => cases label
  | main label hbus => exact h.main label hactive hbus htable
  | execute task => exact hquiet.elim
  | @call b tr executed event l ls temp =>
      obtain ⟨-, hqueue, hpending, hcallbacks, -⟩ := h
      refine ⟨htable, hqueue, hpending,
        fun l' hl' => hcallbacks l' (List.mem_cons_of_mem _ hl'), ?_⟩
      intro c hc
      rw [begin] at hc
      split at hc
      next task hcb =>
        have hlt := hcallbacks l List.mem_cons_self task hcb c hc
        change rank c + j < k
        omega
      next => cases hc
  | ends ending =>
      obtain ⟨-, hqueue, hpending, hcallbacks, hrunning⟩ := h
      exact ⟨htable, hqueue, hpending, hcallbacks,
        fun c hc => hrunning c (ITask.mem_completionEvents_of_mem_execute hc)⟩
  | @complete system u c cs ending executed hbus =>
      obtain ⟨-, hqueue, hpending, hcallbacks, hrunning⟩ := h
      cases hbus with
      | publishRefused _ down => cases hactive.symm.trans down
      | publish _ active =>
          refine ⟨htable, ?_, hpending, hcallbacks,
            fun c hc => hrunning c (List.mem_cons_of_mem _ hc)⟩
          intro e he
          rw [Bus.eventQueue_publish active, List.mem_append, List.mem_singleton] at he
          rcases he with he | rfl
          · exact hqueue e he
          · exact hrunning c List.mem_cons_self
  | returnsToTick =>
      obtain ⟨-, hqueue, hpending, hcallbacks, -⟩ := h
      exact ⟨htable, hqueue, hpending, hcallbacks, by simp [prospects]⟩
  | returnsToBus hbus =>
      obtain ⟨-, hqueue, hpending, hcallbacks, -⟩ := h
      cases hbus
      exact ⟨htable, hqueue, hpending, hcallbacks, by simp [prospects]⟩

end

/-! ### Runs -/

variable {before after acts : List (Act τ κ)} {s : Pipeline τ κ}

theorem accounted_of_run
    (h : Lts.run step init acts = some s) (hactive : .shutdown ∉ acts) :
  Accounted acts s
  := by
  apply Lts.run_induction (P := fun as s => .shutdown ∉ as → Accounted as s) _ _ h hactive
  · intro _
    exact Accounted.init
  · intro as t a u _ ih hstep hmem
    rw [List.mem_append, List.mem_singleton, not_or] at hmem
    exact (ih hmem.1).step (Ne.symm hmem.2) (Step.of_step hstep)

theorem tableLeads_of_run
    {rank : Bytes → Nat} (h : Lts.run step init acts = some s) (hdescends : Descends rank acts) :
  TableLeads rank s
  := by
  apply Lts.run_induction (P := fun as s => Descends rank as → TableLeads rank s) _ _ h hdescends
  · intro _ eventName l hl
    cases hl
  · intro as t a u _ ih hstep hdescends
    have htable := ih fun n task hmem => hdescends n task (List.mem_append_left _ hmem)
    apply htable.step (Step.of_step hstep)
    rintro n task rfl
    exact hdescends n task (List.mem_append_right _ List.mem_cons_self)

/-- Where all ranks are below `k` at first, those of the events that wait go down with every
round of a quiet time. -/
theorem ranked_of_run
    {rank : Bytes → Nat} {k : Nat} (hrank : ∀ name, rank name < k)
    (h : Lts.run step init (before ++ after) = some s) (hactive : .shutdown ∉ before ++ after)
    (hdescends : Descends rank (before ++ after)) (hquiet : ∀ a ∈ after, a.Quiet) :
  Ranked rank k (rounds after) s
  := by
  induction after using List.reverseRec generalizing s with
  | nil =>
      rw [List.append_nil] at h hdescends
      refine ⟨tableLeads_of_run h hdescends, fun e _ => hrank e.name, fun e _ => (hrank e.name).le,
        fun _ _ _ _ c _ => hrank c, fun c _ => hrank c⟩
  | append_singleton after a ih =>
      rw [← List.append_assoc] at h hactive hdescends
      obtain ⟨t, ht, hstep⟩ := Lts.run_concat.mp h
      rw [List.mem_append, not_or] at hactive
      have hdescends' : Descends rank (before ++ after) :=
        fun n task hmem => hdescends n task (List.mem_append_left _ hmem)
      have hranked := ih ht hactive.1 hdescends' fun a ha => hquiet a (List.mem_append_left _ ha)
      have hrounds : rounds (after ++ [a]) = rounds after + rounds [a] := List.countP_append
      rw [hrounds]
      apply hranked.step (accounted_of_run ht hactive.1).delivering.active
        (hquiet a (List.mem_append_right _ List.mem_cons_self)) (Step.of_step hstep)
      rintro n task rfl
      exact hdescends n task (List.mem_append_right _ List.mem_cons_self)

/-- When triggers lead from events to events of smaller rank, all ranks below `k`, and no event
comes from elsewhere during `k` calls of `dispatchPending`, everything has come to its end:
nothing is lost and nothing done twice, whatever fails and whatever other code does. -/
theorem settled_of_run
    {rank : Bytes → Nat} {k : Nat} (hrank : ∀ name, rank name < k)
    (h : Lts.run step init (before ++ after) = some s) (hactive : .shutdown ∉ before ++ after)
    (hdescends : Descends rank (before ++ after)) (hquiet : ∀ a ∈ after, a.Quiet)
    (hrounds : k ≤ rounds after) (hfree : s.Free) :
  Settled (before ++ after) s
  := by
  have hranked := ranked_of_run hrank h hactive hdescends hquiet
  have haccounted := accounted_of_run h hactive
  obtain ⟨hidle, hnone⟩ := hfree
  have hempty : s.system.bus.eventQueue = [] := by
    rw [List.eq_nil_iff_forall_not_mem]
    intro event hevent
    have hlt := hranked.queue event hevent
    omega
  have hcalls : called s.system.trace ++ s.system.dispatcher.callbacks = due s.system.trace :=
    haccounted.calls
  constructor
  · exact hempty
  · have hqueue := haccounted.delivering.queue
    rw [hempty, hidle] at hqueue
    simpa [Dispatcher.pending] using hqueue.symm
  · rw [← hcalls, hidle, ← List.append_nil (starts s.executed)]
    simpa [hnone, underway, Dispatcher.callbacks] using haccounted.triggered
  · simpa [hnone, underway] using haccounted.scheduled
  · simpa [hnone, owed] using haccounted.published

/-! ### A chain of tasks -/

/-- The task 0 runs on a schedule, the task 1 after it, and the task 2 when that ends well. -/
def chain : List (Act Nat Unit) :=
  [.construct [1] (.eventTask (.other 1) [2]), .construct [2] (.other 2),
    .execute (.eventTask (.other 0) [1]), .ends .returned, .complete, .returns]

/-- The task 1 fails. -/
def chainAfter : List (Act Nat Unit) :=
  [.dispatchPending, .process, .call, .ends (.threw (Bytes.ofAscii "no route")), .returns, .pop,
    .leave, .dispatchPending, .leave]

/-- The longest chains of triggers from an event. -/
def chainRank (name : Bytes) : Nat :=
  if name = [1] then 1 else 0

theorem chainRank_lt (name : Bytes) :
  chainRank name < 2
  := by
  rw [chainRank]
  split <;> decide

theorem descends_chain :
  Descends chainRank (chain ++ chainAfter)
  := by
  intro eventName task hmem c hc
  simp only [chain, chainAfter, List.cons_append, List.nil_append, List.mem_cons, reduceCtorEq,
    Act.construct.injEq, List.not_mem_nil, or_false] at hmem
  rcases hmem with ⟨rfl, rfl⟩ | ⟨rfl, rfl⟩
  · obtain rfl : c = [2] := by simpa [ITask.completionEvents] using hc
    decide
  · cases hc

theorem settled_of_run_chain :
  ∃ s, Lts.run step (init : Pipeline Nat Unit) (chain ++ chainAfter) = some s
    ∧ Settled (chain ++ chainAfter) s
  := by
  obtain ⟨s, hs, hfree⟩ : ∃ s,
      Lts.run step (init : Pipeline Nat Unit) (chain ++ chainAfter) = some s ∧ s.Free :=
    ⟨_, rfl, rfl, rfl⟩
  use s, hs
  apply settled_of_run chainRank_lt hs (by decide) descends_chain _ (by decide) hfree
  simp [chainAfter, Act.Quiet]

end Pipeline

end NexusMainframe
