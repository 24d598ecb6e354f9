import NexusMainframe.Event.EventBus
import Mathlib.Data.List.TakeWhile

/-!
# Delivery of events

What the event bus promises, as a property of traces. `published`, `processed` and
`calls` read the events and the invocations off a trace, and `registered` the listeners
of a name, in the order of their subscription. A trace of a bus that is not shut down has
the property `Delivery`: events are processed in the order of their publication, each
once; an event calls the listeners registered for its name when it is processed, each
once and in order, whichever of them throw; and a call of `dispatchPending` processes
exactly the events that were published before it and not yet processed.
-/

namespace NexusMainframe

namespace EventBus

variable {κ δ : Type}

/-! ### Reading a trace -/

namespace Obs

/-- The event that was published in a step. -/
def publishedEvent : Obs κ δ → Option (Event δ)
  | published event => some event
  | _ => none

/-- The event whose listeners have all been called in a step. -/
def processedEvent : Obs κ δ → Option (Event δ)
  | processed event => some event
  | _ => none

/-- The listener that was called in a step. -/
def calledListener : Obs κ δ → Option (Listener κ)
  | called l => some l
  | _ => none

/-- Whether an observation ends the processing of an event. -/
def endsProcessing : Obs κ δ → Bool
  | processed _ => true
  | ended => true
  | _ => false

/-- The effect of an observation on the listeners of an event name. -/
def register (eventName : Bytes) (ls : List (Listener κ)) : Obs κ δ → List (Listener κ)
  | subscribed other l => if other = eventName then ls ++ [l] else ls
  | unsubscribed other id => if other = eventName then ls.filter fun l => l.id ≠ id else ls
  | shutDown => []
  | _ => ls

end Obs

/-- The events published in a trace, in order. -/
def published (tr : List (Obs κ δ)) : List (Event δ) :=
  tr.filterMap Obs.publishedEvent

/-- The events processed in a trace, in order. -/
def processed (tr : List (Obs κ δ)) : List (Event δ) :=
  tr.filterMap Obs.processedEvent

/-- The listeners registered for an event name at the end of a trace, in the order of
their subscription. -/
def registered (tr : List (Obs κ δ)) (eventName : Bytes) : List (Listener κ) :=
  tr.foldl (Obs.register eventName) []

/-- The listeners called for the event whose processing a trace continues. -/
def calls (tr : List (Obs κ δ)) : List (Listener κ) :=
  (tr.takeWhile fun o => !o.endsProcessing).filterMap Obs.calledListener

/-- The processing of the event that a trace continues has ended within it. -/
def Completed (tr : List (Obs κ δ)) : Prop :=
  ∃ o ∈ tr, o.endsProcessing = true

/-- The promise of the bus about its traces. -/
structure Delivery (tr : List (Obs κ δ)) : Prop where
  /-- Events are processed in the order of their publication, each at most once. -/
  inOrder : processed tr <+: published tr
  /-- An event calls listeners registered for its name at that moment, in order. -/
  callsInOrder : ∀ pre event post, tr = pre ++ .processed event :: post →
    calls post <+: registered pre event.name
  /-- An event whose processing has ended has called all of them. -/
  callsAll : ∀ pre event post, tr = pre ++ .processed event :: post → Completed post →
    calls post = registered pre event.name
  /-- A call of `dispatchPending` processes no event published during it. -/
  noneEarly : ∀ pre mid post, tr = pre ++ .began :: (mid ++ post) → .ended ∉ mid →
    processed pre ++ processed mid <+: published pre
  /-- A call that has ended has processed all the events published before it. -/
  noneLost : ∀ pre mid post, tr = pre ++ .began :: (mid ++ .ended :: post) → .ended ∉ mid →
    processed pre ++ processed mid = published pre

@[simp]
theorem published_concat (tr : List (Obs κ δ)) (o : Obs κ δ) :
  published (tr ++ [o]) = published tr ++ o.publishedEvent.toList
  := by
  cases h : o.publishedEvent <;> simp [published, h]

@[simp]
theorem processed_concat (tr : List (Obs κ δ)) (o : Obs κ δ) :
  processed (tr ++ [o]) = processed tr ++ o.processedEvent.toList
  := by
  cases h : o.processedEvent <;> simp [processed, h]

@[simp]
theorem registered_concat (tr : List (Obs κ δ)) (o : Obs κ δ) (eventName : Bytes) :
  registered (tr ++ [o]) eventName = o.register eventName (registered tr eventName)
  := by
  simp [registered]

/-- While an event is being processed its calls grow with the trace. -/
theorem calls_concat
    {tr : List (Obs κ δ)} (h : ¬ Completed tr) (o : Obs κ δ) :
  calls (tr ++ [o]) = if o.endsProcessing then calls tr else calls tr ++ o.calledListener.toList
  := by
  have hall : ∀ x ∈ tr, (!x.endsProcessing) = true := by
    intro x hx
    cases hend : x.endsProcessing with
    | false => rfl
    | true => exact absurd ⟨x, hx, hend⟩ h
  have htr := List.takeWhile_eq_self_iff.mpr hall
  rw [calls, calls, List.takeWhile_append_of_pos hall, htr]
  cases hend : o.endsProcessing with
  | false => cases hcall : o.calledListener <;> simp [hend, hcall]
  | true => simp [hend]

/-- The calls of an event stay as they are once its processing has ended. -/
theorem calls_concat_of_completed
    {tr : List (Obs κ δ)} (h : Completed tr) (o : Obs κ δ) :
  calls (tr ++ [o]) = calls tr
  := by
  obtain ⟨x, hx, hend⟩ := h
  obtain ⟨pre, post, rfl⟩ := List.append_of_mem hx
  have hcut : ∀ suffix : List (Obs κ δ),
      (pre ++ x :: suffix).takeWhile (fun o => !o.endsProcessing)
        = pre.takeWhile (fun o => !o.endsProcessing) := by
    intro suffix
    induction pre with
    | nil => simp [hend]
    | cons y pre ih =>
        cases hy : y.endsProcessing with
        | false => simp [hy, ih (by simp)]
        | true => simp [hy]
  rw [calls, calls, List.append_assoc, List.cons_append, hcut, hcut]

theorem completed_concat {tr : List (Obs κ δ)} {o : Obs κ δ} :
  Completed (tr ++ [o]) ↔ Completed tr ∨ o.endsProcessing = true
  := by
  simp [Completed, or_and_right, exists_or]

/-! ### The table of listeners -/

/-- The table of a bus holds the listeners that the trace of its system registers. -/
def TableAgrees (s : System κ δ) : Prop :=
  ∀ eventName, s.bus.listenersOf eventName = registered s.trace eventName

theorem TableAgrees.step
    {s t : System κ δ} {a : Act κ δ} (h : TableAgrees s) (hstep : Step s a t) :
  TableAgrees t
  := by
  intro eventName
  cases hstep with
  | subscribe other cb active =>
      simp [Bus.listenersOf_subscribe active, Obs.register, ← h eventName]
  | unsubscribe other id =>
      simp [Bus.listenersOf_unsubscribe, Obs.register, ← h eventName]
  | publish event active => simpa [Obs.register] using h eventName
  | shutdown => simp [Obs.register]
  | subscribeRefused | publishRefused | dispatchSkipped | pop => apply h eventName
  | dispatchPending =>
      rw [registered_concat]
      apply h eventName
  | process | call | finish | leave => simpa [Obs.register] using h eventName

/-! ### The dispatching thread -/

/-- What a trace says when the dispatching thread is at `d`. -/
structure Progress (tr : List (Obs κ δ)) (d : Dispatcher κ δ) : Prop where
  /-- The listeners of the event in progress are those called and those still copied. -/
  current : ∀ pre event post, tr = pre ++ .processed event :: post → ¬ Completed post →
    registered pre event.name = calls post ++ d.callbacks
  completed : ∀ pre event post, tr = pre ++ .processed event :: post → Completed post →
    calls post = registered pre event.name
  /-- The events of the call in progress are those processed and those pending. -/
  batch : ∀ pre mid, tr = pre ++ .began :: mid → .ended ∉ mid →
    published pre = processed pre ++ processed mid ++ d.pending
  batches : ∀ pre mid post, tr = pre ++ .began :: (mid ++ .ended :: post) → .ended ∉ mid →
    processed pre ++ processed mid = published pre
  idle : d = .idle → ∀ pre mid, tr = pre ++ .began :: mid → .ended ∈ mid

/-- How an observation moves the dispatching thread from `d` to `d'` after the trace
`tr`: a call takes the first copied callback, processing an event takes the first pending
event and copies the listeners of its name, and a call of `dispatchPending` starts from
outside with what is published and not processed and ends when nothing is left. -/
structure Moves (tr : List (Obs κ δ)) (d : Dispatcher κ δ) (o : Obs κ δ)
    (d' : Dispatcher κ δ) : Prop where
  callbacks : o.endsProcessing = false → d.callbacks = o.calledListener.toList ++ d'.callbacks
  noCallbacks : o.endsProcessing = true → d.callbacks = []
  copies : ∀ event, o = .processed event → d'.callbacks = registered tr event.name
  pending : o ≠ .began → d.pending = o.processedEvent.toList ++ d'.pending
  began : o = .began → d = .idle ∧ published tr = processed tr ++ d'.pending
  ended : o = .ended → d' = .idle
  idle : d' = .idle → o = .ended ∨ d = .idle ∧ o ≠ .began

namespace Progress

variable {tr : List (Obs κ δ)} {d d' : Dispatcher κ δ}

theorem init :
  Progress ([] : List (Obs κ δ)) .idle
  := by
  constructor <;> simp

theorem current_concat
    (h : Progress tr d) {o : Obs κ δ} (hm : Moves tr d o d') (pre : List (Obs κ δ))
    (event : Event δ) (post : List (Obs κ δ)) (htr : tr ++ [o] = pre ++ .processed event :: post)
    (hopen : ¬ Completed post) :
  registered pre event.name = calls post ++ d'.callbacks
  := by
  rcases Lts.concat_eq_append_cons.mp htr with ⟨rfl, rfl, ho⟩ | ⟨post, rfl, rfl⟩
  · rw [hm.copies event ho.symm]
    rfl
  · rw [completed_concat, not_or, Bool.not_eq_true] at hopen
    rw [calls_concat hopen.1, hopen.2, h.current _ _ _ rfl hopen.1, hm.callbacks hopen.2]
    simp

theorem completed_concat
    (h : Progress tr d) {o : Obs κ δ} (hm : Moves tr d o d') (pre : List (Obs κ δ))
    (event : Event δ) (post : List (Obs κ δ)) (htr : tr ++ [o] = pre ++ .processed event :: post)
    (hdone : Completed post) :
  calls post = registered pre event.name
  := by
  rcases Lts.concat_eq_append_cons.mp htr with ⟨rfl, -, -⟩ | ⟨post, rfl, rfl⟩
  · simp [Completed] at hdone
  · by_cases hdone' : Completed post
    · rw [calls_concat_of_completed hdone']
      apply h.completed _ _ _ rfl hdone'
    · have hends := (EventBus.completed_concat.mp hdone).resolve_left hdone'
      rw [calls_concat hdone', hends, h.current _ _ _ rfl hdone', hm.noCallbacks hends]
      simp

theorem batch_concat
    (h : Progress tr d) {o : Obs κ δ} (hm : Moves tr d o d') (pre mid : List (Obs κ δ))
    (htr : tr ++ [o] = pre ++ .began :: mid) (hmid : .ended ∉ mid) :
  published pre = processed pre ++ processed mid ++ d'.pending
  := by
  rcases Lts.concat_eq_append_cons.mp htr with ⟨rfl, rfl, ho⟩ | ⟨mid, rfl, rfl⟩
  · simpa [processed] using (hm.began ho.symm).2
  · have hmid' : .ended ∉ mid := fun hm => hmid (by simp [hm])
    have hbegan : o ≠ .began := by
      intro ho
      apply hmid' (h.idle (hm.began ho).1 _ _ rfl)
    rw [h.batch _ _ rfl hmid', hm.pending hbegan, processed_concat]
    simp

theorem batches_concat
    (h : Progress tr d) {o : Obs κ δ} (hm : Moves tr d o d') (pre mid post : List (Obs κ δ))
    (htr : tr ++ [o] = pre ++ .began :: (mid ++ .ended :: post)) (hmid : .ended ∉ mid) :
  processed pre ++ processed mid = published pre
  := by
  rw [← List.cons_append, ← List.append_assoc] at htr
  rcases Lts.concat_eq_append_cons.mp htr with ⟨rfl, rfl, rfl⟩ | ⟨post, rfl, rfl⟩
  · have hpending := hm.pending (by simp)
    rw [hm.ended rfl] at hpending
    rw [h.batch pre mid rfl hmid, hpending]
    simp [Obs.processedEvent, Dispatcher.pending]
  · apply h.batches pre mid post (by simp) hmid

/-- What a trace says follows the dispatching thread as it moves. -/
theorem concat
    (h : Progress tr d) {o : Obs κ δ} (hm : Moves tr d o d') :
  Progress (tr ++ [o]) d'
  := by
  constructor
  · apply h.current_concat hm
  · apply h.completed_concat hm
  · apply h.batch_concat hm
  · apply h.batches_concat hm
  · intro hd pre mid htr
    rcases hm.idle hd with rfl | ⟨rfl, ho⟩
    · rcases Lts.concat_eq_append_cons.mp htr with ⟨-, -, hne⟩ | ⟨mid, rfl, rfl⟩
      · cases hne
      · simp
    · rcases Lts.concat_eq_append_cons.mp htr with ⟨-, -, hne⟩ | ⟨mid, rfl, rfl⟩
      · exact (ho hne.symm).elim
      · simp [h.idle rfl _ _ rfl]

/-- The moves of the dispatching thread that a trace does not show: from one event to the
next. -/
theorem pop
    {event : Event δ} {temp : List (Event δ)} (h : Progress tr (.calling event [] false temp)) :
  Progress tr (.draining temp)
  := by
  constructor
  · apply h.current
  · apply h.completed
  · apply h.batch
  · apply h.batches
  · intro hd
    cases hd

end Progress

/-! ### Runs without shutdown -/

/-- What holds in every state of a run without shutdown. -/
structure Delivering (s : System κ δ) : Prop where
  active : s.bus.isShuttingDown = false
  table : TableAgrees s
  queue : published s.trace = processed s.trace ++ s.dispatcher.pending ++ s.bus.eventQueue
  progress : Progress s.trace s.dispatcher

namespace Delivering

variable {s t : System κ δ} {a : Act κ δ}

theorem init :
  Delivering (System.init : System κ δ)
  := by
  constructor
  · rfl
  · intro eventName
    rfl
  · rfl
  · apply Progress.init

theorem active_step
    (h : Delivering s) (ha : a ≠ .shutdown) (hstep : Step s a t) :
  t.bus.isShuttingDown = false
  := by
  cases hstep with
  | shutdown => exact (ha rfl).elim
  | subscribe | unsubscribe | publish => simpa using h.active
  | subscribeRefused | publishRefused | dispatchSkipped => exact h.active
  | dispatchPending | process | call | finish | pop | leave => exact h.active

theorem queue_step
    (h : Delivering s) (ha : a ≠ .shutdown) (hstep : Step s a t) :
  published t.trace = processed t.trace ++ t.dispatcher.pending ++ t.bus.eventQueue
  := by
  have hqueue := h.queue
  cases hstep with
  | shutdown => exact (ha rfl).elim
  | publish event active =>
      simp_all [Bus.eventQueue_publish, Obs.publishedEvent, Obs.processedEvent]
  | subscribeRefused | publishRefused | dispatchSkipped => exact hqueue
  | subscribe | unsubscribe | dispatchPending | process | call | finish | pop | leave =>
      simp_all [Obs.publishedEvent, Obs.processedEvent, Dispatcher.pending]

theorem progress_step
    (h : Delivering s) (ha : a ≠ .shutdown) (hstep : Step s a t) :
  Progress t.trace t.dispatcher
  := by
  have hprogress := h.progress
  cases hstep with
  | shutdown => exact (ha rfl).elim
  | subscribe | unsubscribe | publish =>
      apply hprogress.concat
      constructor <;> simp [Obs.endsProcessing, Obs.calledListener, Obs.processedEvent]
  | subscribeRefused | publishRefused | dispatchSkipped => exact hprogress
  | dispatchPending =>
      have hqueue := h.queue
      apply hprogress.concat
      constructor <;>
        simp_all [Obs.endsProcessing, Obs.calledListener, Dispatcher.callbacks,
          Dispatcher.pending]
  | process event temp =>
      have htable := h.table event.name
      apply hprogress.concat
      constructor <;>
        simp_all [Obs.endsProcessing, Obs.processedEvent, Dispatcher.callbacks,
          Dispatcher.pending]
  | call | finish | leave =>
      apply hprogress.concat
      constructor <;>
        simp [Obs.endsProcessing, Obs.calledListener, Obs.processedEvent,
          Dispatcher.callbacks, Dispatcher.pending]
  | pop => apply hprogress.pop

theorem step
    (h : Delivering s) (ha : a ≠ .shutdown) (hstep : Step s a t) :
  Delivering t
  := by
  constructor
  · apply h.active_step ha hstep
  · apply h.table.step hstep
  · apply h.queue_step ha hstep
  · apply h.progress_step ha hstep

theorem delivers
    (h : Delivering s) :
  Delivery s.trace
  := by
  constructor
  · rw [h.queue, List.append_assoc]
    apply List.prefix_append
  · intro pre event post htr
    by_cases hdone : Completed post
    · rw [h.progress.completed _ _ _ htr hdone]
    · rw [h.progress.current _ _ _ htr hdone]
      apply List.prefix_append
  · apply h.progress.completed
  · intro pre mid post htr hmid
    by_cases hpost : .ended ∈ post
    · obtain ⟨post₁, post₂, rfl, hpost₁⟩ := List.eq_append_cons_of_mem hpost
      rw [← h.progress.batches pre (mid ++ post₁) post₂ (by simp [htr]) (by simp [hmid, hpost₁])]
      simp [processed]
    · rw [h.progress.batch pre (mid ++ post) htr (by simp [hmid, hpost])]
      simp [processed]
  · apply h.progress.batches

end Delivering

/-- Every run of the bus without shutdown delivers its events. -/
theorem delivery
    {as : List (Act κ δ)} {s : System κ δ} (h : Lts.run System.step .init as = some s)
    (hactive : .shutdown ∉ as) :
  Delivery s.trace
  := by
  have hrun : Delivering s := by
    apply Lts.run_induction (P := fun as s => .shutdown ∉ as → Delivering s) _ _ h hactive
    · intro _
      apply Delivering.init
    · intro as t a u _ ih hstep hmem
      rw [List.mem_append, List.mem_singleton, not_or] at hmem
      apply (ih hmem.1).step (Ne.symm hmem.2) (Step.of_step hstep)
  apply hrun.delivers

/-- Two listeners of one name, the first of which subscribes a third, publishes and
throws. -/
def throwingRun : List (Act Nat Nat) :=
  [.subscribe [1] 10, .subscribe [1] 11, .publish ⟨[1], 0⟩, .dispatchPending, .process,
    .call, .subscribe [1] 12, .publish ⟨[1], 1⟩, .finish true, .call, .finish false, .pop,
    .leave]

theorem delivery_throwingRun :
  ∃ s, Lts.run System.step .init throwingRun = some s ∧ Delivery s.trace
    ∧ s.bus.eventQueue = [⟨[1], 1⟩]
  := by
  obtain ⟨s, hs, hqueue⟩ : ∃ s, Lts.run System.step .init throwingRun = some s
      ∧ s.bus.eventQueue = [⟨[1], 1⟩] := ⟨_, rfl, rfl⟩
  use s, hs
  constructor
  · apply delivery hs
    decide
  · apply hqueue

/-! ### To the end of a call -/

section

variable {b : Bus κ δ}

/-- The callbacks of an event can be called one after the other. -/
theorem exists_run_calls
    (event : Event δ) (ls : List (Listener κ)) (temp : List (Event δ)) (tr : List (Obs κ δ)) :
  ∃ as tr', Lts.run System.step ⟨b, .calling event ls false temp, tr⟩ as
      = some ⟨b, .draining temp, tr'⟩
    ∧ processed tr' = processed tr
  := by
  induction ls generalizing tr with
  | nil => exact ⟨[.pop], tr, rfl, rfl⟩
  | cons l ls ih =>
      obtain ⟨as, tr', hrun, htr'⟩ := ih (tr ++ [.called l] ++ [.finished false])
      refine ⟨.call :: .finish false :: as, tr', hrun, ?_⟩
      rw [htr', processed_concat, processed_concat]
      simp [Obs.processedEvent]

/-- The events that have been taken out of the queue can be processed one after the other. -/
theorem exists_run_draining (temp : List (Event δ)) (tr : List (Obs κ δ)) :
  ∃ as tr', Lts.run System.step ⟨b, .draining temp, tr⟩ as = some ⟨b, .idle, tr'⟩
    ∧ processed tr' = processed tr ++ temp
  := by
  induction temp generalizing tr with
  | nil =>
      refine ⟨[.leave], tr ++ [.ended], rfl, ?_⟩
      rw [processed_concat]
      rfl
  | cons event temp ih =>
      obtain ⟨calls, tr', hcalls, htr'⟩ := exists_run_calls event (b.listenersOf event.name) temp
        (tr ++ [.processed event])
      obtain ⟨as, tr'', hrun, htr''⟩ := ih tr'
      refine ⟨.process :: (calls ++ as), tr'', ?_, ?_⟩
      · have hprocess : Lts.run System.step ⟨b, .draining (event :: temp), tr⟩
            (.process :: (calls ++ as)) = Lts.run System.step
              ⟨b, .calling event (b.listenersOf event.name) false temp, tr ++ [.processed event]⟩
              (calls ++ as) := rfl
        rw [hprocess, Lts.run_append, hcalls, Option.bind_some, hrun]
      · rw [htr'', htr', processed_concat]
        simp [Obs.processedEvent]

end

/-- A call of `dispatchPending` on an active bus can be carried to its end, and has then processed
what was in the queue when it began, in that order. -/
theorem exists_run_dispatchPending
    {s : System κ δ} (hactive : s.bus.isShuttingDown = false) (hidle : s.dispatcher = .idle) :
  ∃ as t, Lts.run System.step s (.dispatchPending :: as) = some t ∧ t.dispatcher = .idle
    ∧ processed t.trace = processed s.trace ++ s.bus.eventQueue
  := by
  obtain ⟨b, d, tr⟩ := s
  dsimp only at hactive hidle ⊢
  obtain ⟨as, tr', hrun, htr'⟩ := exists_run_draining (b := { b with eventQueue := [] })
    b.eventQueue (tr ++ [.began])
  refine ⟨as, ⟨{ b with eventQueue := [] }, .idle, tr'⟩, ?_, rfl, ?_⟩
  · have hbegin : Lts.run System.step ⟨b, d, tr⟩ (.dispatchPending :: as)
        = Lts.run System.step
          ⟨{ b with eventQueue := [] }, .draining b.eventQueue, tr ++ [.began]⟩ as := by
      simp only [Lts.run, System.step, hidle, hactive, Bool.false_eq_true, if_false,
        Option.bind_some]
    rw [hbegin, hrun]
  · rw [htr', processed_concat]
    simp [Obs.processedEvent]

end EventBus

end NexusMainframe
