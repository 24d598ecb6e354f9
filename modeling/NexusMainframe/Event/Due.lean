import NexusMainframe.Event.Delivery

/-!
# The calls that are due

For each event that is processed the listeners registered at that time are to be called, in
order. `due` puts them all in a row. At any time, what has been called and what waits in the
copies of the dispatching thread are what is due.
-/

namespace NexusMainframe

namespace EventBus

variable {κ δ : Type}

/-- The listeners registered for an event when it is processed. -/
def listenersAt (pre : List (Obs κ δ)) : Obs κ δ → List (Listener κ)
  | .processed event => registered pre event.name
  | _ => []

/-- The listeners that are to be called in a trace behind another one. -/
def dueAfter (pre : List (Obs κ δ)) : List (Obs κ δ) → List (Listener κ)
  | [] => []
  | o :: tr => listenersAt pre o ++ dueAfter (pre ++ [o]) tr

/-- The listeners that are to be called in a trace. -/
def due (tr : List (Obs κ δ)) : List (Listener κ) :=
  dueAfter [] tr

/-- The listeners called in a trace, in order. -/
def called (tr : List (Obs κ δ)) : List (Listener κ) :=
  tr.filterMap Obs.calledListener

theorem dueAfter_append (pre tr tr' : List (Obs κ δ)) :
  dueAfter pre (tr ++ tr') = dueAfter pre tr ++ dueAfter (pre ++ tr) tr'
  := by
  induction tr generalizing pre with
  | nil => simp [dueAfter]
  | cons o tr ih => simp [dueAfter, ih]

theorem due_concat (tr : List (Obs κ δ)) (o : Obs κ δ) :
  due (tr ++ [o]) = due tr ++ listenersAt tr o
  := by
  rw [due, dueAfter_append]
  simp [due, dueAfter]

/-- What has been called, and what waits to be called, is what is due. -/
def CallsDue (s : System κ δ) : Prop :=
  called s.trace ++ s.dispatcher.callbacks = due s.trace

variable {s t : System κ δ} {a : Act κ δ}

theorem CallsDue.step
    (h : CallsDue s) (htable : TableAgrees s) (hstep : Step s a t) :
  CallsDue t
  := by
  rw [CallsDue] at h ⊢
  cases hstep with
  | process event temp =>
      have hlisteners : _ = registered _ event.name := htable event.name
      rw [due_concat, ← h]
      simp [called, Obs.calledListener, Dispatcher.callbacks, listenersAt, hlisteners]
  | subscribeRefused | publishRefused | dispatchSkipped | pop => exact h
  | subscribe | unsubscribe | publish | shutdown | dispatchPending | call | finish | leave =>
      rw [due_concat, ← h]
      simp [called, Obs.calledListener, Dispatcher.callbacks, listenersAt]

/-- Steps other than those of `call` call nothing. -/
theorem Step.called_eq
    (h : Step s a t) (ha : a ≠ .call) :
  called t.trace = called s.trace
  := by
  cases h with
  | call => exact (ha rfl).elim
  | subscribeRefused | publishRefused | dispatchSkipped | pop => rfl
  | subscribe | unsubscribe | publish | shutdown | dispatchPending | process | finish | leave =>
      simp [called, Obs.calledListener]

/-- Steps other than those of `publish` publish nothing. -/
theorem Step.published_eq
    (h : Step s a t) (ha : ∀ event, a ≠ .publish event) :
  published t.trace = published s.trace
  := by
  cases h with
  | publish event => exact (ha event rfl).elim
  | publishRefused event => exact (ha event rfl).elim
  | subscribeRefused | dispatchSkipped | pop => rfl
  | subscribe | unsubscribe | shutdown | dispatchPending | process | call | finish | leave =>
      simp [Obs.publishedEvent]

theorem Step.published_publish
    {event : Event δ} (hactive : s.bus.isShuttingDown = false) (h : Step s (.publish event) t) :
  published t.trace = published s.trace ++ [event]
  := by
  cases h with
  | publish _ => simp [Obs.publishedEvent]
  | publishRefused _ down => cases hactive.symm.trans down

end EventBus

end NexusMainframe
