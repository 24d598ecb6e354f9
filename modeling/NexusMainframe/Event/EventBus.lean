import NexusMainframe.Lib.Bytes
import NexusMainframe.Lib.Lts
import NexusMainframe.Lib.Machine
import Mathlib.Data.Finmap

/-!
# The event bus

The event bus keeps, for each event name, the listeners in the order of their
subscription, and a queue of published events. `dispatchPending` swaps the queue out,
and for each event of it copies the listeners of its name under the lock and calls the
copies without it.

The bus is run by one dispatching thread and by callers of `subscribe`, `unsubscribe`,
`publish` and `shutdown` on any thread, a callback that is running included. A step of
`System` is a section under the lock, or the start or the end of one callback; the trace
of a system lists what the steps so far have done.
-/

namespace NexusMainframe

/-- An event: its name and the data it carries. -/
structure Event (δ : Type) where
  name : Bytes
  data : δ
deriving DecidableEq

/-- The data that the code puts into an event. -/
inductive EventData where
  | empty
  | string (s : Bytes)
  | stringPair (s t : Bytes)
deriving DecidableEq

namespace EventBus

/-! ### The bus -/

/-- A listener: its id and its callback. `serial` numbers the subscriptions of a run; it
is not in the code, where ids repeat once the counter has wrapped. -/
structure Listener (κ : Type) where
  id : Int
  cb : κ
  serial : Nat
deriving DecidableEq

/-- The members of an `EventBus`. `subscriptions` counts the listeners registered so far,
for their serial numbers. -/
structure Bus (κ δ : Type) where
  listeners : Finmap fun _ : Bytes => List (Listener κ)
  eventQueue : List (Event δ)
  nextId : Int
  isShuttingDown : Bool
  subscriptions : Nat

namespace Bus

variable {κ δ : Type}

/-- The bus as it is constructed. -/
def init : Bus κ δ where
  listeners := ∅
  eventQueue := []
  nextId := 1
  isShuttingDown := false
  subscriptions := 0

/-- The listeners of an event name, none when the name has no entry. -/
def listenersOf (b : Bus κ δ) (eventName : Bytes) : List (Listener κ) :=
  (b.listeners.lookup eventName).getD []

/-- The listener that `subscribe` registers next. -/
def nextListener (b : Bus κ δ) (cb : κ) : Listener κ :=
  ⟨b.nextId, cb, b.subscriptions⟩

/-- `subscribe` gives the next number away. -/
def subscribe (b : Bus κ δ) (eventName : Bytes) (cb : κ) : Int × Bus κ δ :=
  if b.isShuttingDown then (-1, b)
  else
    (b.nextId,
      { b with
        nextId := Machine.wrapInt32 (b.nextId + 1)
        listeners := b.listeners.insert eventName (b.listenersOf eventName ++ [b.nextListener cb])
        subscriptions := b.subscriptions + 1 })

/-- `unsubscribe`: the listeners with the number are taken out of the list of the event. -/
def unsubscribe (b : Bus κ δ) (eventName : Bytes) (id : Int) : Bus κ δ :=
  match b.listeners.lookup eventName with
  | none => b
  | some vec =>
      let vec := vec.filter fun l => l.id ≠ id
      if vec = [] then { b with listeners := b.listeners.erase eventName }
      else { b with listeners := b.listeners.insert eventName vec }

/-- `publish`, which drops the event once the bus is shut down. -/
def publish (b : Bus κ δ) (event : Event δ) : Bus κ δ :=
  if b.isShuttingDown then b
  else { b with eventQueue := b.eventQueue ++ [event] }

/-- `shutdown`. -/
def shutdown (b : Bus κ δ) : Bus κ δ :=
  { b with isShuttingDown := true, eventQueue := [], listeners := ∅ }

/-- The bus is not shut down. -/
def isActive (b : Bus κ δ) : Bool :=
  !b.isShuttingDown

@[simp]
theorem listenersOf_shutdown (b : Bus κ δ) (eventName : Bytes) :
  b.shutdown.listenersOf eventName = []
  := rfl

@[simp]
theorem listenersOf_publish (b : Bus κ δ) (event : Event δ) (eventName : Bytes) :
  (b.publish event).listenersOf eventName = b.listenersOf eventName
  := by
  unfold publish
  split <;> rfl

/-- A subscription on an active bus adds one listener behind those of its name. -/
theorem listenersOf_subscribe
    {b : Bus κ δ} (h : b.isShuttingDown = false) (eventName : Bytes) (cb : κ) (other : Bytes) :
  (b.subscribe eventName cb).2.listenersOf other
    = if eventName = other then b.listenersOf other ++ [b.nextListener cb]
      else b.listenersOf other
  := by
  by_cases hname : eventName = other
  · subst hname
    simp [subscribe, h, listenersOf]
  · simp [subscribe, h, listenersOf, hname, Finmap.lookup_insert_of_ne _ (Ne.symm hname)]

/-- The caller gets the id that the listener is registered with. -/
theorem subscribe_fst {b : Bus κ δ} (h : b.isShuttingDown = false) (eventName : Bytes) (cb : κ) :
  (b.subscribe eventName cb).1 = (b.nextListener cb).id
  := by
  simp [subscribe, h, nextListener]

/-- `unsubscribe` drops the listeners of its name that have its id, and no others. -/
theorem listenersOf_unsubscribe (b : Bus κ δ) (eventName : Bytes) (id : Int) (other : Bytes) :
  (b.unsubscribe eventName id).listenersOf other
    = if eventName = other then (b.listenersOf other).filter fun l => l.id ≠ id
      else b.listenersOf other
  := by
  by_cases hname : eventName = other
  · subst hname
    cases hvec : b.listeners.lookup eventName with
    | none => simp [unsubscribe, listenersOf, hvec]
    | some vec =>
        by_cases hempty : vec.filter (fun l => l.id ≠ id) = []
        · simp only [unsubscribe, hvec, hempty, if_true]
          simp only [listenersOf, hvec, Option.getD_some, hempty, Finmap.lookup_erase,
            Option.getD_none]
        · simp only [unsubscribe, hvec, hempty, if_true, if_false]
          simp [listenersOf, hvec]
  · cases hvec : b.listeners.lookup eventName with
    | none => simp [unsubscribe, hvec, hname]
    | some vec =>
        by_cases hempty : vec.filter (fun l => l.id ≠ id) = []
        · simp only [unsubscribe, hvec, hempty, if_true, if_neg hname]
          simp [listenersOf, Finmap.lookup_erase_ne (Ne.symm hname)]
        · simp only [unsubscribe, hvec, hempty, if_false, if_neg hname]
          simp [listenersOf, Finmap.lookup_insert_of_ne _ (Ne.symm hname)]

@[simp]
theorem isShuttingDown_subscribe (b : Bus κ δ) (eventName : Bytes) (cb : κ) :
  (b.subscribe eventName cb).2.isShuttingDown = b.isShuttingDown
  := by
  unfold subscribe
  split <;> rfl

@[simp]
theorem isShuttingDown_unsubscribe (b : Bus κ δ) (eventName : Bytes) (id : Int) :
  (b.unsubscribe eventName id).isShuttingDown = b.isShuttingDown
  := by
  unfold unsubscribe
  split
  · rfl
  · dsimp only
    split <;> rfl

@[simp]
theorem isShuttingDown_publish (b : Bus κ δ) (event : Event δ) :
  (b.publish event).isShuttingDown = b.isShuttingDown
  := by
  unfold publish
  split <;> rfl

@[simp]
theorem eventQueue_subscribe (b : Bus κ δ) (eventName : Bytes) (cb : κ) :
  (b.subscribe eventName cb).2.eventQueue = b.eventQueue
  := by
  unfold subscribe
  split <;> rfl

@[simp]
theorem eventQueue_unsubscribe (b : Bus κ δ) (eventName : Bytes) (id : Int) :
  (b.unsubscribe eventName id).eventQueue = b.eventQueue
  := by
  unfold unsubscribe
  split
  · rfl
  · dsimp only
    split <;> rfl

/-- A publication on an active bus goes behind the queue. -/
theorem eventQueue_publish
    {b : Bus κ δ} (h : b.isShuttingDown = false) (event : Event δ) :
  (b.publish event).eventQueue = b.eventQueue ++ [event]
  := by
  simp [publish, h]

end Bus

/-! ### The bus at work -/

/-- Where the dispatching thread is: outside `dispatchPending`; at the head of its loop,
with the events not yet processed; or calling the copies of the callbacks of an event,
with those it has not started yet, whether one is running, and the events behind. The
code copies the callbacks alone; the copies here keep their listeners, to name them. -/
inductive Dispatcher (κ δ : Type) where
  | idle
  | draining (temp : List (Event δ))
  | calling (event : Event δ) (callbacksCopy : List (Listener κ)) (running : Bool)
      (temp : List (Event δ))

/-- What a step did. -/
inductive Obs (κ δ : Type) where
  | subscribed (eventName : Bytes) (l : Listener κ)
  | unsubscribed (eventName : Bytes) (id : Int)
  | published (event : Event δ)
  | shutDown
  | began
  | processed (event : Event δ)
  | called (l : Listener κ)
  | finished (threw : Bool)
  | ended
deriving DecidableEq

/-- The steps: the calls of the public methods, and those of the dispatching thread
inside `dispatchPending`. -/
inductive Act (κ δ : Type) where
  | subscribe (eventName : Bytes) (cb : κ)
  | unsubscribe (eventName : Bytes) (id : Int)
  | publish (event : Event δ)
  | shutdown
  | dispatchPending
  | process
  | call
  | finish (threw : Bool)
  | pop
  | leave
deriving DecidableEq

/-- The bus with the events and the listeners that `dispatchPending` has still to go through, and
with what has happened. -/
structure System (κ δ : Type) where
  bus : Bus κ δ
  dispatcher : Dispatcher κ δ
  trace : List (Obs κ δ)

variable {κ δ : Type}

namespace Dispatcher

/-- The events taken out of the queue and not yet processed. -/
def pending : Dispatcher κ δ → List (Event δ)
  | idle => []
  | draining temp => temp
  | calling _ _ _ temp => temp

/-- The copied callbacks that have not been started. -/
def callbacks : Dispatcher κ δ → List (Listener κ)
  | idle => []
  | draining _ => []
  | calling _ callbacksCopy _ _ => callbacksCopy

end Dispatcher

namespace System

/-- A new bus, with no call of `dispatchPending` in progress. -/
def init : System κ δ :=
  ⟨.init, .idle, []⟩

/-- One step, if the dispatching thread is where the step is taken. A callback that
throws is caught and the loop over the copies goes on. -/
def step (s : System κ δ) : Act κ δ → Option (System κ δ)
  | .subscribe eventName cb =>
      -- what is observed is the listener with the id that the caller gets
      some { s with
        bus := (s.bus.subscribe eventName cb).2
        trace := if s.bus.isShuttingDown then s.trace
          else s.trace ++ [.subscribed eventName
            { s.bus.nextListener cb with id := (s.bus.subscribe eventName cb).1 }] }
  | .unsubscribe eventName id =>
      some { s with
        bus := s.bus.unsubscribe eventName id
        trace := s.trace ++ [.unsubscribed eventName id] }
  | .publish event =>
      some { s with
        bus := s.bus.publish event
        trace := if s.bus.isShuttingDown then s.trace else s.trace ++ [.published event] }
  | .shutdown =>
      some { s with bus := s.bus.shutdown, trace := s.trace ++ [.shutDown] }
  | .dispatchPending =>
      match s.dispatcher with
      | .idle =>
          if s.bus.isShuttingDown then some s
          else
            some {
              bus := { s.bus with eventQueue := [] }
              dispatcher := .draining s.bus.eventQueue
              trace := s.trace ++ [.began] }
      | _ => none
  | .process =>
      match s.dispatcher with
      | .draining (event :: temp) =>
          some { s with
            dispatcher := .calling event (s.bus.listenersOf event.name) false temp
            trace := s.trace ++ [.processed event] }
      | _ => none
  | .call =>
      match s.dispatcher with
      | .calling event (l :: callbacksCopy) false temp =>
          some { s with
            dispatcher := .calling event callbacksCopy true temp
            trace := s.trace ++ [.called l] }
      | _ => none
  | .finish threw =>
      match s.dispatcher with
      | .calling event callbacksCopy true temp =>
          some { s with
            dispatcher := .calling event callbacksCopy false temp
            trace := s.trace ++ [.finished threw] }
      | _ => none
  | .pop =>
      match s.dispatcher with
      | .calling _ [] false temp => some { s with dispatcher := .draining temp }
      | _ => none
  | .leave =>
      match s.dispatcher with
      | .draining [] => some { s with dispatcher := .idle, trace := s.trace ++ [.ended] }
      | _ => none

end System

/-- The steps of a system, each with the state it is taken in. -/
inductive Step : System κ δ → Act κ δ → System κ δ → Prop where
  | subscribe {b d tr} (eventName : Bytes) (cb : κ) (active : b.isShuttingDown = false) :
      Step ⟨b, d, tr⟩ (.subscribe eventName cb)
        ⟨(b.subscribe eventName cb).2, d, tr ++ [.subscribed eventName (b.nextListener cb)]⟩
  | subscribeRefused {b d tr} (eventName : Bytes) (cb : κ) (down : b.isShuttingDown = true) :
      Step ⟨b, d, tr⟩ (.subscribe eventName cb) ⟨b, d, tr⟩
  | unsubscribe {b d tr} (eventName : Bytes) (id : Int) :
      Step ⟨b, d, tr⟩ (.unsubscribe eventName id)
        ⟨b.unsubscribe eventName id, d, tr ++ [.unsubscribed eventName id]⟩
  | publish {b d tr} (event : Event δ) (active : b.isShuttingDown = false) :
      Step ⟨b, d, tr⟩ (.publish event)
        ⟨b.publish event, d, tr ++ [.published event]⟩
  | publishRefused {b d tr} (event : Event δ) (down : b.isShuttingDown = true) :
      Step ⟨b, d, tr⟩ (.publish event) ⟨b, d, tr⟩
  | shutdown {b d tr} :
      Step ⟨b, d, tr⟩ .shutdown ⟨b.shutdown, d, tr ++ [.shutDown]⟩
  | dispatchPending {b tr} (active : b.isShuttingDown = false) :
      Step ⟨b, .idle, tr⟩ .dispatchPending
        ⟨{ b with eventQueue := [] }, .draining b.eventQueue, tr ++ [.began]⟩
  | dispatchSkipped {b tr} (down : b.isShuttingDown = true) :
      Step ⟨b, .idle, tr⟩ .dispatchPending ⟨b, .idle, tr⟩
  | process {b tr} (event : Event δ) (temp : List (Event δ)) :
      Step ⟨b, .draining (event :: temp), tr⟩ .process
        ⟨b, .calling event (b.listenersOf event.name) false temp, tr ++ [.processed event]⟩
  | call {b tr} (event : Event δ) (l : Listener κ) (ls : List (Listener κ))
      (temp : List (Event δ)) :
      Step ⟨b, .calling event (l :: ls) false temp, tr⟩ .call
        ⟨b, .calling event ls true temp, tr ++ [.called l]⟩
  | finish {b tr} (event : Event δ) (ls : List (Listener κ)) (temp : List (Event δ))
      (threw : Bool) :
      Step ⟨b, .calling event ls true temp, tr⟩ (.finish threw)
        ⟨b, .calling event ls false temp, tr ++ [.finished threw]⟩
  | pop {b tr} (event : Event δ) (temp : List (Event δ)) :
      Step ⟨b, .calling event [] false temp, tr⟩ .pop ⟨b, .draining temp, tr⟩
  | leave {b tr} :
      Step ⟨b, .draining [], tr⟩ .leave ⟨b, .idle, tr ++ [.ended]⟩

/-- What `System.step` does is one of the steps. -/
theorem Step.of_step
    {s t : System κ δ} {a : Act κ δ} (h : s.step a = some t) :
  Step s a t
  := by
  obtain ⟨b, d, tr⟩ := s
  cases a with
  | subscribe eventName cb =>
      obtain rfl := Option.some.inj h
      cases hb : b.isShuttingDown with
      | false =>
          simp only [Bool.false_eq_true, if_false, Bus.subscribe_fst hb]
          apply Step.subscribe eventName cb hb
      | true =>
          simp only [Bus.subscribe, hb, if_true]
          apply Step.subscribeRefused eventName cb hb
  | unsubscribe eventName id =>
      obtain rfl := Option.some.inj h
      apply Step.unsubscribe
  | publish event =>
      obtain rfl := Option.some.inj h
      cases hb : b.isShuttingDown with
      | false =>
          simp only [Bool.false_eq_true, if_false]
          apply Step.publish event hb
      | true =>
          simp only [Bus.publish, hb, if_true]
          apply Step.publishRefused event hb
  | shutdown =>
      obtain rfl := Option.some.inj h
      apply Step.shutdown
  | dispatchPending =>
      simp only [System.step] at h
      split at h
      next =>
        split at h
        next hb =>
          obtain rfl := Option.some.inj h
          apply Step.dispatchSkipped hb
        next hb =>
          obtain rfl := Option.some.inj h
          apply Step.dispatchPending (Bool.eq_false_of_not_eq_true hb)
      next => cases h
  | process =>
      simp only [System.step] at h
      split at h
      next =>
        obtain rfl := Option.some.inj h
        apply Step.process
      next => cases h
  | call =>
      simp only [System.step] at h
      split at h
      next =>
        obtain rfl := Option.some.inj h
        apply Step.call
      next => cases h
  | finish threw =>
      simp only [System.step] at h
      split at h
      next =>
        obtain rfl := Option.some.inj h
        apply Step.finish
      next => cases h
  | pop =>
      simp only [System.step] at h
      split at h
      next =>
        obtain rfl := Option.some.inj h
        apply Step.pop
      next => cases h
  | leave =>
      simp only [System.step] at h
      split at h
      next =>
        obtain rfl := Option.some.inj h
        apply Step.leave
      next => cases h

end EventBus

end NexusMainframe
