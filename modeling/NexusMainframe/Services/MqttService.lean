import NexusMainframe.Event.Delivery
import NexusMainframe.Lib.Lineage

/-!
# The events that MQTT events forward

The service subscribes a handler to `mqtt:event`. The data of such an event is the name of an
event and, behind a space, its data, and the handler publishes that event. It can be named
`mqtt:event` itself, and then the handler is called for it as well. Each time the data loses the
name and the space, so the events that one event leads to are as many as its data has room for.

The handler is one of the listeners on the bus, which other code uses as well. What is published
carries the number of the event of other code that it goes back to, to say what leads to what.
-/

namespace NexusMainframe

open EventBus (Dispatcher Listener)

namespace MqttService

/-- The event that the handler is subscribed to. -/
def mqttEvent : Bytes :=
  Bytes.ofAscii "mqtt:event"

/-! ### The handler -/

/-- What the handler of `mqtt:event` publishes, unless the data is no string. -/
def eventHandler : EventData → Option (Event EventData)
  | .string str =>
      match str.idxOf? 0x20 with
      | some pos => some ⟨str.take pos, .string (str.drop (pos + 1))⟩
      | none => some ⟨str, .string []⟩
  | .empty | .stringPair _ _ => none

/-- The handler is called for the first event, and publishes the second. -/
def Feeds (e e' : Event EventData) : Prop :=
  e.name = mqttEvent ∧ eventHandler e.data = some e'

/-- The string is split at its first space, if it has any. -/
theorem eventHandler_string {str : Bytes} {e : Event EventData} :
  eventHandler (.string str) = some e
    ↔ (∃ rest, str = e.name ++ 0x20 :: rest ∧ 0x20 ∉ e.name ∧ e.data = .string rest)
      ∨ 0x20 ∉ str ∧ e = ⟨str, .string []⟩
  := by
  obtain ⟨name, data⟩ := e
  rw [eventHandler]
  constructor
  · intro h
    split at h
    next pos hpos =>
      obtain ⟨rfl, rfl⟩ := Event.mk.inj (Option.some.inj h)
      obtain ⟨hlt, hspace, hfirst⟩ := List.idxOf?_eq_some_iff.mp hpos
      left
      use str.drop (pos + 1)
      constructor
      · rw [← hspace, ← List.drop_eq_getElem_cons hlt, List.take_append_drop]
      · refine ⟨?_, rfl⟩
        intro hmem
        obtain ⟨j, hj, hget⟩ := List.mem_take_iff_getElem.mp hmem
        apply hfirst j (by omega) hget
    next hnone => exact Or.inr ⟨List.idxOf?_eq_none_iff.mp hnone, (Option.some.inj h).symm⟩
  · rintro (⟨rest, rfl, hname, hdata⟩ | ⟨hnone, he⟩)
    · have hpos : (name ++ 0x20 :: rest).idxOf? 0x20 = some name.length := by
        apply List.idxOf?_eq_some_iff.mpr
        refine ⟨by simp, by simp, ?_⟩
        intro j hj
        rw [List.getElem_append_left hj]
        intro hget
        apply hname
        rw [← hget]
        apply List.getElem_mem
      rw [hpos]
      obtain rfl := hdata
      simp
    · rw [List.idxOf?_eq_none_iff.mpr hnone, he]

/-- The name that leads to another call, and the space, are taken from the data. -/
theorem length_of_eventHandler
    {str : Bytes} {e : Event EventData} (h : eventHandler (.string str) = some e)
    (hname : e.name = mqttEvent) :
  ∃ rest, e.data = .string rest ∧ (str.length + 1) / 11 = (rest.length + 1) / 11 + 1
  := by
  have hlength : mqttEvent.length = 10 := by decide
  rcases eventHandler_string.mp h with ⟨rest, rfl, -, hdata⟩ | ⟨-, rfl⟩
  · use rest, hdata
    rw [hname, List.length_append, List.length_cons, hlength]
    omega
  · use [], rfl
    obtain rfl := hname
    decide

/-- A chain of events from a string is no longer than the string has room for. -/
theorem length_le_of_isChain
    {name str : Bytes} {es : List (Event EventData)}
    (h : (⟨name, .string str⟩ :: es).IsChain Feeds) :
  es.length ≤ (str.length + 1) / 11 + 1
  := by
  induction es generalizing name str with
  | nil => simp
  | cons e es ih =>
      obtain ⟨⟨-, he⟩, hrest⟩ := List.isChain_cons_cons.mp h
      cases es with
      | nil => simp
      | cons e' es =>
          obtain ⟨⟨hname, -⟩, -⟩ := List.isChain_cons_cons.mp hrest
          obtain ⟨rest, hdata, hlength⟩ := length_of_eventHandler he hname
          obtain ⟨name', data⟩ := e
          obtain rfl := hdata
          have hle := ih hrest
          rw [List.length_cons, hlength]
          omega

/-- Strings of every length have room for as many events. -/
theorem exists_isChain (length : Nat) :
  ∃ (str : Bytes) (es : List (Event EventData)), str.length = length
    ∧ (⟨mqttEvent, .string str⟩ :: es).IsChain Feeds ∧ es.length = (length + 1) / 11 + 1
  := by
  have hspace : 0x20 ∉ mqttEvent := by decide
  have hlength : mqttEvent.length = 10 := by decide
  induction length using Nat.strongRecOn with
  | ind length ih =>
      rcases lt_trichotomy length 10 with hlt | rfl | hgt
      · have hnone : 0x20 ∉ List.replicate length (0x21 : UInt8) := by
          intro hmem
          have heq := List.eq_of_mem_replicate hmem
          revert heq
          decide
        use List.replicate length 0x21, [⟨List.replicate length 0x21, .string []⟩]
        use List.length_replicate
        use List.isChain_pair.mpr ⟨rfl, eventHandler_string.mpr (Or.inr ⟨hnone, rfl⟩)⟩
        rw [List.length_singleton]
        omega
      · use mqttEvent, [⟨mqttEvent, .string []⟩, ⟨[], .string []⟩], hlength
        constructor
        · apply List.isChain_cons_cons.mpr
          use ⟨rfl, eventHandler_string.mpr (Or.inr ⟨hspace, rfl⟩)⟩
          apply List.isChain_pair.mpr
          use rfl
          rfl
        · rfl
      · obtain ⟨str, es, hstr, hchain, hes⟩ := ih (length - 11) (by omega)
        use mqttEvent ++ 0x20 :: str, ⟨mqttEvent, .string str⟩ :: es
        constructor
        · rw [List.length_append, List.length_cons, hlength, hstr]
          omega
        · constructor
          · apply List.isChain_cons_cons.mpr
            use ⟨rfl, eventHandler_string.mpr (Or.inl ⟨str, rfl, hspace, rfl⟩)⟩
          · rw [List.length_cons, hes]
            omega

/-- How many events the data of an event has room for. -/
def capacity (e : Event EventData) : Nat :=
  match e.data with
  | .string str => if e.name = mqttEvent then (str.length + 1) / 11 + 1 else 0
  | .empty | .stringPair _ _ => 0

theorem capacity_lt_of_feeds {e e' : Event EventData} (h : Feeds e e') :
  capacity e' < capacity e
  := by
  obtain ⟨name, data⟩ := e
  obtain ⟨rfl, hhandler⟩ := h
  cases data with
  | empty => cases hhandler
  | stringPair s t => cases hhandler
  | string str =>
      have hcapacity : capacity ⟨mqttEvent, .string str⟩ = (str.length + 1) / 11 + 1 := by
        simp [capacity]
      rw [hcapacity]
      by_cases hname : e'.name = mqttEvent
      · obtain ⟨rest, hdata, hlength⟩ := length_of_eventHandler hhandler hname
        rw [capacity, hdata]
        dsimp only
        rw [if_pos hname, hlength]
        apply Nat.lt_succ_self
      · have hzero : capacity e' = 0 := by
          unfold capacity
          split
          next => rw [if_neg hname]
          all_goals rfl
        rw [hzero]
        apply Nat.succ_pos

/-- No event leads to others for ever. -/
theorem wellFounded_feeds :
  WellFounded fun e e' : Event EventData => Feeds e' e
  := Subrelation.wf capacity_lt_of_feeds (measure capacity).wf

/-! ### The handler on the bus -/

/-- The callbacks on the bus: the handler of `mqtt:event`, and those of other code. -/
inductive Handler (κ : Type) where
  | event
  | other (cb : κ)
deriving DecidableEq

/-- The data of an event, with the place of the publication of other code that it goes back to;
this is not in the code. -/
structure Traced where
  data : EventData
  origin : Nat
deriving DecidableEq

/-- The bus at work; whether the handler has been subscribed; whether the callback that is
running is the handler and has still to publish; and what other code has published, in order. -/
structure State (κ : Type) where
  system : EventBus.System (Handler κ) Traced
  started : Bool
  forwarding : Bool
  publications : List (Event EventData)

/-- The steps: `start` subscribes the handler, and `forward` is its publication; the others are
those of other code and of the dispatching thread. -/
inductive Act (κ : Type) where
  | start
  | forward
  | publish (event : Event EventData)
  | subscribe (eventName : Bytes) (cb : κ)
  | unsubscribe (eventName : Bytes) (id : Int)
  | shutdown
  | dispatchPending
  | process
  | call
  | finish (threw : Bool)
  | pop
  | leave

variable {κ : Type}

/-- The callback is the one that subscribes at the broker for an event. -/
def Handler.isEvent : Handler κ → Bool
  | event => true
  | other _ => false

/-- An event that goes back to one of other code. -/
def traced (origin : Nat) (event : Event EventData) : Event Traced :=
  ⟨event.name, ⟨event.data, origin⟩⟩

/-- An event with its origin in front. -/
def item (event : Event Traced) : Nat × Event EventData :=
  (event.data.origin, ⟨event.name, event.data.data⟩)

namespace State

/-- The service before `start`. -/
def init : State κ :=
  ⟨.init, false, false, []⟩

/-- A step of the bus. -/
def bus (s : State κ) (a : EventBus.Act (Handler κ) Traced) : Option (State κ) :=
  (s.system.step a).map fun system => { s with system := system }

/-- The next callback to be called is the handler. -/
def callsHandler (s : State κ) : Bool :=
  match s.system.dispatcher with
  | .calling _ (l :: _) _ _ => l.cb.isEvent
  | _ => false

end State

/-- One step. The main frame starts the service once, before it shuts the bus down. The handler
publishes at most once when it is called, and can end without having published. -/
def step (s : State κ) : Act κ → Option (State κ)
  | .start =>
      if s.started && s.system.bus.isActive then none
      else { s with started := true }.bus (.subscribe mqttEvent .event)
  | .forward =>
      match s.system.dispatcher with
      | .calling event _ true _ =>
          if s.forwarding then
            (eventHandler event.data.data).bind fun forwarded =>
              { s with forwarding := false }.bus (.publish (traced event.data.origin forwarded))
          else none
      | _ => none
  | .publish event =>
      { s with publications := s.publications ++ [event] }.bus
        (.publish (traced s.publications.length event))
  | .subscribe eventName cb => s.bus (.subscribe eventName (.other cb))
  | .unsubscribe eventName id => s.bus (.unsubscribe eventName id)
  | .shutdown => s.bus .shutdown
  | .dispatchPending => s.bus .dispatchPending
  | .process => s.bus .process
  | .call => { s with forwarding := s.callsHandler }.bus .call
  | .finish threw => s.bus (.finish threw)
  | .pop => s.bus .pop
  | .leave => s.bus .leave

/-- The events on the bus so far, with their origins. -/
def history (s : State κ) : List (Nat × Event EventData) :=
  (EventBus.published s.system.trace).map item

/-- What the handler has published because of a publication of other code, in order. -/
def forwarded (s : State κ) (origin : Nat) : List (Event EventData) :=
  (Lineage.line origin (history s)).tail

/-! ### What can still be forwarded -/

/-- The listeners that are the handler. -/
def handlers (ls : List (Listener (Handler κ))) : Nat :=
  ls.countP fun l => l.cb.isEvent

/-- The event that is being dispatched, as often as the handler can still publish for it. -/
def owed (forwarding : Bool) : Dispatcher (Handler κ) Traced → List (Event Traced)
  | .calling event callbacks running _ =>
      List.replicate (handlers callbacks + (running && forwarding).toNat) event
  | .idle | .draining _ => []

/-- The events that can still lead to others. -/
def live (s : State κ) : List (Event Traced) :=
  owed s.forwarding s.system.dispatcher ++ s.system.dispatcher.pending ++ s.system.bus.eventQueue

/-- The handler is on the bus at most once, under its name; it can publish at most once for the
event that is being dispatched; and the events of an origin are a chain, which ends with the only
one that can lead to others. -/
structure Inv (s : State κ) : Prop where
  table : ∀ eventName, handlers (s.system.bus.listenersOf eventName)
    ≤ if eventName = mqttEvent then s.started.toNat else 0
  owed_le : (owed s.forwarding s.system.dispatcher).length ≤ 1
  owed_name : ∀ event ∈ owed s.forwarding s.system.dispatcher, event.name = mqttEvent
  tracks : Lineage.Tracks Feeds s.publications (history s) ((live s).map item)

/-! ### Steps of the bus -/

theorem of_bus
    {s t : State κ} {a : EventBus.Act (Handler κ) Traced} (h : s.bus a = some t) :
  ∃ system, EventBus.Step s.system a system ∧ t = { s with system := system }
  := by
  obtain ⟨system, hstep, rfl⟩ := Option.map_eq_some_iff.mp h
  use system, EventBus.Step.of_step hstep

/-- The handler is added to the listeners by its subscription only. -/
theorem handlers_le_of_step
    {s t : EventBus.System (Handler κ) Traced} {a : EventBus.Act (Handler κ) Traced}
    (h : EventBus.Step s a t) (ha : ∀ eventName, a ≠ .subscribe eventName .event)
    (eventName : Bytes) :
  handlers (t.bus.listenersOf eventName) ≤ handlers (s.bus.listenersOf eventName)
  := by
  cases h with
  | @subscribe b d tr other cb active =>
      rw [EventBus.Bus.listenersOf_subscribe active]
      split
      next hname =>
        cases cb with
        | event => exact absurd rfl (ha other)
        | other cb => simp [handlers, EventBus.Bus.nextListener, Handler.isEvent]
      next => rfl
  | @unsubscribe b d tr other id =>
      rw [EventBus.Bus.listenersOf_unsubscribe]
      split
      next => apply List.filter_sublist.countP_le
      next => rfl
  | publish event active => rw [EventBus.Bus.listenersOf_publish]
  | shutdown => apply Nat.zero_le
  | subscribeRefused | publishRefused | dispatchPending | dispatchSkipped | process | call | finish
  | pop | leave => rfl

/-- What is published is what a publication publishes. -/
theorem published_of_step
    {s t : EventBus.System (Handler κ) Traced} {a : EventBus.Act (Handler κ) Traced}
    (h : EventBus.Step s a t) (ha : ∀ event, a ≠ .publish event) :
  EventBus.published t.trace = EventBus.published s.trace
  := by
  cases h with
  | publish event active => exact absurd rfl (ha event)
  | publishRefused event down => rfl
  | subscribeRefused | dispatchSkipped | pop => rfl
  | subscribe | unsubscribe | shutdown | dispatchPending | process | call | finish | leave =>
      rw [EventBus.published_concat]
      apply List.append_nil

/-! ### Every run -/

namespace Inv

theorem init :
  Inv (State.init : State κ)
  := by
  constructor
  · intro eventName
    exact Nat.zero_le _
  · exact Nat.zero_le 1
  · intro event h
    cases h
  · apply Lineage.Tracks.init

/-- A step that publishes nothing, and after which no more can be published. -/
theorem quiet
    {s : State κ} (h : Inv s) {system : EventBus.System (Handler κ) Traced}
    {started forwarding : Bool}
    (htable : ∀ eventName, handlers (system.bus.listenersOf eventName)
      ≤ if eventName = mqttEvent then started.toNat else 0)
    (howed : (owed forwarding system.dispatcher).Sublist (owed s.forwarding s.system.dispatcher))
    (hpublished : EventBus.published system.trace = EventBus.published s.system.trace)
    (hlive : (live ⟨system, started, forwarding, s.publications⟩).Subperm (live s)) :
  Inv ⟨system, started, forwarding, s.publications⟩
  := by
  use htable
  · apply howed.length_le.trans h.owed_le
  · intro event hevent
    apply h.owed_name event (howed.subset hevent)
  · have hhistory : history ⟨system, started, forwarding, s.publications⟩ = history s :=
      congrArg (List.map item) hpublished
    rw [hhistory]
    obtain ⟨kept, hperm, hsub⟩ := hlive
    apply h.tracks.subperm ⟨kept.map item, hperm.map item, hsub.map item⟩

/-- A step of the bus that is no publication and does not subscribe the handler. -/
theorem quiet_bus
    {s : State κ} (h : Inv s) {system : EventBus.System (Handler κ) Traced}
    {a : EventBus.Act (Handler κ) Traced} (hstep : EventBus.Step s.system a system)
    (hsubscribe : ∀ eventName, a ≠ .subscribe eventName .event)
    (hpublish : ∀ event, a ≠ .publish event) {forwarding : Bool}
    (howed : (owed forwarding system.dispatcher).Sublist (owed s.forwarding s.system.dispatcher))
    (hlive : (live ⟨system, s.started, forwarding, s.publications⟩).Subperm (live s)) :
  Inv ⟨system, s.started, forwarding, s.publications⟩
  := by
  apply h.quiet _ howed (published_of_step hstep hpublish) hlive
  intro eventName
  apply (handlers_le_of_step hstep hsubscribe eventName).trans (h.table eventName)

theorem history_concat
    {b b' : EventBus.Bus (Handler κ) Traced} {d d' : Dispatcher (Handler κ) Traced}
    {tr : List (EventBus.Obs (Handler κ) Traced)} {event : Event Traced}
    {started started' forwarding forwarding' : Bool}
    {publications publications' : List (Event EventData)} :
  history ⟨⟨b', d', tr ++ [.published event]⟩, started', forwarding', publications'⟩
    = history ⟨⟨b, d, tr⟩, started, forwarding, publications⟩ ++ [item event]
  := by
  simp [history, EventBus.Obs.publishedEvent]

/-- The handler is subscribed. -/
theorem start {s t : State κ} (h : Inv s) (hstep : MqttService.step s .start = some t) :
  Inv t
  := by
  obtain ⟨⟨b, d, tr⟩, started, forwarding, publications⟩ := s
  rw [MqttService.step] at hstep
  split at hstep
  next => cases hstep
  next hstarted =>
    obtain ⟨system, hbus, rfl⟩ := of_bus hstep
    cases hbus with
    | subscribe eventName cb active =>
        apply h.quiet
        · intro other
          have hle := h.table other
          rw [EventBus.Bus.listenersOf_subscribe active]
          by_cases hname : mqttEvent = other
          · subst hname
            have hfalse : started = false := by
              simpa [EventBus.Bus.isActive, active] using hstarted
            rw [if_pos rfl, hfalse] at hle
            rw [if_pos rfl, if_pos rfl, handlers, List.countP_append]
            apply Nat.add_le_add_right hle
          · rw [if_neg hname]
            rw [if_neg (Ne.symm hname)] at hle ⊢
            apply hle
        · apply List.Sublist.refl
        · simp [EventBus.Obs.publishedEvent]
        · unfold live
          rw [EventBus.Bus.eventQueue_subscribe]
    | subscribeRefused eventName cb down =>
        apply h.quiet
        · intro other
          apply (h.table other).trans
          split
          next => apply Bool.toNat_le
          next => rfl
        · apply List.Sublist.refl
        · rfl
        · apply List.Subperm.refl

/-- Other code publishes. -/
theorem publish
    {s t : State κ} {event : Event EventData} (h : Inv s)
    (hstep : MqttService.step s (.publish event) = some t) :
  Inv t
  := by
  obtain ⟨⟨b, d, tr⟩, started, forwarding, publications⟩ := s
  obtain ⟨system, hbus, rfl⟩ := of_bus hstep
  cases hbus with
  | publish event active =>
      constructor
      · intro other
        rw [EventBus.Bus.listenersOf_publish]
        apply h.table other
      · apply h.owed_le
      · apply h.owed_name
      · have htracks := h.tracks.enter event
        rw [history_concat, live, EventBus.Bus.eventQueue_publish active, ← List.append_assoc,
          List.map_append]
        apply htracks
  | publishRefused event down =>
      use h.table, h.owed_le, h.owed_name
      apply h.tracks.refuse

/-- The handler publishes. -/
theorem forward {s t : State κ} (h : Inv s) (hstep : MqttService.step s .forward = some t) :
  Inv t
  := by
  obtain ⟨⟨b, d, tr⟩, started, forwarding, publications⟩ := s
  rw [MqttService.step] at hstep
  split at hstep
  next event callbacks temp hdispatcher =>
    split at hstep
    next hforwarding =>
      obtain ⟨forwarded, hforwarded, hstep⟩ := Option.bind_eq_some_iff.mp hstep
      obtain ⟨system, hbus, rfl⟩ := of_bus hstep
      obtain rfl : d = .calling event callbacks true temp := hdispatcher
      obtain rfl : forwarding = true := hforwarding
      have hnone : handlers callbacks = 0 := by
        have hle := h.owed_le
        rw [owed, List.length_replicate] at hle
        apply Nat.le_zero.mp (Nat.le_of_add_le_add_right hle)
      have hbefore : owed true (.calling event callbacks true temp) = [event] := by
        rw [owed, hnone]
        rfl
      have hafter : owed false (.calling event callbacks true temp) = [] := by
        rw [owed, hnone]
        rfl
      cases hbus with
      | publish _ active =>
          constructor
          · intro other
            rw [EventBus.Bus.listenersOf_publish]
            apply h.table other
          · rw [hafter]
            apply Nat.zero_le
          · rw [hafter]
            intro _ hmem
            cases hmem
          · have htracks := h.tracks
            rw [live, hbefore] at htracks
            have hname : event.name = mqttEvent := h.owed_name event (by simp [hbefore])
            have hdescend := htracks.descend ⟨hname, hforwarded⟩
            rw [history_concat, live, hafter, EventBus.Bus.eventQueue_publish active,
              ← List.append_assoc, List.map_append]
            apply hdescend
      | publishRefused _ down =>
          apply h.quiet h.table
          · rw [hafter]
            apply List.nil_sublist
          · rfl
          · rw [live, live, hafter, hbefore]
            apply List.Subperm.cons_right
            apply List.Subperm.refl
    next => cases hstep
  next => cases hstep

/-- An event is taken up, and its listeners are copied. -/
theorem process {s t : State κ} (h : Inv s) (hstep : MqttService.step s .process = some t) :
  Inv t
  := by
  obtain ⟨⟨b, d, tr⟩, started, forwarding, publications⟩ := s
  obtain ⟨system, hbus, rfl⟩ := of_bus hstep
  cases hbus with
  | process event temp =>
      have htable := h.table event.name
      have howed : owed forwarding (.calling event (b.listenersOf event.name) false temp)
          = List.replicate (handlers (b.listenersOf event.name)) event := rfl
      have hle : handlers (b.listenersOf event.name) ≤ 1 := by
        apply htable.trans
        split
        next => apply Bool.toNat_le
        next => apply Nat.zero_le
      constructor
      · apply h.table
      · rw [howed, List.length_replicate]
        apply hle
      · rw [howed]
        intro event' hevent'
        obtain ⟨hne, rfl⟩ := List.mem_replicate.mp hevent'
        by_contra hname
        rw [if_neg hname] at htable
        apply hne (Nat.le_zero.mp htable)
      · have hhistory : history ⟨⟨b, .calling event (b.listenersOf event.name) false temp,
            tr ++ [.processed event]⟩, started, forwarding, publications⟩
              = history ⟨⟨b, .draining (event :: temp), tr⟩, started, forwarding, publications⟩ :=
          congrArg (List.map item) (published_of_step (.process event temp) (by simp))
        rw [hhistory]
        apply h.tracks.subperm
        apply List.Sublist.subperm
        apply List.Sublist.map
        rw [live, live, howed]
        have hsub : (List.replicate (handlers (b.listenersOf event.name)) event).Sublist [event] :=
          (List.replicate_sublist_replicate event (n := 1)).mpr hle
        apply (hsub.append_right temp).append_right

/-- A listener is called. If it is the handler, it can publish now instead of later. -/
theorem call {s t : State κ} (h : Inv s) (hstep : MqttService.step s .call = some t) :
  Inv t
  := by
  obtain ⟨⟨b, d, tr⟩, started, forwarding, publications⟩ := s
  obtain ⟨system, hbus, rfl⟩ := of_bus hstep
  cases hbus with
  | call event l callbacks temp =>
      have howed : owed l.cb.isEvent (.calling event callbacks true temp)
          = owed forwarding (.calling event (l :: callbacks) false temp) := by
        rw [owed, owed, handlers, handlers, List.countP_cons]
        cases l.cb.isEvent <;> rfl
      have hlive : live ⟨⟨b, .calling event callbacks true temp, tr ++ [.called l]⟩, started,
          l.cb.isEvent, publications⟩
            = live ⟨⟨b, .calling event (l :: callbacks) false temp, tr⟩, started, forwarding,
              publications⟩ := by
        rw [live, live, howed]
        rfl
      apply h.quiet_bus (EventBus.Step.call event l callbacks temp) (by simp) (by simp)
      · exact howed ▸ List.Sublist.refl _
      · exact hlive ▸ List.Subperm.refl _

/-- A callback ends, whether it has published or not. -/
theorem finish
    {s t : State κ} {threw : Bool} (h : Inv s)
    (hstep : MqttService.step s (.finish threw) = some t) :
  Inv t
  := by
  obtain ⟨⟨b, d, tr⟩, started, forwarding, publications⟩ := s
  obtain ⟨system, hbus, rfl⟩ := of_bus hstep
  cases hbus with
  | finish event callbacks temp threw =>
      have howed : (owed forwarding (.calling event callbacks false temp)).Sublist
          (owed forwarding (.calling event callbacks true temp)) := by
        apply (List.replicate_sublist_replicate _).mpr
        simp
      apply h.quiet_bus (EventBus.Step.finish event callbacks temp threw) (by simp) (by simp)
      · apply howed
      · apply ((howed.append_right _).append_right _).subperm

theorem step {s t : State κ} {a : Act κ} (h : Inv s) (hstep : MqttService.step s a = some t) :
  Inv t
  := by
  obtain ⟨⟨b, d, tr⟩, started, forwarding, publications⟩ := s
  cases a with
  | start => apply h.start hstep
  | forward => apply h.forward hstep
  | publish event => apply h.publish hstep
  | subscribe eventName cb =>
      obtain ⟨system, hbus, rfl⟩ := of_bus hstep
      apply h.quiet_bus hbus (by simp) (by simp)
      · cases hbus <;> apply List.Sublist.refl
      · cases hbus with
        | subscribe _ _ active =>
            unfold live
            rw [EventBus.Bus.eventQueue_subscribe]
        | subscribeRefused _ _ down => apply List.Subperm.refl
  | unsubscribe eventName id =>
      obtain ⟨system, hbus, rfl⟩ := of_bus hstep
      apply h.quiet_bus hbus (by simp) (by simp)
      · cases hbus
        apply List.Sublist.refl
      · cases hbus
        unfold live
        rw [EventBus.Bus.eventQueue_unsubscribe]
  | shutdown =>
      obtain ⟨system, hbus, rfl⟩ := of_bus hstep
      apply h.quiet_bus hbus (by simp) (by simp)
      · cases hbus
        apply List.Sublist.refl
      · cases hbus
        apply ((List.nil_sublist _).append_left _).subperm
  | dispatchPending =>
      obtain ⟨system, hbus, rfl⟩ := of_bus hstep
      apply h.quiet_bus hbus (by simp) (by simp)
      · cases hbus <;> apply List.Sublist.refl
      · cases hbus with
        | dispatchPending active =>
            apply List.Perm.subperm
            apply List.perm_append_comm
        | dispatchSkipped down => apply List.Subperm.refl
  | process => apply h.process hstep
  | call => apply h.call hstep
  | finish threw => apply h.finish hstep
  | pop =>
      obtain ⟨system, hbus, rfl⟩ := of_bus hstep
      apply h.quiet_bus hbus (by simp) (by simp)
      · cases hbus
        apply List.Sublist.refl
      · cases hbus
        apply List.Subperm.refl
  | leave =>
      obtain ⟨system, hbus, rfl⟩ := of_bus hstep
      apply h.quiet_bus hbus (by simp) (by simp)
      · cases hbus
        apply List.Sublist.refl
      · cases hbus
        apply List.Subperm.refl

end Inv

theorem inv_of_run {as : List (Act κ)} {s : State κ} (h : Lts.run step .init as = some s) :
  Inv s
  := by
  apply Lts.run_induction (P := fun _ s => Inv s) _ _ h
  · apply Inv.init
  · intro _ t a u _ ht hstep
    apply ht.step hstep

/-- What the handler publishes because of an `mqtt:event` of other code is a chain of events, each
of which leads to the next, and these are no more than the string has room for; and no event leads
to others for ever. -/
theorem forwarded_of_run :
  (WellFounded fun e e' : Event EventData => Feeds e' e)
    ∧ ∀ (κ : Type) (as : List (Act κ)) (s : State κ), Lts.run step .init as = some s →
      ∀ (origin : Nat) (payload : Bytes),
        s.publications[origin]? = some ⟨mqttEvent, .string payload⟩ →
          (⟨mqttEvent, .string payload⟩ :: forwarded s origin).IsChain Feeds
            ∧ (forwarded s origin).length ≤ (payload.length + 1) / 11 + 1
  := by
  use wellFounded_feeds
  intro κ as s h origin payload hpublication
  have hchain := (inv_of_run h).tracks.isChain_tail hpublication
  exact ⟨hchain, length_le_of_isChain hchain⟩

/-- The event `mqtt:event lamp`, forwarded twice. -/
theorem forwarded_of_run_lamp :
  ∃ s : State Unit,
    Lts.run step .init
      [.start, .publish ⟨mqttEvent, .string (Bytes.ofAscii "mqtt:event lamp")⟩, .dispatchPending,
        .process, .call, .forward, .finish false, .pop, .leave, .dispatchPending, .process, .call,
        .forward, .finish false, .pop, .leave] = some s
      ∧ forwarded s 0 = [⟨mqttEvent, .string (Bytes.ofAscii "lamp")⟩,
        ⟨Bytes.ofAscii "lamp", .string []⟩]
      ∧ (forwarded s 0).length ≤ ((Bytes.ofAscii "mqtt:event lamp").length + 1) / 11 + 1
  := by
  refine ⟨_, rfl, rfl, ?_⟩
  refine (forwarded_of_run.2 Unit [.start,
    .publish ⟨mqttEvent, .string (Bytes.ofAscii "mqtt:event lamp")⟩, .dispatchPending, .process,
    .call, .forward, .finish false, .pop, .leave, .dispatchPending, .process, .call, .forward,
    .finish false, .pop, .leave] _ rfl 0 _ rfl).2

end MqttService

end NexusMainframe
