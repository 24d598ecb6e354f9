import NexusMainframe.Lib.JsonText
import NexusMainframe.Mqtt.HandlePacket
import NexusMainframe.Server.WsClients
import NexusMainframe.Server.WsFrame
import NexusMainframe.Services.MqttService
import NexusMainframe.Services.WsBridge

/-!
# From the broker to the WebSocket clients

The receive thread of the MQTT client publishes what it finds in a packet, the main loop hands it
to the bridge of the WebSocket service, and the bridge sends a frame for each filter of a client
that matches. In between other threads publish events, clients come, subscribe and go, and the
handler of `mqtt:event` publishes events whose names come from the broker.

A step of `Gateway` is a section under a lock or the work of one thread between two of them. The
bridge holds the lock of the service while it sends; the table of the clients has a lock of its
own, so a client may be dropped between two frames.

The services know a client by its id, an `int` that the accept thread counts up. The model numbers
the connections and keeps what has been sent to each; the numbers are not in the code.
-/

namespace NexusMainframe

open EventBus (Bus)
open WsServer (ClientTable clientId clientId_inj)
open WsService (Consistent matchingFilters topicMatches)

namespace Gateway

/-- The event that the bridge is subscribed to. -/
def messageEvent : Bytes :=
  Bytes.ofAscii "mqtt:message"

/-- The topic and the payload that the bridge reads from an event. -/
def message? (e : Event EventData) : Option (Bytes × Bytes) :=
  if e.name = messageEvent then
    match e.data with
    | .stringPair topic payload => some (topic, payload)
    | .empty | .string _ => none
  else none

/-- The messages among events. -/
def messages (es : List (Event EventData)) : List (Bytes × Bytes) :=
  es.filterMap message?

/-- The clients that the loops of the bridge send to, once for each filter that matches. -/
def targets (s : WsService) (topic : Bytes) : Multiset Int :=
  s.filterClients.keys.val.bind fun filter =>
    if topicMatches filter topic then (s.clientsOf filter).val else 0

/-- A message that the bridge was called for, with the subscriptions at that time. -/
structure Delivery where
  topic : Bytes
  payload : Bytes
  service : WsService

end Gateway

/-- The MQTT and the WebSocket service at work. `rx` is what the receive thread has still to
publish, `batch` what the main loop has taken from the bus, and `pending` what the bridge has still
to send, to whom. `received`, `history` and `sent` say what has happened so far, `sent` with the
connection that each text went to. -/
structure Gateway where
  service : WsService
  clients : ClientTable
  bus : Bus Unit EventData
  rx : List (Event EventData)
  batch : List (Event EventData)
  pending : List (Int × Bytes)
  received : List Bytes
  history : List Gateway.Delivery
  sent : List (Nat × Bytes)

namespace Gateway

/-- The services before the first message and the first client. -/
def init : Gateway where
  service := ⟨∅, ∅⟩
  clients := .init
  bus := .init
  rx := []
  batch := []
  pending := []
  received := []
  history := []
  sent := []

/-- What the receive thread, another thread, a client, the main loop and the bridge do. -/
inductive Act where
  | receive (chunk : Bytes)
  | publishNext
  | publish (event : Event EventData)
  | accept
  | drop (id : Int)
  | command (act : WsService.Act)
  | swap
  | handle (order : List Int)
  | sendNext

variable (dump : Json → Option Bytes) (parse : Bytes → Option Json)

/-- What the bridge is to send, in the order in which it goes through its table. -/
def frames (d : Delivery) (order : List Int) : List (Int × Bytes) :=
  match WsService.frame dump d.topic d.payload with
  | some text => order.map fun id => (id, text)
  | none => []

/-- The main loop handles the next event of its batch. -/
def handleEvent (s : Gateway) (e : Event EventData) (order : List Int) : Option Gateway :=
  if e.name = messageEvent then
    match e.data with
    | .stringPair topic payload =>
        if (order : Multiset Int) = targets s.service topic then
          some { s with
            history := s.history ++ [⟨topic, payload, s.service⟩]
            pending := frames dump ⟨topic, payload, s.service⟩ order }
        else none
    | .empty | .string _ => some s
  else if e.name = MqttService.mqttEvent then
    match MqttService.eventHandler e.data with
    | some event => some { s with bus := s.bus.publish event }
    | none => some s
  else some s

/-- A step of one of them. -/
def step (s : Gateway) : Act → Option Gateway
  | .receive chunk =>
      if s.rx = [] then
        some { s with
          rx := (MQTTClient.handlePacket chunk).events
          received := s.received ++ [chunk] }
      else none
  | .publishNext =>
      match s.rx with
      | [] => none
      | e :: rx => some { s with rx := rx, bus := s.bus.publish e }
  | .publish e =>
      -- only the receive thread publishes messages
      if message? e = none then some { s with bus := s.bus.publish e } else none
  | .accept =>
      some { s with clients := s.clients.enter }
  | .drop id =>
      if s.clients.conn id = none then none else some { s with clients := s.clients.drop id }
  | .command (.message id raw) =>
      if s.clients.conn id ≠ none ∧ s.pending = [] then
        some { s with service := WsService.next parse s.service (.message id raw) }
      else none
  | .command (.close id) =>
      -- the client is taken out of the table before the service hears of it
      if s.clients.conn id = none ∧ s.pending = [] then
        some { s with service := WsService.next parse s.service (.close id) }
      else none
  | .swap =>
      if s.batch = [] ∧ s.pending = [] then
        some { s with batch := s.bus.eventQueue, bus := { s.bus with eventQueue := [] } }
      else none
  | .handle order =>
      match s.batch with
      | [] => none
      | e :: batch =>
          if s.pending = [] then handleEvent dump { s with batch := batch } e order else none
  | .sendNext =>
      match s.pending with
      | [] => none
      | (id, text) :: pending =>
          some { s with
            pending := pending
            sent :=
              match s.clients.conn id with
              | some conn => s.sent ++ [(conn, text)]
              | none => s.sent }

/-- The steps, each with what it needs. -/
inductive Step : Gateway → Act → Gateway → Prop where
  | receive {s} (chunk : Bytes) (idle : s.rx = []) :
      Step s (.receive chunk) { s with
        rx := (MQTTClient.handlePacket chunk).events
        received := s.received ++ [chunk] }
  | publishNext {s e rx} (next : s.rx = e :: rx) :
      Step s .publishNext { s with rx := rx, bus := s.bus.publish e }
  | publish {s e} (other : message? e = none) :
      Step s (.publish e) { s with bus := s.bus.publish e }
  | accept {s} : Step s .accept { s with clients := s.clients.enter }
  | drop {s} (id : Int) : Step s (.drop id) { s with clients := s.clients.drop id }
  | message {s id} (raw : Bytes) (present : s.clients.conn id ≠ none) :
      Step s (.command (.message id raw)) { s with
        service := WsService.next parse s.service (.message id raw) }
  | close {s} (id : Int) :
      Step s (.command (.close id)) { s with
        service := WsService.next parse s.service (.close id) }
  | swap {s} (handled : s.batch = []) :
      Step s .swap { s with
        batch := s.bus.eventQueue
        bus := { s.bus with eventQueue := [] } }
  | handle {s t e batch order} (next : s.batch = e :: batch) (idle : s.pending = [])
      (h : handleEvent dump { s with batch := batch } e order = some t) :
      Step s (.handle order) t
  | sendNext {s id text pending} (next : s.pending = (id, text) :: pending) :
      Step s .sendNext { s with
        pending := pending
        sent :=
          match s.clients.conn id with
          | some conn => s.sent ++ [(conn, text)]
          | none => s.sent }

/-! ### What the clients are to get -/

/-- The value in the text of a frame. -/
def value (topic payload : Bytes) : Json :=
  Json.ofStrings [(Bytes.ofAscii "payload", payload), (Bytes.ofAscii "topic", topic),
    (Bytes.ofAscii "type", Bytes.ofAscii "message")]

/-- The texts of the frames for a client or a connection. -/
def textsOf {ι : Type} [DecidableEq ι] (frames : List (ι × Bytes)) (i : ι) : List Bytes :=
  (frames.filter fun f => f.1 = i).map Prod.snd

/-- What the server has written to the socket of a connection, behind the handshake. -/
def stream (s : Gateway) (conn : Nat) : Bytes :=
  (textsOf s.sent conn).flatMap WsServer.frame

/-- The messages that have been received and not yet handed to the bridge. -/
def underway (s : Gateway) : List (Bytes × Bytes) :=
  messages s.batch ++ messages s.bus.eventQueue ++ messages s.rx

/-- The topic and the payload. -/
def Delivery.message (d : Delivery) : Bytes × Bytes :=
  (d.topic, d.payload)

/-- The values that a client is to get for a message: one for each filter that matches, where the
message can be put into a text. -/
def Delivery.values (d : Delivery) (id : Int) : List Json :=
  if Utf8.Valid d.topic ∧ Utf8.Valid d.payload then
    List.replicate (matchingFilters d.service id d.topic).card (value d.topic d.payload)
  else []

/-! ### The targets of the bridge -/

/-- The bridge sends to its targets, where they are connected. -/
theorem bridge_eq
    (dump : Json → Option Bytes) (s : WsService) (connected : Finset Int) (topic payload : Bytes) :
  WsService.bridge dump s connected (.stringPair topic payload)
    = match WsService.frame dump topic payload with
      | some text => (targets s topic).bind fun id => WsService.send connected id text
      | none => 0
  := by
  cases hframe : WsService.frame dump topic payload with
  | none => simp only [WsService.bridge, hframe]
  | some text =>
      simp only [WsService.bridge, hframe]
      rw [targets, Multiset.bind_assoc]
      apply Multiset.bind_congr
      intro filter _
      split
      next => rfl
      next => rw [Multiset.zero_bind]

/-- A client is a target once for each of its filters that matches. -/
theorem count_targets {s : WsService} (h : Consistent s) (topic : Bytes) (id : Int) :
  (targets s topic).count id = (matchingFilters s id topic).card
  := by
  have hsends : ∀ ids : Multiset Int,
      (Multiset.map Prod.fst (ids.bind fun id' => WsService.send {id} id' [])).count id
        = ids.count id := by
    intro ids
    induction ids using Multiset.induction_on with
    | empty => rfl
    | cons id' ids ih =>
        rw [Multiset.cons_bind, Multiset.map_add, Multiset.count_add, ih, Multiset.count_cons,
          Nat.add_comm, WsService.send]
        by_cases heq : id' = id
        · simp [heq]
        · simp [heq, Ne.symm heq]
  have hframe : WsService.frame (fun _ => some []) topic [] = some [] := rfl
  have hframes := WsService.framesTo_bridge h {id} hframe id
  rw [if_pos (Finset.mem_singleton_self id), bridge_eq, WsService.framesTo] at hframes
  rw [← hframes]
  apply (hsends _).symm

/-! ### Messages in order -/

@[simp]
theorem messages_append (es es' : List (Event EventData)) :
  messages (es ++ es') = messages es ++ messages es'
  := List.filterMap_append

theorem message?_of_string {e : Event EventData} {str : Bytes} (h : e.data = .string str) :
  message? e = none
  := by
  rw [message?, h]
  split <;> rfl

/-- The handler of `mqtt:event` publishes no message. -/
theorem message?_eventHandler
    {data : EventData} {e : Event EventData} (h : MqttService.eventHandler data = some e) :
  message? e = none
  := by
  cases data with
  | string str =>
      rcases MqttService.eventHandler_string.mp h with ⟨rest, -, -, hdata⟩ | ⟨-, rfl⟩
      · apply message?_of_string hdata
      · apply message?_of_string rfl
  | empty | stringPair _ _ => cases h

/-- What all steps keep: the bus is active, the maps of the service are inverse to each other, the
clients are numbered, and the messages that have been received have been handled or are underway, in
their order. -/
structure Inv (s : Gateway) : Prop where
  active : s.bus.isShuttingDown = false
  consistent : Consistent s.service
  numbered : s.clients.Numbered
  order : s.history.map Delivery.message ++ s.underway
    = messages (s.received.flatMap fun chunk => (MQTTClient.handlePacket chunk).events)

section

variable {dump : Json → Option Bytes} {parse : Bytes → Option Json} {s t : Gateway}

theorem messages_publish
    (h : s.bus.isShuttingDown = false) (e : Event EventData) :
  messages (s.bus.publish e).eventQueue = messages s.bus.eventQueue ++ (message? e).toList
  := by
  rw [Bus.eventQueue_publish h, messages_append]
  cases he : message? e <;> simp [messages, he]

/-- A step that publishes an event that is no message. -/
theorem Inv.publish (h : Inv s) {e : Event EventData} (he : message? e = none) :
  Inv { s with bus := s.bus.publish e }
  := by
  constructor
  · rw [Bus.isShuttingDown_publish, h.active]
  · apply h.consistent
  · exact h.numbered
  · rw [← h.order, underway, underway, messages_publish h.active, he]
    simp

/-- The event is a message, for which the bridge takes its targets in some order, or no message,
and then at most an event is published that is none either. -/
theorem handleEvent_cases
    {e : Event EventData} {order : List Int} (h : handleEvent dump s e order = some t) :
  (∃ topic payload, message? e = some (topic, payload)
      ∧ (order : Multiset Int) = targets s.service topic
      ∧ t = { s with
          history := s.history ++ [⟨topic, payload, s.service⟩]
          pending := frames dump ⟨topic, payload, s.service⟩ order })
    ∨ message? e = none
      ∧ (t = s ∨ ∃ e', message? e' = none ∧ t = { s with bus := s.bus.publish e' })
  := by
  obtain ⟨name, data⟩ := e
  unfold handleEvent at h
  split at h
  next hname =>
    cases data with
    | stringPair topic payload =>
        left
        use topic, payload
        simp only [Option.ite_none_right_eq_some, Option.some.injEq] at h
        refine ⟨?_, h.1, h.2.symm⟩
        rw [message?, if_pos hname]
    | empty | string _ =>
        right
        rw [message?, if_pos hname]
        exact ⟨rfl, Or.inl (Option.some.inj h).symm⟩
  next hname =>
    right
    rw [message?, if_neg hname]
    use rfl
    split at h
    next =>
      split at h
      next e' he' =>
        right
        use e', message?_eventHandler he'
        exact (Option.some.inj h).symm
      next => exact Or.inl (Option.some.inj h).symm
    next => exact Or.inl (Option.some.inj h).symm

/-- The first event of the batch is handled. -/
theorem Inv.handleEvent
    {e : Event EventData} {batch : List (Event EventData)} {order : List Int}
    (h : Inv s) (hbatch : s.batch = e :: batch)
    (ht : handleEvent dump { s with batch := batch } e order = some t) :
  Inv t
  := by
  have horder := h.order
  rw [underway, hbatch, messages, List.filterMap_cons] at horder
  rcases handleEvent_cases ht with
    ⟨topic, payload, he, -, rfl⟩ | ⟨he, rfl | ⟨e', he', rfl⟩⟩
  · refine ⟨h.active, h.consistent, h.numbered, ?_⟩
    rw [he] at horder
    rw [← horder]
    simp [underway, Delivery.message, messages]
  · refine ⟨h.active, h.consistent, h.numbered, ?_⟩
    rw [he] at horder
    apply horder
  · have hskip : Inv { s with batch := batch } := by
      refine ⟨h.active, h.consistent, h.numbered, ?_⟩
      rw [he] at horder
      apply horder
    apply hskip.publish he'

theorem Step.of_step {a : Act} (h : step dump parse s a = some t) :
  Step dump parse s a t
  := by
  cases a with
  | receive chunk =>
      simp only [step, Option.ite_none_right_eq_some, Option.some.injEq] at h
      obtain ⟨hrx, rfl⟩ := h
      exact .receive chunk hrx
  | publishNext =>
      simp only [step] at h
      split at h
      next => cases h
      next hrx =>
        cases h
        exact .publishNext hrx
  | publish e =>
      simp only [step, Option.ite_none_right_eq_some, Option.some.injEq] at h
      obtain ⟨he, rfl⟩ := h
      exact .publish he
  | accept =>
      cases h
      exact .accept
  | drop id =>
      simp only [step, Option.ite_none_left_eq_some, Option.some.injEq] at h
      obtain ⟨-, rfl⟩ := h
      exact .drop id
  | command act =>
      cases act with
      | message id raw =>
          simp only [step, Option.ite_none_right_eq_some, Option.some.injEq] at h
          obtain ⟨⟨hclient, -⟩, rfl⟩ := h
          exact .message raw hclient
      | close id =>
          simp only [step, Option.ite_none_right_eq_some, Option.some.injEq] at h
          obtain ⟨-, rfl⟩ := h
          exact .close id
  | swap =>
      simp only [step, Option.ite_none_right_eq_some, Option.some.injEq] at h
      obtain ⟨⟨hbatch, -⟩, rfl⟩ := h
      exact .swap hbatch
  | handle order =>
      simp only [step] at h
      split at h
      next => cases h
      next hbatch =>
        simp only [Option.ite_none_right_eq_some] at h
        exact .handle hbatch h.1 h.2
  | sendNext =>
      simp only [step] at h
      split at h
      next => cases h
      next hpending =>
        cases h
        exact .sendNext hpending

theorem Inv.step {a : Act} (h : Inv s) (hstep : Step dump parse s a t) :
  Inv t
  := by
  cases hstep with
  | receive chunk hrx =>
      refine ⟨h.active, h.consistent, h.numbered, ?_⟩
      have horder := h.order
      simp only [underway, hrx] at horder ⊢
      rw [List.flatMap_append, messages_append, ← horder]
      simp [messages]
  | @publishNext e _ hrx =>
      refine ⟨?_, h.consistent, h.numbered, ?_⟩
      · rw [Bus.isShuttingDown_publish, h.active]
      · rw [← h.order]
        simp only [underway, messages_publish h.active, hrx]
        cases he : message? e <;> simp [messages, he]
  | publish he => apply h.publish he
  | accept => exact ⟨h.active, h.consistent, h.numbered.enter, h.order⟩
  | drop id => exact ⟨h.active, h.consistent, h.numbered.drop id, h.order⟩
  | @message id raw _ =>
      have hnext : Consistent (WsService.next parse s.service (.message id raw)) :=
        WsService.consistent_next h.consistent _
      exact ⟨h.active, hnext, h.numbered, h.order⟩
  | close id =>
      have hnext : Consistent (WsService.next parse s.service (.close id)) :=
        WsService.consistent_next h.consistent _
      exact ⟨h.active, hnext, h.numbered, h.order⟩
  | swap hbatch =>
      refine ⟨h.active, h.consistent, h.numbered, ?_⟩
      rw [← h.order]
      simp [underway, hbatch, messages]
  | handle hbatch _ ht => apply h.handleEvent hbatch ht
  | sendNext _ => exact ⟨h.active, h.consistent, h.numbered, h.order⟩

/-! ### Clients that stay -/

section

variable {ι : Type} [DecidableEq ι]

@[simp]
theorem textsOf_nil (i : ι) :
  textsOf [] i = []
  := rfl

@[simp]
theorem textsOf_append (fs fs' : List (ι × Bytes)) (i : ι) :
  textsOf (fs ++ fs') i = textsOf fs i ++ textsOf fs' i
  := by
  rw [textsOf, List.filter_append, List.map_append, textsOf, textsOf]

theorem textsOf_cons (i' : ι) (text : Bytes) (fs : List (ι × Bytes)) (i : ι) :
  textsOf ((i', text) :: fs) i = if i' = i then text :: textsOf fs i else textsOf fs i
  := by
  rw [textsOf, List.filter_cons]
  split <;> simp_all [textsOf]

end

theorem textsOf_map (order : List Int) (text : Bytes) (id : Int) :
  textsOf (order.map fun id => (id, text)) id = List.replicate (order.count id) text
  := by
  induction order with
  | nil => rfl
  | cons id' order ih =>
      rw [List.map_cons, textsOf_cons, List.count_cons, ih]
      by_cases heq : id' = id
      · rw [if_pos heq, if_pos (beq_iff_eq.mpr heq), List.replicate_succ]
      · rw [if_neg heq, if_neg (fun h => heq (beq_iff_eq.mp h)), Nat.add_zero]

/-- The texts of the frames for a message. -/
def Delivery.texts (dump : Json → Option Bytes) (d : Delivery) (id : Int) : List Bytes :=
  match WsService.frame dump d.topic d.payload with
  | some text => List.replicate (matchingFilters d.service id d.topic).card text
  | none => []

/-- The client of a connection that is not dropped is in the table from its accept on, and has no
filters and nothing to get before; and it has been sent what it is to get, but for what the bridge
has still to send. -/
structure Stays (dump : Json → Option Bytes) (s : Gateway) (conn : Nat) : Prop where
  table : s.clients.conn (clientId conn) = if conn < s.clients.entered then some conn else none
  subscribed : ∀ filter ∈ s.service.subsOf (clientId conn), conn < s.clients.entered
  targeted : ∀ f ∈ s.pending, f.1 = clientId conn → conn < s.clients.entered
  texts : textsOf s.sent conn ++ textsOf s.pending (clientId conn)
    = s.history.flatMap fun d => d.texts dump (clientId conn)

/-- The frames for a client are as many as its filters that match. -/
theorem textsOf_frames
    {d : Delivery} (h : Consistent d.service) {order : List Int}
    (horder : (order : Multiset Int) = targets d.service d.topic) (id : Int) :
  textsOf (frames dump d order) id = d.texts dump id
  := by
  rw [frames, Delivery.texts]
  split
  next text _ => rw [textsOf_map, ← Multiset.coe_count, horder, count_targets h]
  next => rfl

theorem Stays.handleEvent
    {e : Event EventData} {order : List Int} {conn : Nat} (h : Stays dump s conn)
    (hconsistent : Consistent s.service) (hpending : s.pending = [])
    (ht : handleEvent dump s e order = some t) :
  Stays dump t conn
  := by
  rcases handleEvent_cases ht with
    ⟨topic, payload, -, horder, rfl⟩ | ⟨-, rfl | ⟨e', -, rfl⟩⟩
  · refine ⟨h.table, h.subscribed, ?_, ?_⟩
    · intro f hf heq
      -- a target has a filter that matches
      have hmem : f.1 ∈ order := by
        simp only [frames] at hf
        split at hf
        next =>
          obtain ⟨id, hid, rfl⟩ := List.mem_map.mp hf
          apply hid
        next => cases hf
      have hcount : 0 < (targets s.service topic).count f.1 := by
        rw [← horder, Multiset.coe_count]
        apply List.count_pos_iff.mpr hmem
      rw [count_targets hconsistent, Finset.card_pos] at hcount
      obtain ⟨filter, hfilter⟩ := hcount
      apply h.subscribed filter
      rw [← heq]
      exact (Finset.mem_filter.mp hfilter).1
    · have htexts := h.texts
      rw [hpending, textsOf_nil, List.append_nil] at htexts
      have hframes : textsOf (frames dump ⟨topic, payload, s.service⟩ order) (clientId conn)
          = Delivery.texts dump ⟨topic, payload, s.service⟩ (clientId conn) :=
        textsOf_frames hconsistent horder (clientId conn)
      rw [List.flatMap_append, ← htexts, hframes]
      simp
  · apply h
  · exact ⟨h.table, h.subscribed, h.targeted, h.texts⟩

/-- A connection is accepted. -/
theorem Stays.accept
    {conn : Nat} (hinv : Inv s) (h : Stays dump s conn) (hconn : conn < 2 ^ 32)
    (hentered : s.clients.entered < 2 ^ 32) :
  Stays dump { s with clients := s.clients.enter } conn
  := by
  refine ⟨?_, ?_, ?_, h.texts⟩
  · dsimp only
    rw [ClientTable.conn_enter, hinv.numbered.nextId, h.table]
    simp only [clientId_inj hconn hentered, ClientTable.enter]
    by_cases heq : conn = s.clients.entered
    · simp [heq]
    · rw [if_neg heq]
      apply if_congr _ rfl rfl
      omega
  · intro filter hfilter
    exact Nat.lt_succ_of_lt (h.subscribed filter hfilter)
  · intro f hf heq
    exact Nat.lt_succ_of_lt (h.targeted f hf heq)

/-- The bridge sends the next frame. -/
theorem Stays.sendNext
    {conn : Nat} {id : Int} {text : Bytes} {pending : List (Int × Bytes)} (hinv : Inv s)
    (h : Stays dump s conn) (hpending : s.pending = (id, text) :: pending) :
  Stays dump { s with
    pending := pending
    sent :=
      match s.clients.conn id with
      | some conn => s.sent ++ [(conn, text)]
      | none => s.sent } conn
  := by
  refine ⟨h.table, h.subscribed, ?_, ?_⟩
  · intro f hf heq
    apply h.targeted f _ heq
    rw [hpending]
    apply List.mem_cons_of_mem _ hf
  · have htexts := h.texts
    rw [hpending, textsOf_cons] at htexts
    dsimp only
    by_cases heq : id = clientId conn
    · have hlt : conn < s.clients.entered := by
        apply h.targeted (id, text) _ heq
        rw [hpending]
        apply List.mem_cons_self
      have hclient : s.clients.conn id = some conn := by
        rw [heq, h.table, if_pos hlt]
      rw [if_pos heq] at htexts
      rw [hclient, ← htexts]
      simp [textsOf]
    · rw [if_neg heq] at htexts
      rw [← htexts]
      split
      next conn' hconn' =>
        have hne : conn' ≠ conn := by
          rintro rfl
          exact heq (hinv.numbered.conn hconn').1
        rw [textsOf_append, textsOf_cons, if_neg hne]
        simp
      next => rfl

theorem Stays.step
    {a : Act} {conn : Nat} (hinv : Inv s) (h : Stays dump s conn) (hconn : conn < 2 ^ 32)
    (hdrop : a ≠ .drop (clientId conn)) (hstep : Step dump parse s a t)
    (hentered : t.clients.entered ≤ 2 ^ 32) :
  Stays dump t conn
  := by
  cases hstep with
  | receive _ _ | publishNext _ | publish _ | swap _ =>
      exact ⟨h.table, h.subscribed, h.targeted, h.texts⟩
  | accept => exact h.accept hinv hconn hentered
  | drop id' =>
      have hne : clientId conn ≠ id' := fun heq => hdrop (heq ▸ rfl)
      refine ⟨?_, h.subscribed, h.targeted, h.texts⟩
      dsimp only
      rw [ClientTable.conn_drop, if_neg hne, h.table]
      rfl
  | message raw hclient =>
      refine ⟨h.table, ?_, h.targeted, h.texts⟩
      intro filter hfilter
      rcases WsService.mem_subsOf_next hfilter with hold | ⟨raw', msg, topic, heq, -, -⟩
      · apply h.subscribed filter hold
      · by_contra hnot
        apply hclient
        rw [(WsService.Act.message.inj heq).1, h.table, if_neg hnot]
  | close id' =>
      refine ⟨h.table, ?_, h.targeted, h.texts⟩
      intro filter hfilter
      rcases WsService.mem_subsOf_next hfilter with hold | ⟨raw', msg, topic, heq, -, -⟩
      · apply h.subscribed filter hold
      · exact WsService.Act.noConfusion heq
  | @handle _ _ batch _ _ hpending ht =>
      have hskip : Stays dump { s with batch := batch } conn :=
        ⟨h.table, h.subscribed, h.targeted, h.texts⟩
      apply hskip.handleEvent hinv.consistent hpending ht
  | sendNext hpending => exact h.sendNext hinv hpending

/-- A packet that the client reads whole, if a call of `recv` returns just it: a PUBLISH is
short. -/
def Readable : Mqtt.Packet → Prop
  | .publish _ topic payload => topic.length + payload.length ≤ 125
  | _ => True

instance : DecidablePred Readable
  | .publish _ topic payload => inferInstanceAs (Decidable (topic.length + payload.length ≤ 125))
  | .connect .. | .connack .. | .subscribe .. | .suback .. | .pingreq | .pingresp =>
      inferInstanceAs (Decidable True)

end

/-- A client subscribes, and a message comes that its filter matches. -/
def lampMessage : List Act :=
  [.accept, .command (.message 0 (WsService.commandText "subscribe" "home/+")),
    .receive (Mqtt.Packet.publish false (Bytes.ofAscii "home/lamp") (Bytes.ofAscii "on")).encode,
    .publishNext, .publishNext, .swap, .handle [], .handle [0], .sendNext]

end Gateway

end NexusMainframe
